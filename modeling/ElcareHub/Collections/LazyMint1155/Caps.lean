import ElcareHub.Collections.LazyMint1155.Editions

/-!
# Edition and quota caps of LazyMint1155

`check_voucher` compares the amount of one item with what is left of its edition and of its quota.
`redeem` mints that one item next, so the caps hold. `redeem_batch` checks all items against the state
before the batch and mints afterwards: items of one token that fit one by one may together exceed the
edition, the quota, or both. `Editions.Redeems.within_iff` is the exact condition under which a
redemption respects the caps: the items fit *together* (`Editions.FitsTogether`).

What a buyer has had minted is read off the redemptions on record, so that it can be said for each item
of a batch what the buyer had when that item was minted; `MintedPerBuyer` agrees with the record
(`Editions.Tallied`).
-/

namespace ElcareHub.LazyMint1155

open Collection Call Tally Function

/-! ### Units -/

/-- The units of token `i` among the items. -/
def unitsOf (i : Nat) (items : List BatchVoucherItem1155) : Nat :=
  tally (fun item => decide (item.voucher.tokenId = i)) BatchVoucherItem1155.amount items

/-- What `buyer` has had minted of token `i`, according to a record of redemptions. -/
def mintedBy (buyer : Address) (i : Nat) (redemptions : List Redemption) : Nat :=
  tally (fun x => decide (x.buyer = buyer ∧ x.tokenId = i)) Redemption.amount redemptions

theorem unitsOf_cons (i : Nat) (item : BatchVoucherItem1155) (items : List BatchVoucherItem1155) :
    unitsOf i (item :: items) =
      (if item.voucher.tokenId = i then item.amount else 0) + unitsOf i items := by
  simp [unitsOf, tally_cons]

theorem mintedBy_map_redemption (buyer : Address) (i : Nat) (items : List BatchVoucherItem1155) :
    mintedBy buyer i (items.map (BatchVoucherItem1155.redemption buyer)) = unitsOf i items := by
  induction items with
  | nil => rfl
  | cons item items ih =>
    rw [unitsOf_cons, ← ih, List.map_cons, mintedBy, tally_cons]
    simp [BatchVoucherItem1155.redemption, mintedBy]

namespace Editions

variable {t t' : Editions} {o : Order} {buyer : Address} {items : List BatchVoucherItem1155}

/-- Every edition is within its maximum supply. -/
def Capped (t : Editions) : Prop := ∀ i, ∀ max ∈ t.editionMaxSupply i, t.totalSupply i ≤ max

/-- When each item was minted, the buyer had no more of its token than the quota of its voucher. -/
def WithinQuotas (o : Order) (t t' : Editions) : Prop :=
  ∀ j (hj : j < o.items.length),
    mintedBy o.buyer o.items[j].voucher.tokenId (t'.redemptions.take (t.redemptions.length + (j + 1)))
      ≤ o.items[j].voucher.buyerQuota

/-- The items of an order fit the editions together, and each fits the quota of its voucher together
with those before it. -/
structure FitsTogether (t : Editions) (o : Order) : Prop where
  supply : ∀ item ∈ o.items, ∀ max ∈ t.editionMaxSupply item.voucher.tokenId,
    t.totalSupply item.voucher.tokenId + unitsOf item.voucher.tokenId o.items ≤ max
  quota : ∀ j (hj : j < o.items.length), t.mintedPerBuyer (o.buyer, o.items[j].voucher.tokenId) +
      unitsOf o.items[j].voucher.tokenId (o.items.take (j + 1)) ≤ o.items[j].voucher.buyerQuota

/-- The counts of the contract agree with the record. -/
def Tallied (t : Editions) : Prop :=
  ∀ a i, t.mintedPerBuyer (a, i) = mintedBy a i t.redemptions

/-! ### Mints -/

theorem totalSupply_foldl_mint (i : Nat) :
    (items.foldl (mint buyer) t).totalSupply i = t.totalSupply i + unitsOf i items := by
  induction items generalizing t with
  | nil => rfl
  | cons item items ih =>
    rw [List.foldl_cons, ih, unitsOf_cons, ← Nat.add_assoc]
    congr 1
    change Function.update t.totalSupply item.voucher.tokenId _ i = _
    by_cases hi : i = item.voucher.tokenId
    · subst hi
      simp
    · simp [update_of_ne hi, Ne.symm hi]

theorem editionMaxSupply_foldl_mint :
    (items.foldl (mint buyer) t).editionMaxSupply = t.editionMaxSupply := by
  induction items generalizing t with
  | nil => rfl
  | cons item items ih => exact ih

theorem redemptions_foldl_mint : (items.foldl (mint buyer) t).redemptions =
      t.redemptions ++ items.map (BatchVoucherItem1155.redemption buyer) := by
  induction items generalizing t with
  | nil => simp
  | cons item items ih =>
    rw [List.foldl_cons, ih]
    simp [mint, record, setMinted, setSupply]

theorem Tallied.mint (h : t.Tallied) (item : BatchVoucherItem1155) : (t.mint buyer item).Tallied := by
  intro a i
  change Function.update t.mintedPerBuyer (buyer, item.voucher.tokenId) _ (a, i) =
    mintedBy a i (t.redemptions ++ [item.redemption buyer])
  rw [mintedBy, tally_append, tally_cons]
  by_cases hai : a = buyer ∧ i = item.voucher.tokenId
  · obtain ⟨rfl, rfl⟩ := hai
    rw [update_self, h]
    simp [BatchVoucherItem1155.redemption, mintedBy]
  · rw [update_of_ne (by simpa using hai), h]
    have hother : ¬ (buyer = a ∧ item.voucher.tokenId = i) := fun e => hai ⟨e.1.symm, e.2.symm⟩
    simp [BatchVoucherItem1155.redemption, mintedBy, hother]

theorem Tallied.foldl_mint (h : t.Tallied) : (items.foldl (Editions.mint buyer) t).Tallied := by
  induction items generalizing t with
  | nil => exact h
  | cons item items ih => exact ih (h.mint item)

/-! ### When a redemption respects the caps -/

/-- The record up to an item of the order. -/
theorem Redeems.mintedBy_take (h : Redeems o t t') (ht : t.Tallied) (i j : Nat) :
    mintedBy o.buyer i (t'.redemptions.take (t.redemptions.length + j)) =
      t.mintedPerBuyer (o.buyer, i) + unitsOf i (o.items.take j) := by
  rw [h.mints, redemptions_foldl_mint, List.take_length_add_append, ← List.map_take, mintedBy,
    tally_append, ht]
  congr 1
  exact mintedBy_map_redemption ..

theorem Redeems.capped_iff (h : Redeems o t t') (ht : t.Capped) :
    t'.Capped ↔ ∀ item ∈ o.items, ∀ max ∈ t.editionMaxSupply item.voucher.tokenId,
      t.totalSupply item.voucher.tokenId + unitsOf item.voucher.tokenId o.items ≤ max := by
  have hsupply (i : Nat) : t'.totalSupply i = t.totalSupply i + unitsOf i o.items := by
    rw [h.mints, totalSupply_foldl_mint]
  have hmax : t'.editionMaxSupply = t.editionMaxSupply := by
    rw [h.mints, editionMaxSupply_foldl_mint]
  simp only [Capped, hsupply, hmax]
  refine ⟨fun hall item _ => hall item.voucher.tokenId, fun hitems i max hi => ?_⟩
  by_cases hnamed : ∃ item ∈ o.items, item.voucher.tokenId = i
  · obtain ⟨item, hitem, rfl⟩ := hnamed
    exact hitems item hitem max hi
  · -- a token that no item names
    have hzero : unitsOf i o.items = 0 :=
      tally_eq_zero fun item hitem => decide_eq_false fun e => hnamed ⟨item, hitem, e⟩
    rw [hzero]
    exact ht i max hi

/-- **When a redemption respects the caps**: exactly when its items fit together. -/
theorem Redeems.within_iff (h : Redeems o t t') (hcapped : t.Capped) (htallied : t.Tallied) :
    t'.Capped ∧ WithinQuotas o t t' ↔ t.FitsTogether o := by
  rw [h.capped_iff hcapped]
  simp only [WithinQuotas, h.mintedBy_take htallied]
  exact ⟨fun hboth => ⟨hboth.1, hboth.2⟩, fun hfits => ⟨hfits.supply, hfits.quota⟩⟩

/-! ### Moves -/

/-- The caps hold, the counts agree with the record, and nothing is minted of an edition that is not
registered. -/
structure Sound (t : Editions) : Prop where
  capped : t.Capped
  tallied : t.Tallied
  unregistered : ∀ i, t.editionMaxSupply i = none → t.totalSupply i = 0

/-- The tokens an order names are registered. -/
theorem Redeems.unregistered (h : Redeems o t t') (hi : t.editionMaxSupply i = none) :
    unitsOf i o.items = 0 := by
  refine tally_eq_zero fun item hitem => decide_eq_false ?_
  rintro rfl
  obtain ⟨⟨max, hmax, -⟩, -⟩ := h.admits item hitem
  rw [hi] at hmax
  cases hmax

theorem Redeems.sound (h : Redeems o t t') (ht : t.Sound) (hfits : t.FitsTogether o) : t'.Sound := by
  refine ⟨((h.within_iff ht.capped ht.tallied).mpr hfits).1, ?_, fun i hi => ?_⟩
  · rw [h.mints]
    exact ht.tallied.foldl_mint
  · rw [h.mints, editionMaxSupply_foldl_mint] at hi
    rw [h.mints, totalSupply_foldl_mint, ht.unregistered i hi, h.unregistered hi]

/-- **A move keeps the caps**, if the items it redeems fit together. -/
theorem Move.sound (hm : t.Move order t') (h : t.Sound)
    (hfits : ∀ o, order = some o → (∀ item ∈ o.items, t.Admits o.buyer item) → t.FitsTogether o) :
    t'.Sound := by
  cases hm with
  | skip => exact h
  | redeem ho hr => exact hr.sound h (hfits _ ho hr.admits)
  | register i max hnew =>
    refine ⟨fun j m hm => ?_, h.tallied, fun j hj => ?_⟩
    · by_cases hji : j = i
      · rw [hji]
        exact (h.unregistered i hnew).le.trans (Nat.zero_le m)
      · exact h.capped j m ((update_of_ne hji _ _).symm.trans hm)
    · by_cases hji : j = i
      · rw [hji]
        exact h.unregistered i hnew
      · exact h.unregistered j ((update_of_ne hji _ _).symm.trans hj)
  | burn i n =>
    -- a burn only lowers the supply
    have hle (j : Nat) : (t.setSupply i (t.totalSupply i - n)).totalSupply j ≤ t.totalSupply j := by
      change Function.update t.totalSupply i _ j ≤ _
      by_cases hji : j = i
      · rw [hji, update_self]
        exact Nat.sub_le _ _
      · rw [update_of_ne hji]
    exact ⟨fun j m hm => (hle j).trans (h.capped j m hm), h.tallied,
      fun j hj => Nat.le_zero.mp ((hle j).trans (h.unregistered j hj).le)⟩

end Editions

/-! ### Runs -/

/-- The items of an order that fit the caps one by one fit them together. -/
def FitsTogether (s : State) (call : Env × Op) : Prop :=
  ∀ o, call.2.order = some o → (∀ item ∈ o.items, s.editions.Admits o.buyer item) →
    s.editions.FitsTogether o

variable {dep : Deployment} {balances : Address × Address → Int} {calls : List (Env × Op)}

theorem sound_run (h : Run.Along (step dep) FitsTogether (.fresh balances) calls) :
    (run dep (.fresh balances) calls).editions.Sound := by
  have hfresh : (State.fresh balances).editions.Sound :=
    ⟨fun _ _ hi => (Option.some_ne_none _ hi.symm).elim, fun _ _ => rfl, fun _ _ => rfl⟩
  exact h.invariant hfresh
    fun s call hs hfits => (step_moves dep s call).sound hs hfits

/-- **The caps are respected.** In a run in which the items of every order that fit the caps one by one
fit them together, every state reached has every edition within its maximum supply. A redemption made
in it keeps the editions within their maximum supply and each item within the quota of its voucher,
exactly when its items fit together. -/
theorem caps_respected (dep : Deployment) (balances : Address × Address → Int)
    (calls : List (Env × Op))
    (h : Run.Along (step dep) FitsTogether (.fresh balances) calls) :
    let s := run dep (.fresh balances) calls
    (∀ i, ∀ max ∈ s.editionMaxSupply i, s.totalSupply i ≤ max) ∧
      ∀ env (op : Op) o s', op.order = some o → Returns (op.exec dep env) s () s' →
        (s'.editions.Capped ∧ Editions.WithinQuotas o s.editions s'.editions ↔
          s.editions.FitsTogether o) := by
  intro s
  have hsound : s.editions.Sound := sound_run h
  refine ⟨hsound.capped, fun env op o s' ho hop => ?_⟩
  exact (order_redeems ho hop).within_iff hsound.capped hsound.tallied

/-! ### Two vouchers for one edition -/

def collection : Deployment := ⟨⟨100⟩, .plain⟩

/-- A free voucher for token `1`, signed, with a quota of ten, of which `amount` is redeemed. -/
def freeItem (nonce amount : Nat) : BatchVoucherItem1155 :=
  let v : MintVoucher1155 := ⟨1, nonce, 10, 0, ⟨50⟩, "ipfs", [], 0⟩
  ⟨v, amount, voucherDigest collection (some "net") v, []⟩

/-- An edition of ten is on sale to everyone, and a buyer redeems one unit of it. -/
def oneSold : List (Env × Op) :=
  [(.signedBy ⟨1⟩ 100, .initializeCollection ⟨1⟩ [7] "Collection" 500 ⟨1⟩ ⟨9⟩ 0 "net"),
    (.signedBy ⟨1⟩ 100, .setPublicPhase), (.signedBy ⟨1⟩ 100, .registerEdition 1 10),
    (.signedBy ⟨20⟩ 100, .redeemBatch ⟨20⟩ [freeItem 5 1])]

theorem fitsTogether_oneSold :
    Run.Along (step collection) FitsTogether (.fresh fun _ => 0) oneSold := by
  simp only [oneSold, Run.along_cons, Run.along_nil, FitsTogether, Op.order, reduceCtorEq,
    false_imp_iff, implies_true, true_and, and_true, Option.some.injEq, forall_eq']
  exact fun _ => ⟨by decide +kernel, by decide +kernel⟩

theorem caps_respected_oneSold :
    let s := run collection (.fresh fun _ => 0) oneSold
    s.totalSupply 1 = 1 ∧ (∀ max ∈ s.editionMaxSupply 1, s.totalSupply 1 ≤ max) := by
  refine ⟨by decide +kernel, (caps_respected collection _ oneSold fitsTogether_oneSold).1 1⟩

/-- The buyer redeems five units twice in one batch. Each voucher has a quota of ten and nine units are
left, but eleven are minted of an edition of ten, all of them to one buyer. -/
theorem batch_exceeds_caps :
    let s := run collection (.fresh fun _ => 0) oneSold
    let s' := step collection s (.signedBy ⟨20⟩ 100, .redeemBatch ⟨20⟩ [freeItem 6 5, freeItem 7 5])
    s.totalSupply 1 = 1 ∧ s'.editionMaxSupply 1 = some 10 ∧ s'.totalSupply 1 = 11 ∧
      s'.mintedPerBuyer (⟨20⟩, 1) = 11 ∧
        ¬ Editions.WithinQuotas ⟨⟨20⟩, [freeItem 6 5, freeItem 7 5]⟩ s.editions s'.editions := by
  refine ⟨by decide +kernel, by decide +kernel, by decide +kernel, by decide +kernel, fun h => ?_⟩
  exact absurd (h 1 (by decide)) (by decide +kernel)

end ElcareHub.LazyMint1155
