import ElcareHub.Collections.LazyMint721.Ownership

/-!
# The supply cap of LazyMint721

The contract caps its supply by ids: a redemption is refused once `NextTokenId`, which is one above the
highest id redeemed so far, has reached `MaxSupply`. A batch asks this for each of its items, counting
on from `NextTokenId` one by one, whatever ids the vouchers name.

That bounds the number of tokens as long as ids are spent once: all tokens that have an owner lie below
`NextTokenId` (`Capped.below`), so there are no more of them than ids below it, and a redemption of
`n` vouchers has checked that there is room for `n` more ids (`Stamps.room`). A second voucher for an
owned token leaves the ids where they are and counts once more; nothing bounds how often.
-/

namespace ElcareHub.LazyMint721

open Collection Call Holdings Function

set_option synthInstance.maxSize 100000000

variable {i k : Nat} {ids : List Nat} {pubkey : Bytes} {items : List BatchVoucherItem}
variable {t : Tokens}

/-! ### The mark -/

/-- What the cap is checked with. -/
structure Mark where
  maxSupply : Option Nat
  nextTokenId : Nat

abbrev State.mark (s : State) : Mark := ⟨s.maxSupply, s.nextTokenId⟩

/-- The next id after `i` has been minted. -/
def Mark.pass (next i : Nat) : Nat := if i ≥ next then i + 1 else next

/-- What a redemption of `vs` does to the mark, and what it has checked. -/
structure Stamps (vs : List MintVoucher) (m m' : Mark) : Prop where
  room : m.maxSupply.getD u64Max ≤ u64Max → m.nextTokenId + vs.length ≤ m.maxSupply.getD u64Max
  mark : m' = ⟨m.maxSupply, (vs.map MintVoucher.tokenId).foldl Mark.pass m.nextTokenId⟩

theorem le_foldl_pass (next : Nat) (ids : List Nat) : next ≤ ids.foldl Mark.pass next := by
  induction ids generalizing next with
  | nil => exact Nat.le_refl next
  | cons i ids ih =>
    refine Nat.le_trans ?_ (ih (Mark.pass next i))
    unfold Mark.pass
    split <;> omega

/-- Every id that is minted is passed. -/
theorem lt_foldl_pass (next : Nat) (hi : i ∈ ids) : i < ids.foldl Mark.pass next := by
  induction ids generalizing next with
  | nil => cases hi
  | cons j ids ih =>
    rcases List.mem_cons.mp hi with rfl | hi
    · refine Nat.lt_of_lt_of_le ?_ (le_foldl_pass (Mark.pass next i) ids)
      unfold Mark.pass
      split <;> omega
    · exact ih _ hi

/-! ### Calls that leave the mark alone -/

section Frames

variable {dep : Deployment} {env : Env}

instance mark_onLazy (c : Call (Fault Error) LazyBase α) : Preserves State.mark (onLazy c) where
  eq h := by
    obtain ⟨l, -, rfl⟩ := h.zoom
    rfl

end Frames

/-! ### Redemptions -/

section Parts

variable {dep : Deployment} {env : Env} {s s' : State} {u : Unit} {buyer creator : Address}

/-- A mint passes the id it mints. -/
theorem mintToken_mark (h : Returns (mintToken buyer i nonce uri s.nextTokenId) s u s') :
    s'.mark = ⟨s.maxSupply, Mark.pass s.nextTokenId i⟩ := by
  obtain ⟨_, _, _, _, s4, e, h⟩ := h.skip₄ (f := State.mark) rfl
  obtain ⟨_, _, _, _, s8, e, h⟩ := h.skip₄ e
  obtain ⟨_, s9, e, h⟩ := h.skip e
  have hmax : s9.maxSupply = s.maxSupply := congrArg Mark.maxSupply e
  unfold Mark.pass
  obtain ⟨hge, h⟩ | ⟨hlt, rfl⟩ := h.when
  · obtain ⟨-, h⟩ := returns_addUpTo_bind.mp h
    rw [← h.update, if_pos hge, ← hmax]
  · rw [if_neg hlt]
    exact e

/-- Phase 4 of `redeem_batch`: the id that is carried along is the one that is stored. -/
theorem mintItems_mark (hnext : nextId = s.nextTokenId)
    (h : Returns (mintItems creator buyer nextId items) s ids s') :
    s'.mark = ⟨s.maxSupply, ((items.map BatchVoucherItem.voucher).map MintVoucher.tokenId).foldl
      Mark.pass s.nextTokenId⟩ := by
  induction items generalizing nextId ids s with
  | nil =>
    obtain ⟨-, rfl⟩ := h.pure
    rfl
  | cons item items ih =>
    subst hnext
    obtain ⟨s1, hmint, h⟩ := h.seq
    have e1 := mintToken_mark hmint
    obtain ⟨_, s2, e2, h⟩ := h.skip e1
    obtain ⟨ids', s3, hrest, h⟩ := h.bind
    obtain ⟨-, rfl⟩ := h.pure
    have hstored : s2.nextTokenId = Mark.pass s.nextTokenId item.voucher.tokenId :=
      congrArg Mark.nextTokenId e2
    have hmax : s2.maxSupply = s.maxSupply := congrArg Mark.maxSupply e2
    rw [ih hstored.symm hrest, hstored, hmax]
    rfl

end Parts

/-! ### Entry points -/

section Ops

variable {dep : Deployment} {env : Env} {s s' : State} {u : Unit}

theorem redemption_stamps {op : Op} (hop : op.isRedemption = true)
    (h : Returns (op.exec dep env) s u s') : Stamps op.vouchers s.mark s'.mark := by
  have hphases := redemption_phases hop h
  obtain ⟨creator, buyer, paid, ids, -, hminted⟩ := hphases.minted
  have hmark := mintItems_mark (s := { s with lazyBase := paid }) rfl hminted
  rw [vouchers_eq_items]
  refine ⟨fun hproper => ?_, hmark⟩
  rw [List.length_map]
  exact hphases.room hproper

/-- The collection is set up: the ids start at zero, and the cap is one a `u64` can hold. -/
theorem initializeCollection_mark
    (h : Returns (initializeCollection creator pubkey name symbol maxSupply bps receiver feeReceiver
      feeBps passphrase) s u s') :
    s.tokens.register.initialized = false ∧ maxSupply ≤ maxSupplyLimit ∧
      s'.mark = ⟨some maxSupply, 0⟩ ∧ s'.totalSupply = 0 ∧ s'.owner = s.owner := by
  simp only [initializeCollection, onLazy, initializeLazy, onCommon, initializeBase, validateText,
    validateMaxSupply, validateRoyaltyBps, returns_bind, returns_view, returns_abortIf,
    returns_update, returns_zoom] at h
  obtain ⟨init, s1, ⟨rfl, rfl⟩, -, s2, ⟨hfresh, rfl⟩, -, s3, ⟨-, s4, ⟨-, rfl⟩, -, rfl⟩, -, s5,
    ⟨-, s6, ⟨-, rfl⟩, -, rfl⟩, -, s7, ⟨hcap, rfl⟩, -, s8, ⟨-, rfl⟩, -, s9,
    ⟨l, ⟨-, l', ⟨b, rfl, rfl⟩, rfl⟩, rfl⟩, rfl⟩ := h
  refine ⟨eq_false_of_ne_true hfresh, ?_, rfl, rfl, rfl⟩
  omega

/-- An invocation other than these leaves the mark alone. -/
theorem mark_of_op {op : Op} (hop : op.isRedemption = false)
    (hinit : ∀ c k n y m b r f p w, op ≠ .initializeCollection c k n y m b r f p w)
    (h : Returns (op.exec dep env) s u s') : s'.mark = s.mark := by
  cases op with
  | initializeCollection c k n y m b r f p w => exact absurd rfl (hinit c k n y m b r f p w)
  | redeem => cases hop
  | redeemBatch => cases hop
  | _ =>
    unfold Op.exec at h
    exact Preserves.eq h

end Ops

/-! ### The cap -/

/-- The counters are right, ids are spent below the mark, and the supply is within the cap. -/
structure Capped (s : State) : Prop where
  sound : s.tokens.Sound
  proper : s.maxSupply.getD u64Max ≤ u64Max
  below : ∀ i, (s.owner i).isSome → i < s.nextTokenId
  within : s.totalSupply ≤ s.maxSupply.getD u64Max

/-- There are no more tokens than ids below the mark. -/
theorem Capped.totalSupply_le (h : Capped s) : s.totalSupply ≤ s.nextTokenId := by
  have hsubset : owned s.owner ⊆ ↑(Finset.range s.nextTokenId) := by
    intro i hi
    exact Finset.mem_coe.mpr (Finset.mem_range.mpr (h.below i hi))
  have hcard : (s.totalSupply : ℕ∞) ≤ (s.nextTokenId : ℕ∞) := by
    calc (s.totalSupply : ℕ∞) = (owned s.owner).encard := h.sound.counts.supply.symm
      _ ≤ (↑(Finset.range s.nextTokenId) : Set ℕ).encard := Set.encard_le_encard hsubset
      _ = s.nextTokenId := by rw [Set.encard_coe_eq_coe_finsetCard, Finset.card_range]
  exact_mod_cast hcard

/-- The mints of a redemption: one more token for each voucher, and no owner elsewhere. -/
theorem Tokens.totalSupply_foldl_mint (vs : List MintVoucher) (buyer : Address) (t : Tokens) :
    (vs.foldl (mint buyer) t).totalSupply = t.totalSupply + vs.length := by
  induction vs generalizing t with
  | nil => rfl
  | cons v vs ih =>
    rw [List.foldl_cons, ih, List.length_cons, show (t.mint buyer v).totalSupply =
      t.totalSupply + 1 from rfl]
    omega

/-- A redemption keeps the supply within the cap: the tokens before it lie below the mark, and it has
been checked that the mark leaves room for as many ids as there are vouchers. -/
theorem Capped.redeem (h : Capped s) (hsound : s'.tokens.Sound)
    (hredeems : Tokens.Redeems vs s.tokens s'.tokens) (hstamps : Stamps vs s.mark s'.mark) :
    Capped s' := by
  obtain ⟨buyer, htokens⟩ := hredeems.mints
  have hmax : s'.maxSupply = s.maxSupply := congrArg Mark.maxSupply hstamps.mark
  have hnext : s'.nextTokenId = (vs.map MintVoucher.tokenId).foldl Mark.pass s.nextTokenId :=
    congrArg Mark.nextTokenId hstamps.mark
  refine ⟨hsound, hmax ▸ h.proper, fun i hi => ?_, ?_⟩
  · rw [hnext]
    by_cases hnamed : i ∈ vs.map MintVoucher.tokenId
    · exact lt_foldl_pass s.nextTokenId hnamed
    · have howner : s'.owner i = s.owner i := by
        change s'.tokens.owner i = s.tokens.owner i
        rw [htokens]
        refine Tokens.owner_foldl_mint fun v hv e => hnamed ?_
        exact e ▸ List.mem_map_of_mem hv
      exact Nat.lt_of_lt_of_le (h.below i (howner ▸ hi)) (le_foldl_pass _ _)
  · have hsupply : s'.totalSupply = s.totalSupply + vs.length := by
      change s'.tokens.totalSupply = s.tokens.totalSupply + vs.length
      rw [htokens, Tokens.totalSupply_foldl_mint]
    calc s'.totalSupply = s.totalSupply + vs.length := hsupply
      _ ≤ s.nextTokenId + vs.length := Nat.add_le_add_right h.totalSupply_le _
      _ ≤ s.maxSupply.getD u64Max := hstamps.room h.proper
      _ = s'.maxSupply.getD u64Max := by rw [hmax]

/-- Nothing is counted where nothing is owned. -/
theorem Tokens.Sound.totalSupply_eq_zero (h : t.Sound) (hfresh : t.register.initialized = false) :
    t.totalSupply = 0 := by
  have hnone : owned t.owner = ∅ := by
    refine Set.eq_empty_of_forall_notMem fun i hi => ?_
    simp [h.empty hfresh i] at hi
  have hsupply := h.counts.supply
  rw [hnone, Set.encard_empty] at hsupply
  exact_mod_cast hsupply.symm

/-- An invocation that presents no voucher mints nothing. -/
theorem Tokens.Move.frame (hm : t.Move [] t') (h : t.Sound) :
    t'.totalSupply = t.totalSupply ∧ ∀ i, (t'.owner i).isSome = (t.owner i).isSome := by
  cases hm with
  | skip => exact ⟨rfl, fun _ => rfl⟩
  | setUp hfresh => exact ⟨(h.totalSupply_eq_zero hfresh).symm, fun _ => rfl⟩
  | redeem hr =>
    obtain ⟨buyer, rfl⟩ := hr.mints
    exact ⟨rfl, fun _ => rfl⟩
  | revoke nonces => exact ⟨rfl, fun _ => rfl⟩
  | transfer src dst i howner =>
    refine ⟨rfl, fun j => ?_⟩
    change (Function.update t.owner i (some dst) j).isSome = (t.owner j).isSome
    by_cases hj : j = i
    · rw [hj, update_self, howner]
      rfl
    · rw [update_of_ne hj]

/-- **One invocation keeps the cap**, if the counters stay right. -/
theorem Capped.op {op : Op} (h : Capped s) (hsound : s'.tokens.Sound)
    (hreturns : Returns (op.exec dep env) s u s') : Capped s' := by
  by_cases hop : op.isRedemption = true
  · exact h.redeem hsound (redemption_redeems hop hreturns) (redemption_stamps hop hreturns)
  have hop : op.isRedemption = false := eq_false_of_ne_true hop
  by_cases hinit : ∃ c k n y m b r f p w, op = .initializeCollection c k n y m b r f p w
  · obtain ⟨c, k, n, y, m, b, r, f, p, w, rfl⟩ := hinit
    obtain ⟨hfresh, hlimit, hmark, hsupply, howner⟩ := initializeCollection_mark hreturns
    have hmax : s'.maxSupply = some m := congrArg Mark.maxSupply hmark
    refine ⟨hsound, ?_, fun i hi => ?_, ?_⟩
    · rw [hmax]
      exact hlimit.trans (by decide)
    · -- nothing is owned before the collection is set up
      rw [howner, show s.owner i = none from h.sound.empty hfresh i] at hi
      cases hi
    · rw [hsupply]
      exact Nat.zero_le _
  · have hmark := mark_of_op hop
      (fun c k n y m b r f p w e => hinit ⟨c, k, n, y, m, b, r, f, p, w, e⟩) hreturns
    have hmax : s'.maxSupply = s.maxSupply := congrArg Mark.maxSupply hmark
    have hnext : s'.nextTokenId = s.nextTokenId := congrArg Mark.nextTokenId hmark
    have hmove := op_moves hreturns
    rw [show op.vouchers = [] by cases op <;> first | rfl | cases hop] at hmove
    obtain ⟨hsupply, howned⟩ := hmove.frame h.sound
    refine ⟨hsound, hmax ▸ h.proper, fun i hi => ?_, ?_⟩
    · rw [hnext]
      exact h.below i ((howned i).symm.trans hi)
    · rw [hmax, show s'.totalSupply = s.totalSupply from hsupply]
      exact h.within

theorem capped_run (h : Run.Along (step dep) FreshIds (.fresh balances) calls) :
    Capped (run dep (.fresh balances) calls) := by
  refine h.invariant
    ⟨sound_fresh balances, Nat.le_refl _, fun i hi => (by cases hi), Nat.zero_le _⟩ ?_
  intro s call hs hfresh
  have hsound := (step_moves dep s call).sound hs.sound hfresh
  unfold step at hsound ⊢
  split at hsound
  · rename_i u s' hreturns
    exact hs.op hsound hreturns
  · exact hs

/-- **Supply cap.** In a run in which no live voucher names a token that has an owner, the total supply
of every state reached is within the maximum the collection was set up with. -/
theorem supply_within_max (dep : Deployment) (balances : Address × Address → Int)
    (calls : List (Env × Op)) (h : Run.Along (step dep) FreshIds (.fresh balances) calls) (max : Nat)
    (hmax : (run dep (.fresh balances) calls).maxSupply = some max) :
    (run dep (.fresh balances) calls).totalSupply ≤ max := by
  have hwithin := (capped_run h).within
  rw [hmax] at hwithin
  exact hwithin

/-- A collection of two tokens, open to everyone. -/
def pairOnSale : List (Env × Op) :=
  [(.signedBy ⟨1⟩ 100, .initializeCollection ⟨1⟩ [7] "Collection" "SYM" 2 500 ⟨1⟩ ⟨9⟩ 0 "net"),
    (.signedBy ⟨1⟩ 100, .setPublicPhase)]

/-- One batch takes both tokens of the collection; the ids of its vouchers are beyond the maximum, and
in no order. -/
def bothAtOnce : List (Env × Op) :=
  pairOnSale ++ [(.signedBy ⟨20⟩ 100,
    .redeemBatch ⟨20⟩ [signed (freeVoucher 5 40), signed (freeVoucher 6 3)])]

theorem supply_within_max_bothAtOnce :
    let s := run collection (.fresh fun _ => 0) bothAtOnce
    s.totalSupply = 2 ∧ s.maxSupply = some 2 ∧ s.totalSupply ≤ 2 := by
  refine ⟨by decide +kernel, by decide +kernel, ?_⟩
  refine supply_within_max collection _ bothAtOnce ?_ 2 (by decide +kernel)
  simp only [bothAtOnce, pairOnSale, List.cons_append, List.nil_append, Run.along_cons,
    Run.along_nil, FreshIds, Op.vouchers, List.not_mem_nil, false_imp_iff, implies_true, true_and,
    and_true]
  exact fun _ => by decide +kernel

/-- Three vouchers for one token, redeemed one after the other: the ids stay below the cap, and one
token makes a supply of three where two are allowed. -/
theorem same_id_exceeds_max :
    ¬ ∀ (dep : Deployment) (balances : Address × Address → Int) (calls : List (Env × Op))
        (max : Nat), (run dep (.fresh balances) calls).maxSupply = some max →
      (run dep (.fresh balances) calls).totalSupply ≤ max := by
  intro hclaim
  have hwithin := hclaim collection (fun _ => 0) (pairOnSale ++ [redeemBy ⟨20⟩ (freeVoucher 5 0),
    redeemBy ⟨21⟩ (freeVoucher 6 0), redeemBy ⟨22⟩ (freeVoucher 7 0)]) 2 (by decide +kernel)
  exact absurd hwithin (by decide +kernel)

end ElcareHub.LazyMint721
