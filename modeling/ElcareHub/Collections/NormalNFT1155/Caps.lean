import ElcareHub.Collections.NormalNFT1155.Stocks

/-!
# The supply caps and the wallet limit of NormalNFT1155

`mint` and `mint_batch` ask `_check_supply_cap` and `_check_wallet_limit` before they mint; a batch asks
for the total of every token in it, so that items of one token cannot pass one by one. The totals and
the checks saturate. That is harmless: the counters are written with additions that trap, so a mint that
returns has not saturated anywhere (`Issued.supply_le`, `Issued.minted_le`).

`mint_new` asks `_check_wallet_limit` only, and a cap can be configured for an id before it is
minted. What it leaves is within the cap exactly when the amount it is asked for is
(`mint_within_caps_iff`).
-/

namespace ElcareHub.NormalNFT1155

open Collection Call Function

/-- Whom an invocation mints to, and which tokens, when the next id is `next`. -/
def Op.minted (next : Nat) : Op → Option (Address × List Nat)
  | .mintNew a _ _ => some (a, [next])
  | .mint a i _ _ => some (a, [i])
  | .mintBatch a is _ _ => some (a, is)
  | _ => none

namespace Stocks

/-- No maximum is configured as zero, which stands for none. -/
def ProperCaps (t : Stocks) : Prop := ∀ i max, t.maxTokenSupply i = some max → 0 < max

/-- The supply of token `i` is within its configured maximum, if it has one. -/
def WithinCap (t : Stocks) (i : Nat) : Prop :=
  ∀ max, t.maxTokenSupply i = some max → t.totalSupply i ≤ max

/-- What `w` has had minted of token `i` is within the limit, if there is one. -/
def WithinLimit (t : Stocks) (w : Address) (i : Nat) : Prop :=
  0 < t.perWalletLimit → t.walletMinted (w, i) ≤ t.perWalletLimit

/-! ### What is counted for the items of a mint -/

section Issued

variable {a : Address} {items : List (Nat × Nat)} {t t' : Stocks} {i : Nat}

theorem issue_totalSupply (t : Stocks) (a : Address) (k n i : Nat) :
    (t.issue a k n).totalSupply i = t.totalSupply i + if k = i then n else 0 := by
  by_cases hi : k = i
  · subst hi
    simp [issue, addMinted, addSupply, addBalance, setSupply, setBalance]
  · simp [issue, addMinted, addSupply, addBalance, setSupply, setBalance, hi, Ne.symm hi]

theorem issue_walletMinted (t : Stocks) (a : Address) (k n : Nat) (w : Address) (i : Nat) :
    (t.issue a k n).walletMinted (w, i) =
      t.walletMinted (w, i) + if w = a ∧ k = i then n else 0 := by
  by_cases hw : (w, i) = (a, k)
  · obtain ⟨rfl, rfl⟩ := Prod.mk.inj hw
    simp [issue, addMinted, addSupply, addBalance, setSupply, setBalance]
  · have hno : ¬ (w = a ∧ k = i) := by
      rintro ⟨rfl, rfl⟩
      exact hw rfl
    rw [if_neg hno]
    exact update_of_ne hw _ _

theorem Issued.totalSupply (h : Issued a items t t') (i : Nat) :
    t'.totalSupply i = t.totalSupply i + asked items i := by
  induction items generalizing t with
  | nil => rw [← show t = t' from h, asked_nil, Nat.add_zero]
  | cons item items ih => rw [ih h.2.2, issue_totalSupply, asked_cons, Nat.add_assoc]

theorem Issued.walletMinted (h : Issued a items t t') (w : Address) (i : Nat) :
    t'.walletMinted (w, i) = t.walletMinted (w, i) + if w = a then asked items i else 0 := by
  induction items generalizing t with
  | nil => simp [← show t = t' from h]
  | cons item items ih =>
    rw [ih h.2.2, issue_walletMinted, asked_cons]
    by_cases hw : w = a <;> simp [hw, Nat.add_assoc]

/-- The caps are no part of what a mint writes. -/
theorem Issued.caps (h : Issued a items t t') :
    t'.maxTokenSupply = t.maxTokenSupply ∧ t'.perWalletLimit = t.perWalletLimit := by
  induction items generalizing t with
  | nil =>
    rw [← show t = t' from h]
    exact ⟨rfl, rfl⟩
  | cons item items ih =>
    obtain ⟨hcap, hlimit⟩ := ih h.2.2
    exact ⟨hcap, hlimit⟩

theorem Issued.supply_le (h : Issued a items t t') (hi : i ∈ items.map Prod.fst) :
    t'.totalSupply i ≤ u128Max := by
  induction items generalizing t with
  | nil => cases hi
  | cons item items ih =>
    by_cases hlater : i ∈ items.map Prod.fst
    · exact ih h.2.2 hlater
    · -- the last item of this token has been added without overflow
      obtain rfl : i = item.1 := by simpa [hlater] using hi
      have hlast := h.2.2.totalSupply item.1
      rw [asked_eq_zero hlater, issue_totalSupply, if_pos rfl] at hlast
      exact hlast ▸ h.1

theorem Issued.minted_le (h : Issued a items t t') (hpositive : ∀ item ∈ items, 0 < item.2)
    (hi : i ∈ items.map Prod.fst) : t'.walletMinted (a, i) ≤ u128Max := by
  induction items generalizing t with
  | nil => cases hi
  | cons item items ih =>
    obtain ⟨hitem, hitems⟩ := List.forall_mem_cons.mp hpositive
    by_cases hlater : i ∈ items.map Prod.fst
    · exact ih h.2.2 hitems hlater
    · obtain rfl : i = item.1 := by simpa [hlater] using hi
      have hlast := h.2.2.walletMinted a item.1
      rw [asked_eq_zero hlater, issue_walletMinted, if_pos ⟨rfl, rfl⟩, if_pos rfl] at hlast
      exact hlast ▸ h.2.1 hitem

/-- A saturating check of the whole of an addition that has not overflowed. -/
theorem le_of_saturatingAdd_le {max : Nat} (hcheck : saturatingAddU128 x n ≤ max)
    (hsum : y = x + n) (hfits : y ≤ u128Max) : y ≤ max := by
  unfold saturatingAddU128 at hcheck
  omega

/-- What has been checked for every token of a mint holds after it. -/
theorem Issued.withinCap (h : Issued a items t t') (hcaps : t.ProperCaps) (hi : i ∈ items.map Prod.fst)
    (hroom : t.Room i (asked items i)) : t'.WithinCap i := by
  intro max hmax
  rw [h.caps.1] at hmax
  exact le_of_saturatingAdd_le (hroom max hmax (hcaps i max hmax)) (h.totalSupply i) (h.supply_le hi)

theorem Issued.withinLimit (h : Issued a items t t') (hpositive : ∀ item ∈ items, 0 < item.2)
    (hi : i ∈ items.map Prod.fst) (hallows : t.Allows a i (asked items i)) : t'.WithinLimit a i := by
  intro hlimit
  rw [h.caps.2] at hlimit ⊢
  refine le_of_saturatingAdd_le (hallows hlimit) ?_ (h.minted_le hpositive hi)
  rw [h.walletMinted, if_pos rfl]

end Issued

/-! ### Moves -/

variable {a : Address} {ids : List Nat} {t t' : Stocks} {op : Op}

theorem Move.properCaps (h : t.Move op t') (ht : t.ProperCaps) : t'.ProperCaps := by
  cases h with
  | setCap i max =>
    intro j max' hmax
    dsimp only at hmax
    by_cases hj : j = i
    · subst hj
      rw [update_self] at hmax
      split at hmax
      · cases hmax
      · rename_i hne
        exact Option.some.inj hmax ▸ Nat.pos_of_ne_zero hne
    · rw [update_of_ne hj] at hmax
      exact ht j max' hmax
  | mintNew _ _ hissued =>
    intro i max hmax
    exact ht i max (hissued.caps.1 ▸ hmax)
  | mint _ _ _ _ hissued =>
    intro i max hmax
    exact ht i max (hissued.caps.1 ▸ hmax)
  | mintBatch _ _ _ _ _ hissued =>
    intro i max hmax
    exact ht i max (hissued.caps.1 ▸ hmax)
  | transfer _ hshifted =>
    intro i max hmax
    rw [hshifted.eq] at hmax
    exact ht i max hmax
  | _ => exact ht

theorem minted_of_idle (hop : op.idle = true) : op.minted next = none := by
  cases op <;> first | rfl | cases hop

theorem minted_of_transfers (hop : op.transfers.isSome) : op.minted next = none := by
  cases op <;> first | rfl | cases hop

/-- A mint issues its items, and then at most moves the counter of ids. -/
theorem Move.issues (h : t.Move op t') (hop : op.minted t.nextTokenId = some (a, ids)) :
    ∃ items t1 next, Issued a items t t1 ∧ items.map Prod.fst = ids ∧ t' = t1.setNext next := by
  cases h with
  | mintNew _ _ hissued =>
    obtain ⟨rfl, rfl⟩ := Prod.mk.inj (Option.some.inj hop)
    exact ⟨_, _, _, hissued, rfl, rfl⟩
  | mint _ _ _ _ hissued =>
    obtain ⟨rfl, rfl⟩ := Prod.mk.inj (Option.some.inj hop)
    exact ⟨_, _, _, hissued, rfl, rfl⟩
  | mintBatch _ hlength _ _ _ hissued =>
    obtain ⟨rfl, rfl⟩ := Prod.mk.inj (Option.some.inj hop)
    exact ⟨_, _, _, hissued, List.map_fst_zip (by omega), rfl⟩
  | idle hidle => rw [minted_of_idle hidle] at hop; cases hop
  | transfer htransfers => rw [minted_of_transfers (by simp [htransfers])] at hop; cases hop
  | _ => cases hop

/-- A mint counts units for nobody else and of no other token. -/
theorem Move.elsewhere (h : t.Move op t') (hop : op.minted t.nextTokenId = some (a, ids)) :
    (∀ i, i ∉ ids → t'.totalSupply i = t.totalSupply i) ∧
      ∀ w i, ¬ (w = a ∧ i ∈ ids) → t'.walletMinted (w, i) = t.walletMinted (w, i) := by
  obtain ⟨items, t1, next, hissued, rfl, rfl⟩ := h.issues hop
  refine ⟨fun i hi => ?_, fun w i hwi => ?_⟩
  · exact (hissued.totalSupply i).trans (by rw [asked_eq_zero hi, Nat.add_zero])
  · refine (hissued.walletMinted w i).trans ?_
    by_cases hw : w = a
    · rw [if_pos hw, asked_eq_zero fun hi => hwi ⟨hw, hi⟩, Nat.add_zero]
    · rw [if_neg hw, Nat.add_zero]

end Stocks

/-- What the checks of an invocation leave out: `mint_new` stays within the cap configured for the id
it mints, and if it mints no units at all, the wallet is within the limit already. -/
def Op.StaysWithin (t : Stocks) : Op → Prop
  | .mintNew a n _ =>
    (∀ max, t.maxTokenSupply t.nextTokenId = some max → t.totalSupply t.nextTokenId + n ≤ max) ∧
      (n = 0 → t.WithinLimit a t.nextTokenId)
  | _ => True

/-- `mint_new` mints one item, of the next id. -/
theorem Stocks.within_mintNew_iff
    (hallows : 0 < n → t.Allows a t.nextTokenId n) (hissued : Issued a [(t.nextTokenId, n)] t t1) :
    (t1.WithinCap t.nextTokenId ∧ t1.WithinLimit a t.nextTokenId) ↔
      (∀ max, t.maxTokenSupply t.nextTokenId = some max →
        t.totalSupply t.nextTokenId + n ≤ max) ∧ (n = 0 → t.WithinLimit a t.nextTokenId) := by
  have hasked : asked [(t.nextTokenId, n)] t.nextTokenId = n := by simp [asked_cons]
  have hsupply : t1.totalSupply t.nextTokenId = t.totalSupply t.nextTokenId + n := by
    rw [hissued.totalSupply, hasked]
  have hminted : t1.walletMinted (a, t.nextTokenId) = t.walletMinted (a, t.nextTokenId) + n := by
    rw [hissued.walletMinted, if_pos rfl, hasked]
  refine and_congr ?_ ?_
  · unfold WithinCap
    rw [hissued.caps.1, hsupply]
  · by_cases hn : n = 0
    · -- nothing is counted, and nothing has been checked
      subst hn
      unfold WithinLimit
      rw [hissued.caps.2, hminted]
      exact ⟨fun h _ => h, fun h => h rfl⟩
    · have hpos : 0 < n := Nat.pos_of_ne_zero hn
      refine iff_of_true ?_ fun hzero => absurd hzero hn
      refine hissued.withinLimit (by simpa using hpos) (by simp) ?_
      rw [hasked]
      exact hallows hpos

/-- A mint leaves the caps and the limit respected exactly if it stays within what it does not
check. -/
theorem Stocks.Move.within_iff {op : Op}
    (h : t.Move op t') (hcaps : t.ProperCaps) (hop : op.minted t.nextTokenId = some (a, ids)) :
    (∀ i ∈ ids, t'.WithinCap i ∧ t'.WithinLimit a i) ↔ op.StaysWithin t := by
  cases h with
  | mintNew _ hallows hissued =>
    obtain ⟨rfl, rfl⟩ := Prod.mk.inj (Option.some.inj hop)
    rw [List.forall_mem_singleton]
    -- the counter of ids is no part of either property
    have hiff := within_mintNew_iff hallows hissued
    exact hiff
  | @mint _ i n _ _ _ hpositive hroom hallows hissued =>
    obtain ⟨rfl, rfl⟩ := Prod.mk.inj (Option.some.inj hop)
    have hasked : asked [(i, n)] i = n := by simp [asked_cons]
    refine iff_of_true (List.forall_mem_singleton.mpr ⟨?_, ?_⟩) trivial
    · exact hissued.withinCap hcaps (by simp) (hasked.symm ▸ hroom)
    · exact hissued.withinLimit (by simpa using hpositive) (by simp) (hasked.symm ▸ hallows)
  | @mintBatch _ is ns _ _ _ hlength hpositive hroom hallows hissued =>
    obtain ⟨rfl, rfl⟩ := Prod.mk.inj (Option.some.inj hop)
    have hfst : (is.zip ns).map Prod.fst = is := List.map_fst_zip (by omega)
    refine iff_of_true (fun i hi => ⟨?_, ?_⟩) trivial
    · exact hissued.withinCap hcaps (hfst.symm ▸ hi) (hroom i hi)
    · exact hissued.withinLimit hpositive (hfst.symm ▸ hi) (hallows i hi)
  | idle hidle => rw [minted_of_idle hidle] at hop; cases hop
  | transfer htransfers => rw [minted_of_transfers (by simp [htransfers])] at hop; cases hop
  | _ => cases hop

theorem properCaps_run (calls : List (Env × Op)) : (run .fresh calls).stocks.ProperCaps := by
  refine Run.invariant (I := fun s : State => s.stocks.ProperCaps) (fun _ _ h => by cases h) ?_
  rintro s ⟨env, op⟩ hs
  obtain ⟨u, -, hmove⟩ | hsame := step_moves s env op
  · exact hmove.properCaps hs
  · rwa [hsame]

/-- **Supply caps and the wallet limit.** A mint that returns, in any state a run reaches, changes no
count but those of the tokens and the wallet it mints to; those are within the caps and the limit
configured at that moment exactly if the invocation is not a `mint_new` that exceeds the cap of the id it
mints, or mints nothing to a wallet that is beyond the limit already. -/
theorem mint_within_caps_iff (calls : List (Env × Op)) {env : Env} {op : Op} {u : Unit} {s' : State}
    {a : Address} {ids : List Nat} (hop : op.minted (run .fresh calls).nextTokenId = some (a, ids))
    (h : Returns (op.exec env) (run .fresh calls) u s') :
    ((∀ i, i ∉ ids → s'.totalSupply i = (run .fresh calls).totalSupply i) ∧
      ∀ w i, ¬ (w = a ∧ i ∈ ids) → s'.walletMinted (w, i) = (run .fresh calls).walletMinted (w, i)) ∧
    ((∀ i ∈ ids, s'.stocks.WithinCap i ∧ s'.stocks.WithinLimit a i) ↔
      op.StaysWithin (run .fresh calls).stocks) :=
  ⟨(op_moves h).elsewhere hop, (op_moves h).within_iff (properCaps_run calls) hop⟩

/-- A collection whose first token may have five units, and a wallet ten of each. -/
def capped : List (Env × Op) :=
  [(.signedBy ⟨1⟩ 100, .initializeCollection ⟨1⟩ "Collection" 500 ⟨1⟩),
    (.signedBy ⟨1⟩ 100, .setTokenMaxSupply 0 5), (.signedBy ⟨1⟩ 100, .setPerWalletLimit 10)]

theorem mint_within_caps_iff_capped :
    ∃ s', Returns ((Op.mintBatch ⟨2⟩ [0, 0] [2, 3] ["ipfs", "ipfs"]).exec (.signedBy ⟨1⟩ 100))
        (run .fresh capped) () s' ∧ s'.totalSupply 0 = 5 ∧
      ∀ i ∈ [0, 0], s'.stocks.WithinCap i ∧ s'.stocks.WithinLimit ⟨2⟩ i := by
  obtain ⟨⟨⟩, s', h, hsupply⟩ := exists_returns
    (c := (Op.mintBatch ⟨2⟩ [0, 0] [2, 3] ["ipfs", "ipfs"]).exec (.signedBy ⟨1⟩ 100))
    (s := run .fresh capped) (p := fun _ s' => s'.totalSupply 0 == 5) (by decide +kernel)
  exact ⟨s', h, by simpa using hsupply, (mint_within_caps_iff capped rfl h).2.mpr trivial⟩

/-- `mint_new` mints ten units of a token that may have five. -/
theorem mintNew_exceeds_cap :
    ¬ ∀ (calls : List (Env × Op)) (env : Env) (op : Op) (u : Unit) (s' : State) (a : Address)
        (ids : List Nat), op.minted (run .fresh calls).nextTokenId = some (a, ids) →
      Returns (op.exec env) (run .fresh calls) u s' →
      ∀ i ∈ ids, s'.stocks.WithinCap i ∧ s'.stocks.WithinLimit a i := by
  intro hclaim
  obtain ⟨⟨⟩, s', h, hover⟩ := exists_returns
    (c := (Op.mintNew ⟨2⟩ 10 "ipfs").exec (.signedBy ⟨1⟩ 100)) (s := run .fresh capped)
    (p := fun _ s' => s'.totalSupply 0 == 10 && s'.maxTokenSupply 0 == some 5) (by decide +kernel)
  simp only [Bool.and_eq_true, beq_iff_eq] at hover
  have hcap := (hclaim capped _ _ _ s' ⟨2⟩ [0] rfl h 0 (by simp)).1 5 hover.2
  change s'.totalSupply 0 ≤ 5 at hcap
  omega

end ElcareHub.NormalNFT1155
