import ElcareHub.Collections.NormalNFT1155.Caps
import ElcareHub.Collections.Circulation

/-!
# The ids that `mint_new` hands out

`mint_new` numbers its tokens by `NextTokenId`, and `mint_batch` moves the counter past the ids it is
given. `mint`, which also takes an id of the creator's choice, leaves the counter where it is: an id at or
beyond the counter that `mint` has been given is handed out again when the counter gets there.

What the ids of a run are is a matter of its past, so they are read off its transcript: `issuedIds` of all
mints, `chosenIds` of `mint` alone. Every id of the first list is on the second or below the counter
(`Numbering.below`); hence an id that `mint_new` hands out has been minted before only if `mint` was given
it.
-/

namespace ElcareHub.NormalNFT1155

open Collection Call Function

/-- The ids an invocation mints. -/
def issuedIds (s : State) (call : Env × Op) : List Nat :=
  match call.2.exec call.1 s with
  | .ok _ => (call.2.minted s.nextTokenId).elim [] Prod.snd
  | .error _ => []

/-- The id that `mint` is given. -/
def Op.chosen : Op → List Nat
  | .mint _ i _ _ => [i]
  | _ => []

/-- The ids an invocation of `mint` mints. -/
def chosenIds (s : State) (call : Env × Op) : List Nat :=
  match call.2.exec call.1 s with
  | .ok _ => call.2.chosen
  | .error _ => []

/-- What a collection with these stocks knows of the ids its run has minted. -/
structure Numbering (issued chosen : List Nat) (t : Stocks) : Prop where
  setUp : t.governed = true → t.initialized = true
  unminted : t.governed = false → issued = []
  subset : chosen ⊆ issued
  below : ∀ i ∈ issued, i ∈ chosen ∨ i < t.nextTokenId
  unissued : ∀ i, i ∉ issued → t.totalSupply i = 0

namespace Numbering

theorem fresh : Numbering [] [] State.fresh.stocks where
  setUp h := by cases h
  unminted _ := rfl
  subset := List.Subset.refl []
  below _ h := by cases h
  unissued _ _ := rfl

variable {issued chosen : List Nat} {t t' : Stocks} {op : Op}

/-- The counter passes every id of a batch. -/
theorem lt_numbered (next : Nat) (hi : i ∈ ids) : i < Stocks.numbered next ids := by
  induction ids generalizing next with
  | nil => cases hi
  | cons j ids ih =>
    rcases List.mem_cons.mp hi with rfl | hi
    · refine Nat.lt_of_lt_of_le ?_ (numbered_ge _ ids)
      dsimp only
      split <;> omega
    · exact ih _ hi

/-- A mint that moves the counter to `next` puts its ids on record. -/
theorem mint (h : Numbering issued chosen t) (hgoverned : t.governed = true)
    (hissued : Stocks.Issued a items t t1) (hnext : t.nextTokenId ≤ next)
    (hsubset : extra ⊆ items.map Prod.fst) (hextra : ∀ i ∈ items.map Prod.fst, i ∈ extra ∨ i < next) :
    Numbering (issued ++ items.map Prod.fst) (chosen ++ extra) (t1.setNext next) where
  setUp _ := hissued.standing.2.trans (h.setUp hgoverned)
  unminted hfree := by
    rw [show (t1.setNext next).governed = t.governed from hissued.standing.1, hgoverned] at hfree
    cases hfree
  subset := List.append_subset.mpr
    ⟨List.subset_append_of_subset_left _ h.subset, List.subset_append_of_subset_right _ hsubset⟩
  below i hi := by
    rcases List.mem_append.mp hi with hi | hi
    · exact (h.below i hi).imp (List.mem_append_left _) fun hlt => Nat.lt_of_lt_of_le hlt hnext
    · exact (hextra i hi).imp (List.mem_append_right _) id
  unissued i hi := by
    rw [List.mem_append, not_or] at hi
    rw [show (t1.setNext next).totalSupply i = t1.totalSupply i from rfl, hissued.totalSupply,
      Stocks.asked_eq_zero hi.2, h.unissued i hi.1]

/-- A move that mints nothing, supplies nothing and leaves the counter alone. -/
theorem congr (h : Numbering issued chosen t) (hminted : op.minted t.nextTokenId = none)
    (hchosen : op.chosen = []) (hgoverned : t'.governed = t.governed)
    (hinitialized : t'.initialized = t.initialized) (hnext : t'.nextTokenId = t.nextTokenId)
    (hsupply : ∀ i, t'.totalSupply i ≤ t.totalSupply i) :
    Numbering (issued ++ (op.minted t.nextTokenId).elim [] Prod.snd) (chosen ++ op.chosen) t' := by
  rw [hminted, hchosen, Option.elim_none, List.append_nil, List.append_nil]
  exact {
    setUp := by
      rw [hgoverned, hinitialized]
      exact h.setUp
    unminted := by
      rw [hgoverned]
      exact h.unminted
    subset := h.subset
    below := by
      rw [hnext]
      exact h.below
    unissued := fun i hi => Nat.le_zero.mp (h.unissued i hi ▸ hsupply i) }

theorem chosen_of_minted (hop : op.minted next = none) : op.chosen = [] := by
  cases op <;> first | rfl | cases hop

/-- **Every move keeps the numbering.** -/
theorem move (h : Numbering issued chosen t) (hmove : t.Move op t') :
    Numbering (issued ++ (op.minted t.nextTokenId).elim [] Prod.snd) (chosen ++ op.chosen) t' := by
  cases hmove with
  | idle hop =>
    have hminted : op.minted t.nextTokenId = none := Stocks.minted_of_idle hop
    exact h.congr hminted (chosen_of_minted hminted) rfl rfl rfl fun _ => Nat.le_refl _
  | setUp hfresh =>
    -- no creator is in office yet, so nothing has been minted
    have hfree : t.governed = false := by
      by_contra hgoverned
      rw [h.setUp (by simpa using hgoverned)] at hfresh
      cases hfresh
    have hnone := h.unminted hfree
    have hchosen : chosen = [] := List.subset_nil.mp (hnone ▸ h.subset)
    subst hnone hchosen
    exact
      { setUp := fun _ => rfl
        unminted := fun _ => rfl
        subset := h.subset
        below := fun i hi => by cases hi
        unissued := fun i _ => h.unissued i (by simp) }
  | setCap i max => exact h.congr rfl rfl rfl rfl rfl fun _ => Nat.le_refl _
  | setLimit limit => exact h.congr rfl rfl rfl rfl rfl fun _ => Nat.le_refl _
  | mintNew hgoverned _ hissued =>
    refine h.mint hgoverned hissued (Nat.le_succ _) (List.nil_subset _) ?_
    intro i hi
    rw [List.mem_singleton.mp hi]
    exact .inr (Nat.lt_succ_self _)
  | mint hgoverned _ _ _ hissued =>
    have hkept := h.mint hgoverned hissued (Nat.le_refl t.nextTokenId) (List.Subset.refl _)
      fun i hi => .inl hi
    rwa [← hissued.next] at hkept
  | @mintBatch a is ns uris t1 hgoverned hlength _ _ _ hissued =>
    have hfst : (is.zip ns).map Prod.fst = is := List.map_fst_zip (by omega)
    have hkept := h.mint hgoverned hissued (numbered_ge t.nextTokenId is)
      (List.nil_subset _) fun i hi => .inr (lt_numbered _ (hfst ▸ hi))
    rwa [hfst] at hkept
  | transfer hop hshifted =>
    have hsome : op.transfers.isSome := by simp [hop]
    have hminted : op.minted t.nextTokenId = none := Stocks.minted_of_transfers hsome
    rw [hshifted.eq]
    exact h.congr hminted (chosen_of_minted hminted) rfl rfl rfl fun _ => Nat.le_refl _
  | @burn spender src i n henough =>
    refine h.congr rfl rfl rfl rfl rfl fun j => ?_
    change Function.update t.totalSupply i (t.totalSupply i - n) j ≤ t.totalSupply j
    by_cases hj : j = i
    · rw [hj, update_self]
      exact Nat.sub_le _ _
    · rw [update_of_ne hj]

end Numbering

theorem numbering_step (h : Numbering issued chosen s.stocks) (call : Env × Op) :
    Numbering (issued ++ issuedIds s call) (chosen ++ chosenIds s call) (step s call).stocks := by
  unfold issuedIds chosenIds step
  cases hexec : call.2.exec call.1 s with
  | ok result => exact h.move (op_moves hexec)
  | error e =>
    rw [List.append_nil, List.append_nil]
    exact h

theorem numbering_run (calls : List (Env × Op)) :
    Numbering (Run.transcript step issuedIds .fresh calls)
      (Run.transcript step chosenIds .fresh calls) (run .fresh calls).stocks := by
  induction calls using List.reverseRecOn with
  | nil => exact .fresh
  | append_singleton calls call ih =>
    rw [Run.transcript_snoc, Run.transcript_snoc,
      show run .fresh (calls ++ [call]) = step (run .fresh calls) call from Run.exec_append]
    exact numbering_step ih call

/-- **Fresh ids.** The id that `mint_new` returns, after any run, has never been minted before, so that
there is no unit of it and nobody has ever held one, exactly if `mint` has never been given it. -/
theorem mintNew_fresh_iff (calls : List (Env × Op)) {env : Env} {a : Address} {n i : Nat}
    {uri : String} {s' : State} (h : Returns (mintNew env a n uri) (run .fresh calls) i s') :
    (i ∉ Run.transcript step issuedIds .fresh calls ∧ (run .fresh calls).totalSupply i = 0 ∧
      ∀ before after, calls = before ++ after → ∀ w, (run .fresh before).balance (w, i) = 0) ↔
    i ∉ Run.transcript step chosenIds .fresh calls := by
  obtain ⟨rfl, -⟩ := mintNew_move h
  constructor
  · rintro ⟨hissued, -, -⟩ hchosen
    exact hissued ((numbering_run calls).subset hchosen)
  · intro hchosen
    have hnew : (run .fresh calls).nextTokenId ∉ Run.transcript step issuedIds .fresh calls :=
      fun hissued => ((numbering_run calls).below _ hissued).elim hchosen (Nat.lt_irrefl _)
    refine ⟨hnew, (numbering_run calls).unissued _ hnew, ?_⟩
    rintro before after rfl w
    -- a part of the run has minted no more than the whole
    rw [Run.transcript_append, List.mem_append, not_or] at hnew
    have hsupply := (numbering_run before).unissued _ hnew.1
    have hle := ((book_run before).circulates (run .fresh (before ++ after)).nextTokenId).balance_le w
    exact Nat.le_zero.mp (hle.trans (Nat.le_of_eq hsupply))

/-- A batch that mints token 4, and a mint of token 2. -/
def numberedPast : List (Env × Op) :=
  [(.signedBy ⟨1⟩ 100, .initializeCollection ⟨1⟩ "Collection" 500 ⟨1⟩),
    (.signedBy ⟨1⟩ 100, .mintBatch ⟨2⟩ [4] [3] ["ipfs"]), (.signedBy ⟨1⟩ 100, .mint ⟨2⟩ 2 3 "ipfs")]

theorem mintNew_fresh_iff_numberedPast :
    ∃ s', Returns (mintNew (.signedBy ⟨1⟩ 100) ⟨3⟩ 1 "ipfs") (run .fresh numberedPast) 5 s' ∧
      5 ∉ Run.transcript step issuedIds .fresh numberedPast ∧
      (run .fresh numberedPast).totalSupply 5 = 0 := by
  obtain ⟨i, s', h, hid⟩ := exists_returns (c := mintNew (.signedBy ⟨1⟩ 100) ⟨3⟩ 1 "ipfs")
    (s := run .fresh numberedPast) (p := fun i _ => i == 5) (by decide +kernel)
  obtain rfl : i = 5 := by simpa using hid
  obtain ⟨hnew, hnone, -⟩ := (mintNew_fresh_iff numberedPast h).mpr (by decide +kernel)
  exact ⟨s', h, hnew, hnone⟩

/-- The creator mints token 0 of its own choice; the counter is at 0 still. -/
def choseFirst : List (Env × Op) :=
  [(.signedBy ⟨1⟩ 100, .initializeCollection ⟨1⟩ "Collection" 500 ⟨1⟩),
    (.signedBy ⟨1⟩ 100, .mint ⟨2⟩ 0 7 "ipfs")]

theorem mintNew_reissues :
    ¬ ∀ (calls : List (Env × Op)) (env : Env) (a : Address) (n i : Nat) (uri : String) (s' : State),
      Returns (mintNew env a n uri) (run .fresh calls) i s' →
      i ∉ Run.transcript step issuedIds .fresh calls ∧ (run .fresh calls).totalSupply i = 0 ∧
        ∀ before after, calls = before ++ after → ∀ w, (run .fresh before).balance (w, i) = 0 := by
  intro hclaim
  obtain ⟨i, s', h, hid⟩ := exists_returns (c := mintNew (.signedBy ⟨1⟩ 100) ⟨3⟩ 1 "ipfs")
    (s := run .fresh choseFirst) (p := fun i _ => i == 0) (by decide +kernel)
  obtain rfl : i = 0 := by simpa using hid
  have hsupply := (hclaim choseFirst _ _ _ _ _ _ h).2.1
  exact absurd hsupply (by decide +kernel)

end ElcareHub.NormalNFT1155
