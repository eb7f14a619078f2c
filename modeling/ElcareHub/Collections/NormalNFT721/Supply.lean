import ElcareHub.Collections.NormalNFT721.Holding
import ElcareHub.Lib.Holdings

/-!
# The ledger of NormalNFT721

The contract keeps two counters beside the ownership map, the balance of each account and the total
supply, and subtracts from them with saturation. Every move keeps them right (`Tokens.Move.sound`): a mint
gives away ids that nobody owns, a transfer takes a token from its owner and gives it to the receiver,
who may be the owner, and a burn takes one back. Where a counter is right it counts at least the token
that is moved, so no subtraction saturates.

Ids are handed out by `NextTokenId`, which never goes back, so that an id without an owner below it has
none for good (`Tokens.Move.spent`), and never above the maximum supply (`op_capped`).
-/

namespace ElcareHub.NormalNFT721

open Collection Call Holdings Function

set_option synthInstance.maxSize 100000000

variable {s s' : State}
variable {α : Type} {op : Op}

/-! ### Counters -/

namespace Tokens

/-- The counters agree with the ownership map. -/
abbrev Counts (t : Tokens) : Prop := Counted t.owner t.balanceOf t.totalSupply

variable {env : Env} {t t' : Tokens} {i : Nat}

/-- The owners after `n + 1` tokens are given away: after `n`, and then one more. -/
theorem owner_give_succ (t : Tokens) (first n : Nat) (recipient : Address) :
    (t.give first (n + 1) recipient).owner =
      Function.update (t.give first n recipient).owner (first + n) (some recipient) := by
  funext i
  simp only [give, update_apply]
  split_ifs <;> first | rfl | omega

/-- The next `n` tokens are minted one by one. -/
theorem Counts.mint (h : t.Counts) (hfree : ∀ i, t.nextTokenId ≤ i → t.owner i = none)
    (recipient : Address) (n : Nat) : (t.mint recipient n).Counts := by
  change Counted (t.give t.nextTokenId n recipient).owner
    (Function.update t.balanceOf recipient (t.balanceOf recipient + n)) (t.totalSupply + n)
  induction n with
  | zero =>
    rw [give_zero, Nat.add_zero, update_eq_self]
    exact h
  | succ n ih =>
    have hnext : (t.give t.nextTokenId n recipient).owner (t.nextTokenId + n) = none :=
      (if_neg (by omega)).trans (hfree _ (by omega))
    have hgiven := ih.give hnext recipient
    rwa [update_self, update_idem, ← owner_give_succ] at hgiven

/-! ### Moves -/

/-- The counters are right, and tokens are numbered by a counter that starts at zero. -/
structure Sound (t : Tokens) : Prop extends t.WellFormed where
  counts : t.Counts
  unminted : t.creator = none → t.nextTokenId = 0

theorem Sound.fresh : State.fresh.tokens.Sound where
  toWellFormed := .fresh
  counts := .none
  unminted _ := rfl

/-- Tokens that have not been numbered yet have no owner. -/
theorem Sound.free (h : t.Sound) (i : Nat) (hi : t.nextTokenId ≤ i) : t.owner i = none := by
  cases howner : t.owner i with
  | none => rfl
  | some a =>
    have := h.below howner
    omega

/-- **A move keeps the counters right.** -/
theorem Move.sound (hm : t.Move env t') (h : t.Sound) : t'.Sound := by
  refine ⟨hm.wellFormed h.toWellFormed, ?_, ?_⟩
  · cases hm with
    | setUp creator hfresh =>
      -- nothing has been counted yet, so that resetting the supply changes nothing
      have hnone := h.unowned (h.uncreated hfresh)
      refine ⟨h.counts.balance, ?_⟩
      rw [Set.encard_eq_zero.mpr (Set.eq_empty_of_forall_notMem fun i hi => ?_)]
      · rfl
      · simp [hnone i] at hi
    | mint recipient n hcreator => exact h.counts.mint h.free recipient n
    | transfer src dst j howner hright => exact h.counts.move howner dst
    | burn owner spender j howner hauth hright => exact h.counts.clear howner
    | _ => exact h.counts
  · cases hm with
    | setUp creator hfresh => exact fun _ => rfl
    | succession creator hcreator => exact fun hnone => by cases hnone
    | mint recipient n hcreator =>
      intro hnone
      rw [show t.creator = none from hnone] at hcreator
      cases hcreator
    | _ => exact h.unminted

/-- The counter of the ids never goes back. -/
theorem Move.nextTokenId_le (hm : t.Move env t') (h : t.Sound) : t.nextTokenId ≤ t'.nextTokenId := by
  cases hm with
  | setUp creator hfresh => exact (h.unminted (h.uncreated hfresh)).le
  | mint recipient n hcreator => exact Nat.le_add_right _ n
  | _ => exact le_refl t.nextTokenId

/-- An id below the counter that has no owner stays without one. -/
theorem Move.spent (hm : t.Move env t') (hi : i < t.nextTokenId) (hnone : t.owner i = none) :
    t'.owner i = none := by
  cases hm with
  | mint recipient n hcreator => exact (if_neg (by omega)).trans hnone
  | transfer src dst j howner hright =>
    have hne : i ≠ j := by
      rintro rfl
      rw [howner] at hnone
      cases hnone
    exact (update_of_ne hne _ _).trans hnone
  | burn owner spender j howner hauth hright =>
    change Function.update t.owner j none i = none
    rw [update_apply, hnone, ite_self]
  | _ => exact hnone

end Tokens

/-! ### The maximum supply -/

/-- The counter of the ids and its bound. -/
abbrev State.issue (s : State) : Nat × Option Nat := (s.nextTokenId, s.maxSupply)

/-- No more ids have been handed out than the maximum supply. -/
def State.Capped (s : State) : Prop := s.nextTokenId ≤ s.maxSupply.getD u64Max

section Frames

variable {env : Env}

instance issue_onBase (c : Call (Fault Error) Base α) : Preserves State.issue (onBase c) where
  eq h := by
    obtain ⟨b, -, rfl⟩ := h.zoom
    rfl

instance : Preserves State.issue (onlyCreator env) := issue_onBase _

instance (c : Tx α) [Preserves State.issue c] : Preserves State.maxSupply c where
  eq h := congrArg Prod.snd (Preserves.eq (f := State.issue) h)

instance (recipient : Address) (n : BatchCounters) (uris : List String) :
    Preserves State.maxSupply (batchMintLoop recipient n uris) := by
  induction uris generalizing n with
  | nil => exact .pure n
  | cons uri uris ih =>
    unfold batchMintLoop
    infer_instance

end Frames

/-- The entry points that neither initialise the collection nor mint leave the counter of the ids
alone. -/
theorem op_issue (h : Returns (op.exec env) s () s')
    (hinit : ∀ c n y m b r, op ≠ .initializeCollection c n y m b r)
    (hmint : ∀ a x, op ≠ .mint a x) (hbatch : ∀ a xs, op ≠ .batchMint a xs) : s'.issue = s.issue := by
  suffices Preserves State.issue (op.exec env) from Preserves.eq h
  cases op with
  | initializeCollection c n y m b r => exact (hinit c n y m b r rfl).elim
  | mint a x => exact (hmint a x rfl).elim
  | batchMint a xs => exact (hbatch a xs rfl).elim
  | _ =>
    unfold Op.exec
    infer_instance

theorem op_capped (h : Returns (op.exec env) s () s') (hs : s.Capped) : s'.Capped := by
  by_cases hinit : ∃ c n y m b r, op = .initializeCollection c n y m b r
  · obtain ⟨c, n, y, m, b, r, rfl⟩ := hinit
    obtain ⟨-, -, htokens⟩ := initializeCollection_tokens h
    have hzero : s'.nextTokenId = 0 := congrArg Tokens.nextTokenId htokens
    exact hzero.trans_le (Nat.zero_le _)
  by_cases hmint : ∃ a x, op = .mint a x
  · obtain ⟨a, x, rfl⟩ := hmint
    obtain ⟨i, h⟩ := h.discard
    obtain ⟨-, hcap, htokens⟩ := mint_tokens h
    have hnext : s'.nextTokenId = s.nextTokenId + 1 := congrArg Tokens.nextTokenId htokens
    have hmax : s'.maxSupply = s.maxSupply := Preserves.eq h
    rwa [State.Capped, hnext, hmax]
  by_cases hbatch : ∃ a xs, op = .batchMint a xs
  · obtain ⟨a, xs, rfl⟩ := hbatch
    obtain ⟨-, hcap, htokens⟩ := batchMint_tokens h
    have hnext : s'.nextTokenId = s.nextTokenId + xs.length := congrArg Tokens.nextTokenId htokens
    have hmax : s'.maxSupply = s.maxSupply :=
      Preserves.eq (c := batchMint env a xs) h
    rwa [State.Capped, hnext, hmax]
  have hissue := op_issue h (fun c n y m b r e => hinit ⟨c, n, y, m, b, r, e⟩)
    (fun a x e => hmint ⟨a, x, e⟩) fun a xs e => hbatch ⟨a, xs, e⟩
  obtain ⟨hnext, hmax⟩ : s'.nextTokenId = s.nextTokenId ∧ s'.maxSupply = s.maxSupply :=
    Prod.mk.injEq .. ▸ hissue
  rwa [State.Capped, hnext, hmax]

/-! ### Runs -/

/-- What is known of the ledger in every state. -/
structure State.Sound (s : State) : Prop where
  tokens : s.tokens.Sound
  capped : s.Capped

theorem returns_sound (op : Op) (hop : Returns (op.exec env) s () s') (h : s.Sound) : s'.Sound :=
  ⟨(op_moves hop).sound h.tokens, op_capped hop h.capped⟩

theorem step_sound (env : Env) (op : Op) (h : s.Sound) : (step env s op).Sound := by
  unfold step
  split
  · rename_i u s' hop
    exact returns_sound op hop h
  · exact h

theorem sound_run (calls : List (Env × Op)) : (run .fresh calls).Sound :=
  Run.invariant ⟨.fresh, Nat.zero_le _⟩ fun _ call h => step_sound call.1 call.2 h

/-- An id that has been handed out stays so, and if it has no owner it never gets one again. -/
theorem issued_run (hs : s.Sound) (hi : i < s.nextTokenId) (calls : List (Env × Op)) :
    i < (run s calls).nextTokenId ∧ (s.owner i = none → (run s calls).owner i = none) := by
  refine (Run.invariant (I := fun s' : State => s'.Sound ∧ i < s'.tokens.nextTokenId ∧
    (s.owner i = none → s'.tokens.owner i = none)) ⟨hs, hi, id⟩ ?_).2
  rintro s' call ⟨hs', hi', hnone⟩
  have hmove := step_moves call.1 s' call.2
  exact ⟨step_sound call.1 call.2 hs', hi'.trans_le (hmove.nextTokenId_le hs'.tokens),
    fun h => hmove.spent hi' (hnone h)⟩

/-- Owning a token is being counted for it. -/
theorem State.Sound.counted (h : s.Sound) (howner : s.owner i = some a) :
    1 ≤ s.balanceOf a ∧ 1 ≤ s.totalSupply :=
  ⟨h.tokens.counts.balance_pos howner, h.tokens.counts.supply_pos howner⟩

/-- **The ledger.** After every run, balances and total supply count the tokens there are; owned ids are
below `NextTokenId`, which is within the maximum supply; an id that had an owner and has none now never
has one again; and what a transfer or a burn subtracts one from is at least one. -/
theorem ledger_invariant (calls : List (Env × Op)) :
    let s := run .fresh calls
    (∀ a, {i | s.owner i = some a}.encard = s.balanceOf a) ∧
      {i | (s.owner i).isSome}.encard = s.totalSupply ∧
      (∀ i, (s.owner i).isSome → i < s.nextTokenId) ∧
      s.nextTokenId ≤ s.maxSupply.getD u64Max ∧
      (∀ i before, before <+: calls → ((run .fresh before).owner i).isSome → s.owner i = none →
        ∀ later, (run s later).owner i = none) ∧
      ∀ env s', (∀ src dst i, Returns (transfer env src dst i) s () s' → 1 ≤ s.balanceOf src) ∧
        (∀ spender src dst i, Returns (transferFrom env spender src dst i) s () s' →
          1 ≤ s.balanceOf src) ∧
        ∀ spender i, Returns (burn env spender i) s () s' →
          ∃ owner, s.owner i = some owner ∧ 1 ≤ s.balanceOf owner ∧ 1 ≤ s.totalSupply := by
  intro s
  have hs : s.Sound := sound_run calls
  refine ⟨hs.tokens.counts.balance, hs.tokens.counts.supply, fun i hi => ?_, hs.capped,
    fun i before hbefore hi hnone later => ?_, fun env s' => ⟨fun src dst i h => ?_,
      fun spender src dst i h => ?_, fun spender i h => ?_⟩⟩
  · obtain ⟨a, ha⟩ := Option.isSome_iff_exists.mp hi
    exact hs.tokens.below ha
  · obtain ⟨since, rfl⟩ := hbefore
    obtain ⟨a, ha⟩ := Option.isSome_iff_exists.mp hi
    have hissued := (issued_run (sound_run before) ((sound_run before).tokens.below ha) since).1
    rw [show run (run .fresh before) since = s from Run.exec_append.symm] at hissued
    exact (issued_run hs hissued later).2 hnone
  · obtain ⟨-, howner, -⟩ := transfer_tokens h
    exact (hs.counted howner).1
  · obtain ⟨-, howner, -⟩ := transferFrom_tokens h
    exact (hs.counted howner).1
  · obtain ⟨owner, howner, -⟩ := burn_tokens h
    exact ⟨owner, howner, hs.counted howner⟩

end ElcareHub.NormalNFT721
