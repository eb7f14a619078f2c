import ElcareHub.Collections.NormalNFT721.Tokens

/-!
# Tokens that nobody can move

A token whose owner never signs, has no operators, and has approved nobody for the token stays where
it is: every right to move it would have to come from its owner. This is the situation of a contract
that receives a token by `transfer_from`, since every transfer clears the approval of the token.
-/

namespace ElcareHub.NormalNFT721

open Collection Call Function

namespace Tokens

/-- Tokens are numbered by the counter, and there are none before the creator is installed. -/
structure WellFormed (t : Tokens) : Prop where
  below : ∀ {i a}, t.owner i = some a → i < t.nextTokenId
  unowned : t.creator = none → ∀ i, t.owner i = none
  uncreated : t.initialized = false → t.creator = none

/-- Nobody may act for `holder`. -/
def NoOperators (t : Tokens) (holder : Address) : Prop :=
  ∀ operator, t.approvedForAll (holder, operator) = false

/-- `holder` owns the token and nobody is approved for it. -/
structure Held (t : Tokens) (holder : Address) (i : Nat) : Prop where
  owner : t.owner i = some holder
  approved : t.approved i = none

variable {env : Env} {t t' : Tokens} {holder : Address} {i : Nat}

/-- Nobody may move a held token. -/
theorem Held.not_mayMove (hheld : t.Held holder i) (hoperators : t.NoOperators holder)
    (sequence : Nat) (spender : Address) : ¬ t.MayMove sequence holder spender i := by
  rintro (⟨happroved, -⟩ | ⟨hoperator, -⟩)
  · rw [hheld.approved] at happroved
    cases happroved
  · rw [hoperators spender] at hoperator
    cases hoperator

theorem WellFormed.fresh : State.fresh.tokens.WellFormed where
  below h := by cases h
  unowned _ _ := rfl
  uncreated _ := rfl

/-! ### Moves -/

theorem Move.wellFormed (hm : t.Move env t') (h : t.WellFormed) : t'.WellFormed := by
  cases hm with
  | skip => exact h
  | setUp creator hfresh =>
    have hnone := h.unowned (h.uncreated hfresh)
    refine ⟨fun {i a} hi => ?_, by simp, by simp⟩
    change t.owner i = some a at hi
    rw [hnone i] at hi
    cases hi
  | succession creator hcreator =>
    refine ⟨h.below, by simp, fun hinit => ?_⟩
    simp [h.uncreated hinit] at hcreator
  | mint recipient n hcreator =>
    refine ⟨fun {i a} hi => ?_, fun hnone => ?_, h.uncreated⟩
    · change (if t.nextTokenId ≤ i ∧ i < t.nextTokenId + n then some recipient else t.owner i) =
        some a at hi
      change i < t.nextTokenId + n
      split at hi
      · omega
      · have := h.below hi
        omega
    · rw [show t.creator = none from hnone] at hcreator
      cases hcreator
  | transfer src dst j howner hright =>
    refine ⟨fun {i a} hi => ?_, fun hnone => ?_, h.uncreated⟩
    · change Function.update t.owner j (some dst) i = some a at hi
      rw [update_apply] at hi
      split at hi
      · rename_i hij
        exact hij ▸ h.below (i := j) howner
      · exact h.below hi
    · rw [h.unowned hnone j] at howner
      cases howner
  | burn owner spender j howner hauth hright =>
    refine ⟨fun {i a} hi => ?_, fun hnone => ?_, h.uncreated⟩
    · change Function.update t.owner j none i = some a at hi
      rw [update_apply] at hi
      split at hi
      · cases hi
      · exact h.below hi
    · rw [h.unowned hnone j] at howner
      cases howner
  | approve owner spender approved j expiresAt howner hauth hright =>
    exact ⟨h.below, h.unowned, h.uncreated⟩
  | revoke owner j howner hauth => exact ⟨h.below, h.unowned, h.uncreated⟩
  | operator owner operator approved expiresAt hauth => exact ⟨h.below, h.unowned, h.uncreated⟩

/-- Who does not sign gets no operators. -/
theorem Move.noOperators (hm : t.Move env t') (hsilent : env.auth holder = false)
    (h : t.NoOperators holder) : t'.NoOperators holder := by
  cases hm with
  | operator owner operator approved expiresAt hauth =>
    intro x
    have hne : (holder, x) ≠ (owner, operator) := by
      rintro ⟨⟩
      rw [hsilent] at hauth
      cases hauth
    exact (update_of_ne hne _ _).trans (h x)
  | _ => exact h

/-- A held token stays held while its holder does not sign. -/
theorem Move.held (hm : t.Move env t') (hsilent : env.auth holder = false)
    (hwellFormed : t.WellFormed) (hoperators : t.NoOperators holder) (h : t.Held holder i) :
    t'.Held holder i := by
  cases hm with
  | mint recipient n hcreator =>
    have hi := hwellFormed.below h.owner
    refine ⟨?_, h.approved⟩
    exact (if_neg (by omega)).trans h.owner
  | transfer src dst j howner hright =>
    have hne : i ≠ j := by
      rintro rfl
      obtain rfl : src = holder := Option.mem_unique howner h.owner
      obtain hauth | ⟨spender, -, hmay⟩ := hright
      · rw [hsilent] at hauth
        cases hauth
      · exact h.not_mayMove hoperators _ _ hmay
    exact ⟨(update_of_ne hne _ _).trans h.owner, (update_of_ne hne _ _).trans h.approved⟩
  | burn owner spender j howner hauth hright =>
    have hne : i ≠ j := by
      rintro rfl
      obtain rfl : owner = holder := Option.mem_unique howner h.owner
      exact h.not_mayMove hoperators _ _ hright
    exact ⟨(update_of_ne hne _ _).trans h.owner, (update_of_ne hne _ _).trans h.approved⟩
  | approve owner spender approved j expiresAt howner hauth hright =>
    have hne : i ≠ j := by
      rintro rfl
      obtain rfl : owner = holder := Option.mem_unique howner h.owner
      obtain rfl | ⟨hoperator, -⟩ := hright
      · rw [hsilent] at hauth
        cases hauth
      · rw [hoperators spender] at hoperator
        cases hoperator
    exact ⟨h.owner, (update_of_ne hne _ _).trans h.approved⟩
  | revoke owner j howner hauth =>
    refine ⟨h.owner, ?_⟩
    change Function.update t.approved j none i = none
    rw [update_apply]
    split
    · rfl
    · exact h.approved
  | _ => exact ⟨h.owner, h.approved⟩

/-- The holder itself, as a spender, cannot move a held token. -/
theorem Held.transfer_other (h : t.Held holder i) (hoperators : t.NoOperators holder)
    {sequence : Nat} (howner : t.owner j = some src)
    (hmay : t.MayMove sequence src holder j) : (t.transfer src dst j).Held holder i := by
  have hne : i ≠ j := by
    rintro rfl
    obtain rfl : src = holder := Option.mem_unique howner h.owner
    exact h.not_mayMove hoperators _ _ hmay
  exact ⟨(update_of_ne hne _ _).trans h.owner, (update_of_ne hne _ _).trans h.approved⟩

end Tokens

/-- A transfer of a held token by its holder as the spender is refused. -/
theorem transferFrom_refused (hauth : env.auth holder = true) (hunpaused : s.paused = false)
    (hheld : s.tokens.Held holder i) (hoperators : s.tokens.NoOperators holder) :
    transferFrom env holder holder dst i s = .error (.contract .notApproved) := by
  have happroved : s.approved i = none := hheld.approved
  have hoperator : s.base.approvedForAll (holder, holder) = false := hoperators holder
  simp [transferFrom, requireUnpaused, checkApproved, State.isApproved, Base.isApprovedForAll,
    bind, andThen, view, abortIf, hauth, hunpaused, happroved, hoperator]

end ElcareHub.NormalNFT721
