import Mathlib.Data.List.Basic

/-!
# Draining an old store into a new one, once

A value is moved from an old place, where it may be absent, into a new place. Many visitors may come
by to move it; the first one does and the others find nothing. `Drained` is the effect of all
visits together, `DrainedIf` that of visits that may or may not have taken place: `DrainedIf.comp`
puts two stretches of visits after one another.

`fresh xs ys` is what a list `xs` gains when the elements of `ys` are appended one by one, those
it has already left out.
-/

namespace Drain

/-! ### Appending what is not there yet -/

section Fresh

variable {α : Type} [DecidableEq α] {xs ys : List α} {y : α}

/-- The elements of `ys` that are not in `xs`, at their first occurrence. -/
def fresh (xs ys : List α) : List α := (ys.filter (· ∉ xs)).eraseDups

theorem fresh_nil : fresh xs [] = [] := rfl

theorem fresh_cons_of_mem (h : y ∈ xs) : fresh xs (y :: ys) = fresh xs ys := by
  rw [fresh, List.filter_cons_of_neg (by simpa using h), fresh]

theorem fresh_cons_of_notMem (h : y ∉ xs) : fresh xs (y :: ys) = y :: fresh (xs ++ [y]) ys := by
  have hfilter : (ys.filter (· ∉ xs)).filter (fun b => !b == y) = ys.filter (· ∉ xs ++ [y]) := by
    rw [List.filter_filter]
    refine List.filter_congr fun b _ => ?_
    by_cases hb : b = y <;> simp [hb]
  rw [fresh, List.filter_cons_of_pos (by simpa using h), List.eraseDups_cons, hfilter, fresh]

/-- One more element in front of those to append. -/
theorem append_fresh_cons :
    xs ++ fresh xs (y :: ys) =
      (if y ∈ xs then xs else xs ++ [y]) ++ fresh (if y ∈ xs then xs else xs ++ [y]) ys := by
  by_cases h : y ∈ xs
  · rw [if_pos h, fresh_cons_of_mem h]
  · rw [if_neg h, fresh_cons_of_notMem h, List.append_assoc, List.singleton_append]

end Fresh

/-! ### Visits -/

variable {S T : Type} {g : S → T → T → Prop} {a b c : Option S × T} {P Q : Prop}

/-- The old place is empty, and what was in it has gone into the new one by `g`. -/
def Drained (g : S → T → T → Prop) (a b : Option S × T) : Prop :=
  match a.1 with
  | none => b = a
  | some s => b.1 = none ∧ g s a.2 b.2

/-- A second visit finds nothing. -/
theorem Drained.trans (hab : Drained g a b) (hbc : Drained g b c) : Drained g a c := by
  unfold Drained at hab hbc ⊢
  cases ha : a.1 with
  | none =>
    simp only [ha] at hab ⊢
    subst hab
    simpa only [ha] using hbc
  | some s =>
    simp only [ha] at hab ⊢
    simp only [hab.1] at hbc
    exact hbc ▸ hab

/-- Drained if there was a visit, and untouched otherwise. -/
structure DrainedIf (g : S → T → T → Prop) (P : Prop) (a b : Option S × T) : Prop where
  visited : P → Drained g a b
  untouched : ¬ P → b = a

theorem DrainedIf.of_eq (hP : ¬ P) (h : b = a) : DrainedIf g P a b := ⟨fun p => (hP p).elim, fun _ => h⟩

theorem DrainedIf.comp (hab : DrainedIf g P a b) (hbc : DrainedIf g Q b c) :
    DrainedIf g (P ∨ Q) a c where
  visited hPQ := by
    by_cases hP : P
    · by_cases hQ : Q
      · exact (hab.visited hP).trans (hbc.visited hQ)
      · exact hbc.untouched hQ ▸ hab.visited hP
    · have hba := hab.untouched hP
      exact hba ▸ hbc.visited (hPQ.resolve_left hP)
  untouched hPQ := by
    rw [hbc.untouched fun q => hPQ (.inr q), hab.untouched fun p => hPQ (.inl p)]

/-- If there was a visit whenever there was something to move, it has been moved. -/
theorem DrainedIf.drained (h : DrainedIf g P a b) (hP : a.1 ≠ none → P) : Drained g a b := by
  by_cases hp : P
  · exact h.visited hp
  · have hnone : a.1 = none := not_not.mp fun hne => hp (hP hne)
    simp only [Drained, hnone]
    exact h.untouched hp

end Drain
