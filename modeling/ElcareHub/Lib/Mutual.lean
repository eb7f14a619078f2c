import Mathlib.Logic.Function.Basic

/-!
# Partial maps that are inverse to each other

A register and the things it registers: `f a = some b` says that the register entry `a` names `b`,
and `g b = some a` that `b` belongs to the entry `a`. The two are *mutual* when they always agree.
Entries are then exclusive in both directions, and adding or removing a pair on both sides keeps the
maps mutual.
-/

/-- `f` and `g` are inverse to each other where they are defined. -/
def Mutual {α β : Type} (f : α → Option β) (g : β → Option α) : Prop :=
  ∀ a b, f a = some b ↔ g b = some a

namespace Mutual

open Function

variable {α β : Type} {f : α → Option β} {g : β → Option α} {a : α} {b b' : β}

theorem empty : Mutual (fun _ : α => (none : Option β)) fun _ => none := by
  intro a b
  simp

/-- At most one `b` belongs to an entry. -/
theorem unique (h : Mutual f g) (hb : g b = some a) (hb' : g b' = some a) : b = b' := by
  rw [← h] at hb hb'
  exact Option.mem_unique hb hb'

/-- An entry exists exactly when exactly one `b` belongs to it. -/
theorem isSome_iff (h : Mutual f g) : (f a).isSome ↔ ∃! b, g b = some a := by
  rw [Option.isSome_iff_exists]
  constructor
  · rintro ⟨b, hb⟩
    exact ⟨b, (h a b).mp hb, fun b' hb' => h.unique hb' ((h a b).mp hb)⟩
  · rintro ⟨b, hb, -⟩
    exact ⟨b, (h a b).mpr hb⟩

variable [DecidableEq α] [DecidableEq β]

/-- A new pair is entered on both sides. -/
theorem insert (h : Mutual f g) (ha : f a = none) (hb : g b = none) :
    Mutual (update f a (some b)) (update g b (some a)) := by
  intro x y
  by_cases hx : x = a
  · by_cases hy : y = b
    · simp [hx, hy]
    · have hxy := h x y
      rw [hx, ha] at hxy
      simp [hx, hy, Ne.symm hy, ← hxy]
  · by_cases hy : y = b
    · have hxy := h x y
      rw [hy, hb] at hxy
      simp [hx, hy, Ne.symm hx, hxy]
    · simp [hx, hy, h x y]

/-- A pair is removed on both sides. -/
theorem erase (h : Mutual f g) (hb : g b = some a) : Mutual (update f a none) (update g b none) := by
  have ha := (h a b).mpr hb
  intro x y
  by_cases hx : x = a
  · by_cases hy : y = b
    · simp [hx, hy]
    · have hxy := h x y
      rw [hx, ha] at hxy
      simp [hx, hy, ← hxy, Ne.symm hy]
  · by_cases hy : y = b
    · have hxy := h x y
      rw [hy, hb] at hxy
      simp [hx, hy, hxy, Ne.symm hx]
    · simp [hx, hy, h x y]

end Mutual
