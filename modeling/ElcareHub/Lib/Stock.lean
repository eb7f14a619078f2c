import Mathlib.Logic.Function.Basic

/-!
# Units of items, and how they are moved

A stock says how many units of each item each holder has. `Moved` says that some units of one item go
from one holder to another; it is stated without subtraction, so that it also says that the source had
them. `move` is the movement itself, refused when the source has too few.
-/

namespace Stock

variable {ι α : Type} [DecidableEq ι] [DecidableEq α]

/-- `n` units of `i` go from `src` to `dst`, who may be the same. -/
def Moved (u u' : ι → α → Nat) (i : ι) (src dst : α) (n : Nat) : Prop :=
  ∀ j a, u' j a + (if j = i ∧ a = src then n else 0) = u j a + (if j = i ∧ a = dst then n else 0)

namespace Moved

variable {u u' : ι → α → Nat} {i j : ι} {src dst : α} {n : Nat}

/-- The units of other items stay where they are. -/
theorem other_item (h : Moved u u' i src dst n) (hj : j ≠ i) (a : α) : u' j a = u j a := by
  have hmoved := h j a
  rwa [if_neg fun hsrc => hj hsrc.1, if_neg fun hdst => hj hdst.1] at hmoved

/-- The source gives its units away, to somebody else. -/
theorem source (h : Moved u u' i src dst n) (hne : dst ≠ src) : u' i src + n = u i src := by
  have hmoved := h i src
  rwa [if_pos ⟨rfl, rfl⟩, if_neg fun hdst => hne hdst.2.symm] at hmoved

/-- The destination receives them, from somebody else. -/
theorem destination (h : Moved u u' i src dst n) (hne : dst ≠ src) : u' i dst = u i dst + n := by
  have hmoved := h i dst
  rwa [if_neg fun hsrc => hne hsrc.2, if_pos ⟨rfl, rfl⟩] at hmoved

end Moved

/-- Move `n` units of `i`, if the source has them. -/
def move (u : ι → α → Nat) (i : ι) (src dst : α) (n : Nat) : Option (ι → α → Nat) :=
  if n ≤ u i src then
    some fun j a =>
      u j a - (if j = i ∧ a = src then n else 0) + (if j = i ∧ a = dst then n else 0)
  else none

theorem moved_of_move {i : ι} {dst : α}
    (h : move u i src dst n = some u') : Moved u u' i src dst n := by
  unfold move at h
  split at h
  · cases h
    intro j a
    dsimp only
    by_cases hsrc : j = i ∧ a = src
    · obtain ⟨rfl, rfl⟩ := hsrc
      -- only here are units subtracted, and they are there
      rw [if_pos ⟨rfl, rfl⟩]
      omega
    · rw [if_neg hsrc, Nat.sub_zero, Nat.add_zero]
  · cases h

end Stock
