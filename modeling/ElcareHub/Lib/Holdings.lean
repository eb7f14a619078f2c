import Mathlib.Data.Set.Card

/-!
# Ownership maps and the counters kept beside them

A registry maps each item to its owner, if it has one, and keeps two counters beside the map: how
many items each owner has, and how many items have an owner at all. `Counted` says that the counters
are right. It is kept when an unowned item is given away (`Counted.give`), when an owned one is taken
back (`Counted.clear`), and therefore when one changes hands (`Counted.move`). Giving away an item that
already has an owner breaks it for good: from then on the supply counter is ahead of the map
(`owned_lt_give_of_lt`).
-/

namespace Holdings

open Function

variable {ι α : Type}

/-- The items of `a`. -/
def heldBy (owner : ι → Option α) (a : α) : Set ι := {i | owner i = some a}

/-- The items that have an owner. -/
def owned (owner : ι → Option α) : Set ι := {i | (owner i).isSome}

/-- The counters agree with the map; in particular, finitely many items are owned. -/
structure Counted (owner : ι → Option α) (balance : α → ℕ) (supply : ℕ) : Prop where
  balance : ∀ a, (heldBy owner a).encard = balance a
  supply : (owned owner).encard = supply

variable {owner : ι → Option α} {balance : α → ℕ} {supply : ℕ} {i : ι} {a b : α}

@[simp]
theorem mem_heldBy : i ∈ heldBy owner a ↔ owner i = some a := Iff.rfl

@[simp]
theorem mem_owned : i ∈ owned owner ↔ (owner i).isSome := Iff.rfl

/-- Nothing is owned. -/
theorem Counted.none : Counted (fun _ : ι => (Option.none : Option α)) (fun _ => 0) 0 := by
  constructor <;> simp [heldBy, owned]

/-- Where an item is owned, the supply is positive. -/
theorem Counted.supply_pos (h : Counted owner balance supply) (hi : owner i = some a) :
    0 < supply := by
  have hne : (owned owner).encard ≠ 0 := Set.encard_ne_zero.mpr ⟨i, by simp [hi]⟩
  rw [h.supply] at hne
  exact Nat.pos_of_ne_zero (by exact_mod_cast hne)

/-- Where an item is owned, the balance of its owner is positive. -/
theorem Counted.balance_pos (h : Counted owner balance supply) (hi : owner i = some a) :
    0 < balance a := by
  have hne : (heldBy owner a).encard ≠ 0 := Set.encard_ne_zero.mpr ⟨i, hi⟩
  rw [h.balance] at hne
  exact Nat.pos_of_ne_zero (by exact_mod_cast hne)

variable [DecidableEq ι]

theorem heldBy_update_none (b : α) :
    heldBy (update owner i Option.none) b = heldBy owner b \ {i} := by
  ext j
  by_cases hj : j = i <;> simp [hj]

theorem owned_update_none : owned (update owner i Option.none) = owned owner \ {i} := by
  ext j
  by_cases hj : j = i <;> simp [hj]

theorem owned_update_some : owned (update owner i (some a)) = insert i (owned owner) := by
  ext j
  by_cases hj : j = i <;> simp [hj]

theorem heldBy_update_some_self : heldBy (update owner i (some a)) a = insert i (heldBy owner a) := by
  ext j
  by_cases hj : j = i <;> simp [hj]

theorem heldBy_update_some_of_ne (hi : owner i = Option.none) (hab : b ≠ a) :
    heldBy (update owner i (some a)) b = heldBy owner b := by
  ext j
  by_cases hj : j = i
  · simp [hj, hi, hab.symm]
  · simp [hj]

variable [DecidableEq α]

/-- An unowned item is given to `a`. -/
theorem Counted.give (h : Counted owner balance supply) (hi : owner i = Option.none) (a : α) :
    Counted (update owner i (some a)) (update balance a (balance a + 1)) (supply + 1) where
  balance b := by
    by_cases hab : b = a
    · subst hab
      rw [heldBy_update_some_self, Set.encard_insert_of_notMem (by simp [hi]), h.balance, update_self]
      rfl
    · rw [heldBy_update_some_of_ne hi hab, h.balance, update_of_ne hab]
  supply := by
    rw [owned_update_some, Set.encard_insert_of_notMem (by simp [hi]), h.supply]
    rfl

/-- An item of `a` is taken back. -/
theorem Counted.clear (h : Counted owner balance supply) (hi : owner i = some a) :
    Counted (update owner i Option.none) (update balance a (balance a - 1)) (supply - 1) where
  balance b := by
    rw [heldBy_update_none]
    by_cases hab : b = a
    · subst hab
      rw [Set.encard_sdiff_singleton_of_mem (mem_heldBy.mpr hi), h.balance, update_self]
      rfl
    · have hout : i ∉ heldBy owner b := by simp [hi, Ne.symm hab]
      rw [Set.sdiff_singleton_eq_self hout, h.balance, update_of_ne hab]
  supply := by
    rw [owned_update_none, Set.encard_sdiff_singleton_of_mem (by simp [hi]), h.supply]
    rfl

/-- An item of `a` goes to `b`, who may be `a`: it is taken back and given away. -/
theorem Counted.move (h : Counted owner balance supply) (hi : owner i = some a) (b : α) :
    Counted (update owner i (some b)) (update (update balance a (balance a - 1)) b
        (update balance a (balance a - 1) b + 1)) supply := by
  have hmoved := (h.clear hi).give (i := i) (by simp) b
  rwa [update_idem, Nat.sub_add_cancel (h.supply_pos hi)] at hmoved

omit [DecidableEq α] in
/-- Giving away an item, owned or not, never lets the map catch up with the supply counter. -/
theorem owned_lt_give_of_lt (h : (owned owner).encard < supply) (i : ι) (a : α) :
    (owned (update owner i (some a))).encard < (supply + 1 : ℕ) := by
  rw [owned_update_some]
  calc (insert i (owned owner)).encard ≤ (owned owner).encard + 1 := Set.encard_insert_le _ _
    _ < supply + 1 := ENat.add_lt_add_of_lt_of_le (by simp) h (le_refl 1)
    _ = (supply + 1 : ℕ) := rfl

end Holdings
