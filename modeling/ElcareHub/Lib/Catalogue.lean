import Mathlib.Data.List.Nodup
import Mathlib.Logic.Function.Basic

/-!
# Catalogues

A catalogue keeps the same records under three keys: in the order they were entered, in the order they
were entered within the group each belongs to, and under a key of their own. An order is kept in numbered
cells beside a counter (`Holds`), as a store without lists has to keep it.

The three views agree when they are views of one list (`Agrees`): the cells hold it, those of a group
hold what it has of the group, and a key leads to the only record with that key. Entering a record under
a key that is not taken keeps them so (`Agrees.enter`); nothing else has to be known about the records.
-/

namespace Catalogue

open Function

variable {α κ γ : Type}

/-! ### Lists in cells -/

/-- The first `count` cells hold `xs`, and the others nothing. -/
structure Holds (count : Nat) (cell : Nat → Option α) (xs : List α) : Prop where
  count_eq : count = xs.length
  cell_eq : ∀ i, cell i = xs[i]?

namespace Holds

variable {count : Nat} {cell : Nat → Option α} {xs : List α}

theorem empty : Holds 0 (fun _ => none) ([] : List α) := ⟨rfl, fun _ => by simp⟩

/-- The next cell is filled. -/
theorem push (h : Holds count cell xs) (x : α) :
    Holds (count + 1) (update cell count (some x)) (xs ++ [x]) := by
  refine ⟨by simp [h.count_eq], fun i => ?_⟩
  obtain rfl | hi := eq_or_ne i count
  · rw [update_self, h.count_eq, List.getElem?_concat_length]
  · rw [update_of_ne hi, h.cell_eq]
    obtain hlt | hge := Nat.lt_or_ge i xs.length
    · rw [List.getElem?_append_left hlt]
    · have hpast : xs.length + 1 ≤ i := by
        have := h.count_eq
        omega
      rw [List.getElem?_eq_none hge, List.getElem?_eq_none (by simpa using hpast)]

/-- Reading `n` cells from `start` on reads that part of the list. -/
theorem read (h : Holds count cell xs) (start n : Nat) :
    (List.range' start n).filterMap cell = (xs.drop start).take n := by
  induction n generalizing start with
  | zero => simp
  | succ n ih =>
    rw [List.range'_succ, List.filterMap_cons, h.cell_eq, ih]
    -- past the end of the list there is nothing to read
    obtain hlt | hge := Nat.lt_or_ge start xs.length
    · rw [List.getElem?_eq_getElem hlt, List.drop_eq_getElem_cons hlt, List.take_succ_cons]
    · simp [List.getElem?_eq_none hge, List.drop_eq_nil_of_le hge,
        List.drop_eq_nil_of_le (Nat.le_succ_of_le hge)]

theorem readAll (h : Holds count cell xs) : (List.range count).filterMap cell = xs := by
  rw [List.range_eq_range', h.read, List.drop_zero, h.count_eq, List.take_length]

end Holds

/-! ### Three views -/

structure Views (α κ γ : Type) where
  count : Nat
  cell : Nat → Option α
  groupCount : γ → Nat
  groupCell : γ × Nat → Option α
  byKey : κ → Option α

/-- Nothing has been entered. -/
def Views.empty : Views α κ γ where
  count := 0
  cell _ := none
  groupCount _ := 0
  groupCell _ := none
  byKey _ := none

variable [DecidableEq κ] [DecidableEq γ] (key : α → κ) (group : α → γ)

/-- A record is entered in all three views. -/
def Views.enter (v : Views α κ γ) (x : α) : Views α κ γ where
  count := v.count + 1
  cell := update v.cell v.count (some x)
  groupCount := update v.groupCount (group x) (v.groupCount (group x) + 1)
  groupCell := update v.groupCell (group x, v.groupCount (group x)) (some x)
  byKey := update v.byKey (key x) (some x)

/-- The three views are views of `xs`. -/
structure Agrees (v : Views α κ γ) (xs : List α) : Prop where
  all : Holds v.count v.cell xs
  grouped : ∀ g, Holds (v.groupCount g) (fun i => v.groupCell (g, i))
    (xs.filter fun x => decide (group x = g))
  keyed : ∀ k, v.byKey k = xs.find? fun x => decide (key x = k)
  nodup : (xs.map key).Nodup

namespace Agrees

variable {key group} {v : Views α κ γ} {xs : List α}

theorem empty : Agrees key group (.empty : Views α κ γ) [] :=
  ⟨.empty, fun _ => .empty, fun _ => rfl, List.nodup_nil⟩

theorem mem_keys_iff (h : Agrees key group v xs) : k ∈ xs.map key ↔ (v.byKey k).isSome = true := by
  rw [h.keyed]
  simp

/-- **Entering.** -/
theorem enter (h : Agrees key group v xs) (hnew : v.byKey (key x) = none) :
    Agrees key group (v.enter key group x) (xs ++ [x]) where
  all := h.all.push x
  grouped g := by
    obtain rfl | hg := eq_or_ne (group x) g
    · have hpush := (h.grouped (group x)).push x
      have hlist : (xs ++ [x]).filter (fun y => decide (group y = group x)) =
          xs.filter (fun y => decide (group y = group x)) ++ [x] := by
        simp
      convert hpush using 1
      · exact update_self _ _ _
      · funext i
        by_cases hi : i = v.groupCount (group x) <;> simp [Views.enter, hi]
    · have hlist : (xs ++ [x]).filter (fun y => decide (group y = g)) =
          xs.filter (fun y => decide (group y = g)) := by
        simp [hg]
      convert h.grouped g using 1
      · exact update_of_ne hg.symm _ _
      · funext i
        exact update_of_ne (fun heq => hg (congrArg Prod.fst heq).symm) _ _
  keyed k := by
    rw [List.find?_append]
    obtain rfl | hk := eq_or_ne (key x) k
    · rw [← h.keyed, hnew]
      simp [Views.enter]
    · rw [← h.keyed]
      simp [Views.enter, update_of_ne hk.symm, hk]
  nodup := by
    rw [List.map_append, List.nodup_append]
    refine ⟨h.nodup, List.nodup_singleton _, ?_⟩
    rintro a ha b hb rfl
    obtain rfl : a = key x := by simpa using hb
    have hsome := h.mem_keys_iff.mp ha
    rw [hnew] at hsome
    cases hsome

end Agrees

end Catalogue
