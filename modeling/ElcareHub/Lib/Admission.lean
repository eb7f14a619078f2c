import Mathlib.Data.List.Count
import Mathlib.Data.List.Nodup
import Mathlib.Data.List.Pairwise

/-!
# Admission to a table with unique indices

Elements arrive one after the other at a table. One that clashes with an element that is already in is
turned away, the others are admitted and stay. `admitted r kept as` is what a table that holds `kept`
admits of the arrivals `as`.

Whatever the clash is, the elements of the table never clash with each other. If every element clashes
with itself, a repeated arrival is turned away, and `count_admitted_iff` says when this is the only
reason: every arrival is admitted exactly once just when no two different arrivals clash.
-/

namespace Admission

variable {α : Type} {r : α → α → Bool} {kept as bs : List α} {a b : α}

/-- What a table that holds `kept` admits. -/
def admitted (r : α → α → Bool) : List α → List α → List α
  | _, [] => []
  | kept, a :: as =>
    if kept.any (r a) then admitted r kept as else a :: admitted r (kept ++ [a]) as

theorem admitted_cons_pos (h : kept.any (r a) = true) :
    admitted r kept (a :: as) = admitted r kept as := by
  rw [admitted, if_pos h]

theorem admitted_cons_neg (h : kept.any (r a) = false) :
    admitted r kept (a :: as) = a :: admitted r (kept ++ [a]) as := by
  rw [admitted, h]
  rfl

/-- Arrivals in two groups are admitted one group after the other. -/
theorem admitted_append : admitted r kept (as ++ bs) =
      admitted r kept as ++ admitted r (kept ++ admitted r kept as) bs := by
  induction as generalizing kept with
  | nil => rw [admitted, List.append_nil, List.nil_append, List.nil_append]
  | cons a as ih =>
    cases h : kept.any (r a) with
    | true => rw [List.cons_append, admitted_cons_pos h, admitted_cons_pos h, ih]
    | false =>
      rw [List.cons_append, admitted_cons_neg h, admitted_cons_neg h, ih, List.append_assoc]
      rfl

theorem admitted_sublist : (admitted r kept as).Sublist as := by
  induction as generalizing kept with
  | nil => exact List.Sublist.refl []
  | cons a as ih =>
    cases h : kept.any (r a) with
    | true =>
      rw [admitted_cons_pos h]
      exact ih.cons a
    | false =>
      rw [admitted_cons_neg h]
      exact ih.cons_cons a

/-- What clashes with itself is turned away only for an element of the table it clashes with. -/
theorem exists_clash_of_mem (hrefl : r a a = true) (ha : a ∈ as) :
    ∃ b ∈ kept ++ admitted r kept as, r a b = true := by
  induction as generalizing kept with
  | nil => exact absurd ha List.not_mem_nil
  | cons c as ih =>
    cases h : kept.any (r c) with
    | true =>
      rw [admitted_cons_pos h]
      rcases List.mem_cons.mp ha with rfl | hmem
      · obtain ⟨b, hb, hab⟩ := List.any_eq_true.mp h
        exact ⟨b, List.mem_append_left _ hb, hab⟩
      · exact ih hmem
    | false =>
      rw [admitted_cons_neg h, List.append_cons]
      rcases List.mem_cons.mp ha with rfl | hmem
      · exact ⟨a, List.mem_append_left _ (List.mem_append_right _ List.mem_cons_self), hrefl⟩
      · exact ih hmem

/-- What clashes with the table is turned away. -/
theorem admitted_eq_nil (h : ∀ a ∈ as, ∃ b ∈ kept, r a b = true) : admitted r kept as = [] := by
  induction as with
  | nil => rfl
  | cons a as ih =>
    rw [List.forall_mem_cons] at h
    rw [admitted_cons_pos (List.any_eq_true.mpr h.1), ih h.2]

/-- The elements of the table do not clash. -/
theorem pairwise_admitted (h : kept.Pairwise fun a b => r b a = false) :
    (kept ++ admitted r kept as).Pairwise fun a b => r b a = false := by
  induction as generalizing kept with
  | nil =>
    rw [admitted, List.append_nil]
    exact h
  | cons c as ih =>
    cases hc : kept.any (r c) with
    | true =>
      rw [admitted_cons_pos hc]
      exact ih h
    | false =>
      rw [admitted_cons_neg hc, List.append_cons]
      refine ih (List.pairwise_append.mpr ⟨h, List.pairwise_singleton .., ?_⟩)
      intro a ha b hb
      rw [List.mem_singleton.mp hb]
      exact Bool.eq_false_iff.mpr fun hca => (List.any_eq_false.mp hc) a ha hca

section Exact

variable [DecidableEq α]

/-- **Exactness.** Every arrival is admitted exactly once just when different arrivals never clash. -/
theorem count_admitted_iff (hrefl : ∀ a, r a a = true) (hsymm : ∀ a b, r a b = r b a) :
    (∀ a ∈ as, (admitted r [] as).count a = 1) ↔ ∀ a ∈ as, ∀ b ∈ as, a ≠ b → r a b = false := by
  have hpair : ([] ++ admitted r [] as).Pairwise fun a b => r b a = false := pairwise_admitted .nil
  constructor
  · -- both of two arrivals stand in the table, and one of them is the later one
    intro hcount a ha b hb hne
    have hmem : ∀ c ∈ as, c ∈ admitted r [] as := fun c hc =>
      List.count_pos_iff.mp (hcount c hc ▸ Nat.one_pos)
    have : Std.Symm fun x y => r y x = false := ⟨fun x y h => (hsymm x y).trans h⟩
    exact hpair.forall (hmem b hb) (hmem a ha) hne.symm
  · -- an arrival is represented by an element it clashes with, which is itself
    intro hclash a ha
    have hnodup : (admitted r [] as).Nodup := by
      refine hpair.imp fun {x y} hxy => ?_
      rintro rfl
      rw [hrefl] at hxy
      cases hxy
    obtain ⟨b, hb, hab⟩ : ∃ b ∈ [] ++ admitted r [] as, r a b = true :=
      exists_clash_of_mem (hrefl a) ha
    have hself : a = b := by
      by_contra hne
      rw [hclash a ha b (admitted_sublist.subset hb) hne] at hab
      cases hab
    exact List.count_eq_one_of_mem hnodup (hself ▸ hb)

end Exact

end Admission
