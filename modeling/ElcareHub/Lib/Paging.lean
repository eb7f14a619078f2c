import Mathlib.Data.List.Basic
import Mathlib.Tactic.Ring

/-!
# Cutting a list into pages

A list kept as fixed-capacity pages: page `p` of size `n` holds the elements `n * p`, …,
`n * p + (n - 1)`, so element `i` sits in page `i / n` at offset `i % n`. The lemmas say which page a
list operation touches and what it does there: appending and dropping the last element change one
page (`page_append_singleton`, `page_dropLast`), overwriting a slot changes the page of that slot
(`page_set`). `Pages n f xs` says that the function `f` gives the pages of `xs`.
-/

namespace Paging

variable {α : Type}

/-- Page `p` of `xs` when pages hold `n` elements. -/
def page (n : Nat) (xs : List α) (p : Nat) : List α := (xs.drop (n * p)).take n

/-- `f p` is page `p` of `xs`, for every `p`. -/
def Pages (n : Nat) (f : Nat → List α) (xs : List α) : Prop := ∀ p, f p = page n xs p

variable {n : Nat} {xs : List α} {p i : Nat} {v : α}

theorem getElem?_page (hi : i < n) : (page n xs p)[i]? = xs[n * p + i]? := by
  rw [page, List.getElem?_take_of_lt hi, List.getElem?_drop]

/-- Slot `i % n` of page `i / n` is element `i`. -/
theorem getElem?_page_div_mod (hn : 0 < n) : (page n xs (i / n))[i % n]? = xs[i]? := by
  rw [getElem?_page (Nat.mod_lt i hn), Nat.div_add_mod]

theorem length_page : (page n xs p).length = min n (xs.length - n * p) := by
  simp [page]

/-- Two pages are equal when their slots are. -/
theorem page_ext (hlen : zs.length ≤ n)
    (h : ∀ i < n, zs[i]? = xs[n * p + i]?) : zs = page n xs p := by
  apply List.ext_getElem?
  intro i
  by_cases hi : i < n
  · rw [getElem?_page hi, h i hi]
  · have hzs : zs.length ≤ i := by omega
    have hpage : (page n xs p).length ≤ i := by rw [length_page]; omega
    rw [List.getElem?_eq_none hzs, List.getElem?_eq_none hpage]

/-- Division and remainder are the only way to write a position as page and offset. -/
theorem eq_div_mod_of_eq (hr : r < n) (h : n * q + r = k) : q = k / n ∧ r = k % n := by
  subst h
  have hn : 0 < n := by omega
  constructor
  · rw [Nat.mul_add_div hn, Nat.div_eq_of_lt hr, Nat.add_zero]
  · rw [Nat.mul_add_mod, Nat.mod_eq_of_lt hr]

/-- Appending one element appends it to the page the length points at. -/
theorem page_append_singleton (hn : 0 < n) :
    page n (xs ++ [v]) p = if p = xs.length / n then page n xs p ++ [v] else page n xs p := by
  symm
  have hdm := Nat.div_add_mod xs.length n
  have hmod := Nat.mod_lt xs.length hn
  split
  · rename_i hp
    subst hp
    have hlen : (page n xs (xs.length / n)).length = xs.length % n := by
      rw [length_page]; omega
    apply page_ext
    · simp; omega
    · intro i hi
      rcases lt_trichotomy i (xs.length % n) with hlt | heq | hgt
      · rw [List.getElem?_append_left (by omega), getElem?_page hi,
          List.getElem?_append_left (by omega)]
      · rw [List.getElem?_append_right (by omega), List.getElem?_append_right (by omega)]
        congr 1
        omega
      · rw [List.getElem?_eq_none (by simp; omega), List.getElem?_eq_none (by simp; omega)]
  · rename_i hp
    apply page_ext
    · rw [length_page]; omega
    · intro i hi
      rw [getElem?_page hi, List.getElem?_append]
      split
      · rfl
      · -- past the old length, only the appended slot is occupied, and it is in another page
        have hne : n * p + i ≠ xs.length := fun h => hp (eq_div_mod_of_eq hi h).1
        rw [List.getElem?_eq_none (by omega), List.getElem?_eq_none (by simp; omega)]

/-- Overwriting slot `i` overwrites slot `i % n` of page `i / n`. -/
theorem page_set (hn : 0 < n) :
    page n (xs.set i v) p = if p = i / n then (page n xs p).set (i % n) v else page n xs p := by
  symm
  have hdm := Nat.div_add_mod i n
  split
  · rename_i hp
    subst hp
    apply page_ext
    · rw [List.length_set, length_page]; omega
    · intro j hj
      rw [List.getElem?_set, List.getElem?_set, getElem?_page hj]
      by_cases hji : j = i % n
      · subst hji
        have hlt : i % n < (page n xs (i / n)).length ↔ i < xs.length := by
          rw [length_page]; omega
        simp only [hdm, hlt]
      · rw [if_neg (by omega), if_neg (by omega)]
  · rename_i hp
    apply page_ext
    · rw [length_page]; omega
    · intro j hj
      have hne : i ≠ n * p + j := fun h => hp (eq_div_mod_of_eq hj h.symm).1
      rw [getElem?_page hj, List.getElem?_set, if_neg hne]

/-- Dropping the last element drops it from the page it is in. -/
theorem page_dropLast (hn : 0 < n) (hxs : xs ≠ []) :
    page n xs.dropLast p =
      if p = (xs.length - 1) / n then (page n xs p).eraseIdx ((xs.length - 1) % n)
      else page n xs p := by
  symm
  have hpos : 0 < xs.length := List.length_pos_iff.mpr hxs
  set k := xs.length - 1 with hk
  have hdm := Nat.div_add_mod k n
  have hmod := Nat.mod_lt k hn
  split
  · rename_i hp
    subst hp
    have hlen : (page n xs (k / n)).length = k % n + 1 := by
      rw [length_page]; omega
    apply page_ext
    · rw [List.length_eraseIdx]; split <;> omega
    · intro j hj
      rw [List.getElem?_dropLast]
      by_cases hlt : j < k % n
      · rw [List.getElem?_eraseIdx_of_lt hlt, getElem?_page hj, if_pos (by omega)]
      · rw [List.getElem?_eraseIdx_of_ge (by omega), if_neg (by omega),
          List.getElem?_eq_none (by omega)]
  · rename_i hp
    apply page_ext
    · rw [length_page]; omega
    · intro j hj
      rw [getElem?_page hj, List.getElem?_dropLast]
      have hne : n * p + j ≠ k := fun h => hp (eq_div_mod_of_eq hj h).1
      by_cases hlt : n * p + j < k
      · rw [if_pos (by omega)]
      · rw [if_neg (by omega), List.getElem?_eq_none (by omega)]

/-- The pages up to the length hold the elements of the list. -/
theorem mem_iff_exists_mem_page (hn : 0 < n) :
    v ∈ xs ↔ ∃ p < (xs.length + n - 1) / n, v ∈ page n xs p := by
  constructor
  · intro hv
    obtain ⟨i, hi, hget⟩ := List.mem_iff_getElem.mp hv
    refine ⟨i / n, ?_, List.mem_iff_getElem?.mpr ⟨i % n, ?_⟩⟩
    · rw [Nat.lt_div_iff_mul_lt hn]
      have hle := Nat.div_mul_le_self i n
      omega
    · rw [getElem?_page_div_mod hn, List.getElem?_eq_getElem hi, hget]
  · rintro ⟨p, -, hv⟩
    exact List.mem_of_mem_drop (List.mem_of_mem_take hv)

/-- Reading the positions of a segment one after the other gives the segment. -/
theorem mapM_getElem?_range' (h : start + i ≤ xs.length) :
    (List.range' start i).mapM (fun k => xs[k]?) = some ((xs.drop start).take i) := by
  induction i generalizing start with
  | zero => simp
  | succ i ih =>
    have hlt : start < xs.length := by omega
    rw [List.range'_succ, List.mapM_cons, ih (by omega), List.getElem?_eq_getElem hlt,
      List.drop_eq_getElem_cons hlt]
    rfl

end Paging
