import Mathlib.Data.List.Nodup
import ElcareHub.Lib.Paging
import ElcareHub.Marketplace.Storage

/-!
# The paged index and the active-listing index

`PagedIndex.Lists ix xs` says that the pages and the length of `ix` hold the list `xs`. The engine
operations are then list operations: `index_append` appends, `index_swap_remove` moves the last
element into the hole.

`ActiveIndex` bundles what `add_to_active_listings` and `remove_from_active_listings` touch: the
pages, the position keys and the counter of defensive exits. `ActiveIndex.Lists` adds to the paged
index that the position keys are the inverse of the list, which is what makes a removal find its
slot.
-/

namespace ElcareHub.Marketplace

open Function

variable {p q j : Nat}

/-! ### Paged indexes as lists -/

/-- `ix` stores the list `xs`. -/
structure PagedIndex.Lists (ix : PagedIndex) (xs : List Nat) : Prop where
  len : ix.len = xs.length
  pages : Paging.Pages indexPageSize ix.pages xs

theorem indexPageSize_pos : 0 < indexPageSize := by decide

namespace PagedIndex

theorem lists_empty : PagedIndex.empty.Lists [] :=
  ⟨rfl, fun _ => by simp [PagedIndex.empty, Paging.page]⟩

namespace Lists

variable {ix ix' : PagedIndex} {xs : List Nat} {v pos : Nat}

theorem getElem?_pages (h : ix.Lists xs) (pos : Nat) :
    (ix.pages (pos / indexPageSize))[pos % indexPageSize]? = xs[pos]? := by
  rw [h.pages, Paging.getElem?_page_div_mod indexPageSize_pos]

/-- `index_get` reads the list. -/
theorem get_eq (h : ix.Lists xs) (pos : Nat) : ix.get pos = xs[pos]? := by
  unfold PagedIndex.get
  split
  · rename_i hpos
    rw [h.len] at hpos
    rw [List.getElem?_eq_none hpos]
  · exact h.getElem?_pages pos

/-- `index_append` appends. -/
theorem append (h : ix.Lists xs) (happ : ix.append v = some ix') : ix'.Lists (xs ++ [v]) := by
  simp only [PagedIndex.append, Option.ite_none_right_eq_some, Option.some.injEq] at happ
  obtain ⟨-, rfl⟩ := happ
  refine ⟨by simp [h.len], fun p => ?_⟩
  rw [Paging.page_append_singleton indexPageSize_pos, ← h.len]
  by_cases hp : p = ix.len / indexPageSize
  · subst hp
    simp [storePage, h.pages (ix.len / indexPageSize)]
  · simp [storePage, hp, h.pages p]

/-- The pages after `pages` had one page replaced. -/
theorem storePage_pages (ix : PagedIndex) (q : Nat) (es : List Nat) (p : Nat) :
    (ix.storePage q es).pages p = if p = q then es else ix.pages p := by
  simp [storePage, Function.update_apply]

/-- `index_contains` looks for the value in the list. -/
theorem contains_eq (h : ix.Lists xs) (hcontains : ix.contains v = some present) :
    present = true ↔ v ∈ xs := by
  obtain ⟨count, hcount, rfl⟩ := Option.map_eq_some_iff.mp hcontains
  have hpages : count = (xs.length + indexPageSize - 1) / indexPageSize := by
    unfold PagedIndex.pageCount at hcount
    rw [h.len] at hcount
    split at hcount
    · rename_i hlen
      rw [hlen]
      exact (Option.some.inj hcount).symm
    · simp only [Option.ite_none_right_eq_some, Option.some.injEq] at hcount
      exact hcount.2.symm
  rw [List.any_eq_true, Paging.mem_iff_exists_mem_page indexPageSize_pos, ← hpages]
  simp only [List.mem_range, List.contains_iff_mem, h.pages _]

/-- `index_range` returns a segment of the stored list. -/
theorem range_eq (h : ix.Lists xs) (hlen : xs.length ≤ u32Max) (start limit : Nat) :
    ix.range start limit = some ((xs.drop start).take limit) := by
  unfold PagedIndex.range
  rw [h.len]
  split
  · rename_i hnone
    rcases hnone with hstart | rfl
    · rw [List.drop_eq_nil_of_le hstart, List.take_nil]
    · rw [List.take_zero]
  · have hstop : start + (min (saturatingAddU32 start limit) xs.length - start) =
        min (start + limit) xs.length := by
      unfold saturatingAddU32
      omega
    simp only [h.getElem?_pages]
    rw [Paging.mapM_getElem?_range' (by omega), Option.some_inj, List.take_eq_take_iff,
      List.length_drop]
    omega

/-- `index_all` returns the stored list. -/
theorem all_eq (h : ix.Lists xs) (hlen : xs.length ≤ u32Max) : ix.all = some xs := by
  rw [PagedIndex.all, h.range_eq hlen, h.len, List.drop_zero, List.take_length]

/-- Every position has its slot. -/
theorem slot_lt (h : ix.Lists xs) (hpos : pos < xs.length) :
    pos % indexPageSize < (ix.pages (pos / indexPageSize)).length := by
  have hsome := h.getElem?_pages pos
  rw [List.getElem?_eq_getElem hpos] at hsome
  exact (List.getElem?_eq_some_iff.mp hsome).1

/-- The pages after the last element was moved into the hole, in terms of the pages stored now. -/
theorem page_swapRemoved (h : ix.Lists xs) (hpos : pos < xs.length) (p : Nat) :
    Paging.page indexPageSize (xs.set pos v).dropLast p = if p = (xs.length - 1) / indexPageSize then
        (if p = pos / indexPageSize then (ix.pages p).set (pos % indexPageSize) v
          else ix.pages p).eraseIdx ((xs.length - 1) % indexPageSize)
      else if p = pos / indexPageSize then (ix.pages p).set (pos % indexPageSize) v
      else ix.pages p := by
  have hne : xs.set pos v ≠ [] := by
    intro hnil
    have hzero := congrArg List.length hnil
    rw [List.length_set, List.length_nil] at hzero
    omega
  rw [Paging.page_dropLast indexPageSize_pos hne, Paging.page_set indexPageSize_pos,
    List.length_set, h.pages p]

/-- `index_swap_remove` on a stored position: the last element moves into the hole, and is reported
unless it was the hole. The call never traps. -/
theorem swapRemove (h : ix.Lists xs) (hlast : xs[xs.length - 1]? = some v)
    (hpos : pos < xs.length) :
    ∃ ix', ix.swapRemove pos = some (ix', if pos = xs.length - 1 then none else some v) ∧
      ix'.Lists (xs.set pos v).dropLast := by
  have hread : (ix.pages ((xs.length - 1) / indexPageSize))[(xs.length - 1) % indexPageSize]? =
      some v := by
    rw [h.getElem?_pages, hlast]
  unfold PagedIndex.swapRemove
  rw [h.len, if_neg (by omega)]
  simp only [hread, Option.bind_eq_bind, Option.bind_some]
  by_cases hlastpos : pos = xs.length - 1
  · subst hlastpos
    refine ⟨_, by rw [if_pos rfl, if_pos rfl], by simp, fun p => ?_⟩
    -- overwriting the last slot with its own value changes nothing
    have hself : (ix.pages ((xs.length - 1) / indexPageSize)).set
        ((xs.length - 1) % indexPageSize) v = ix.pages ((xs.length - 1) / indexPageSize) := by
      obtain ⟨hlt, heq⟩ := List.getElem?_eq_some_iff.mp hread
      rw [← heq, List.set_getElem_self]
    rw [h.page_swapRemoved hpos p]
    simp only [storePage_pages]
    split
    · rename_i hp
      subst hp
      rw [hself]
    · rfl
  · rw [if_neg hlastpos, if_neg hlastpos]
    -- the hole is in the page the last element is taken from, or in an earlier one
    by_cases hpage : pos / indexPageSize = (xs.length - 1) / indexPageSize
    · have hlt := h.slot_lt hpos
      rw [hpage] at hlt
      simp only [if_pos hpage, PagedIndex.setSlot, if_pos hlt]
      refine ⟨_, rfl, by simp, fun p => ?_⟩
      rw [h.page_swapRemoved hpos p]
      simp only [storePage_pages, hpage]
      split
      · rename_i hp
        subst hp
        rfl
      · rfl
    · have hlt := h.slot_lt hpos
      simp only [if_neg hpage, PagedIndex.setSlot, storePage_pages, if_pos hlt]
      refine ⟨_, rfl, by simp, fun p => ?_⟩
      rw [h.page_swapRemoved hpos p]
      simp only [storePage_pages]
      by_cases hp : p = pos / indexPageSize
      · subst hp
        rw [if_pos rfl, if_neg hpage, if_pos rfl]
      · simp only [if_neg hp]
        split
        · rename_i hp'
          subst hp'
          rfl
        · rfl

end Lists

end PagedIndex

/-! ### The active-listing index -/

/-- What the two operations on the active-listing index touch. -/
structure ActiveIndex where
  index : PagedIndex
  pos : Nat → Option Nat
  stale : Nat

namespace ActiveIndex

/-- `add_to_active_listings` as a function; `none` when the index is full. -/
def add (a : ActiveIndex) (id : Nat) : Option ActiveIndex :=
  if (a.pos id).isSome then some a
  else (a.index.append id).map fun ix =>
    { a with index := ix, pos := update a.pos id (some a.index.len) }

/-- The position keys after `moved` took the slot `p`. -/
def movePos (pos : Nat → Option Nat) (p : Nat) (moved : Option Nat) : Nat → Option Nat :=
  match moved with
  | some m => update pos m (some p)
  | none => pos

/-- `remove_from_active_listings` as a function; `none` when a page lacks a slot. -/
def remove (a : ActiveIndex) (id : Nat) : Option ActiveIndex :=
  match a.pos id with
  | none => some a
  | some p =>
    if a.index.get p ≠ some id then some { a with stale := a.stale + 1 }
    else (a.index.swapRemove p).map fun r =>
      { a with index := r.1, pos := update (movePos a.pos p r.2) id none }

/-- The index holds the ids `xs` and the position keys are its inverse, so that every id is held
once. -/
structure Lists (a : ActiveIndex) (xs : List Nat) : Prop where
  paged : a.index.Lists xs
  bound : xs.length ≤ u32Max
  pos : ∀ id p, a.pos id = some p ↔ xs[p]? = some id

theorem lists_empty : (ActiveIndex.mk .empty (fun _ => none) 0).Lists [] :=
  ⟨PagedIndex.lists_empty, Nat.zero_le _, by simp⟩

namespace Lists

variable {a a' : ActiveIndex} {xs : List Nat} {id : Nat}

/-- An id sits at one position only. -/
theorem pos_unique (h : a.Lists xs) (hp : xs[p]? = some id) (hq : xs[q]? = some id) : p = q := by
  have hpq : some p = some q := ((h.pos id p).mpr hp).symm.trans ((h.pos id q).mpr hq)
  simpa using hpq

theorem nodup (h : a.Lists xs) : xs.Nodup := by
  rw [List.nodup_iff_getElem?_ne_getElem?]
  intro i j hij hj heq
  rw [List.getElem?_eq_getElem hj] at heq
  have hsame := h.pos_unique heq (List.getElem?_eq_getElem hj)
  omega

/-- An id has a position key exactly when it is in the list. -/
theorem isSome_pos_iff (h : a.Lists xs) : (a.pos id).isSome ↔ id ∈ xs := by
  rw [Option.isSome_iff_exists, List.mem_iff_getElem?]
  exact exists_congr fun p => h.pos id p

theorem getElem?_concat_eq_some :
    (xs ++ [id])[p]? = some j ↔ xs[p]? = some j ∨ p = xs.length ∧ id = j := by
  rcases Nat.lt_trichotomy p xs.length with hlt | heq | hgt
  · rw [List.getElem?_append_left hlt]
    constructor
    · exact .inl
    · rintro (hp | ⟨rfl, -⟩)
      · exact hp
      · omega
  · subst heq
    simp
  · rw [List.getElem?_eq_none (by simp; omega), List.getElem?_eq_none (by omega)]
    simp
    omega

/-- A new id is appended. -/
theorem add (h : a.Lists xs) (hnew : id ∉ xs) (hadd : a.add id = some a') :
    a'.Lists (xs ++ [id]) ∧ a'.stale = a.stale := by
  have hpos : ¬ (a.pos id).isSome := fun hs => hnew (h.isSome_pos_iff.mp hs)
  simp only [ActiveIndex.add, if_neg hpos, Option.map_eq_some_iff] at hadd
  obtain ⟨ix, happ, rfl⟩ := hadd
  have hlen : xs.length + 1 ≤ u32Max := by
    simp only [PagedIndex.append, Option.ite_none_right_eq_some, h.paged.len] at happ
    exact happ.1
  refine ⟨⟨h.paged.append happ, by simpa using hlen, fun j p => ?_⟩, rfl⟩
  change update a.pos id (some a.index.len) j = some p ↔ _
  rw [Function.update_apply, getElem?_concat_eq_some, ← h.pos j p, h.paged.len]
  by_cases hj : j = id
  · subst hj
    have hnone : a.pos j = none := Option.not_isSome_iff_eq_none.mp hpos
    simp [hnone, eq_comm]
  · simp [hj, Ne.symm hj]

/-- A slot of the list after the last element `v` was moved into the hole `p`. -/
theorem getElem?_swapRemoved :
    (xs.set p v).dropLast[q]? = some j ↔
      q < xs.length - 1 ∧ if q = p then v = j else xs[q]? = some j := by
  rw [List.getElem?_dropLast]
  by_cases hq : q < xs.length - 1
  · have hlt : q < xs.length := by omega
    by_cases hp : p = q
    · subst hp
      simp [hlt]
    · simp [hp, Ne.symm hp]
  · simp [hq]

/-- The list after the removal of `id`, from the hole `p`, in terms of the list before it: `id` is
gone, the last id `v` is in the hole, and every other id is where it was. -/
theorem slot_swapRemoved_iff (h : a.Lists xs) (hp : xs[p]? = some id)
    (hv : xs[xs.length - 1]? = some v) :
    (xs.set p v).dropLast[q]? = some j ↔ j ≠ id ∧ if j = v then q = p else xs[q]? = some j := by
  have hplt : p < xs.length := (List.getElem?_eq_some_iff.mp hp).1
  -- an id at two positions would have two position keys
  have hlast : v = id → p = xs.length - 1 := fun hvid => h.pos_unique hp (hvid ▸ hv)
  rw [getElem?_swapRemoved]
  constructor
  · rintro ⟨hq, hslot⟩
    split at hslot
    · rename_i hqp
      subst hslot
      refine ⟨fun hvid => ?_, by rw [if_pos rfl, hqp]⟩
      omega
    · rename_i hqp
      refine ⟨fun hj => hqp (h.pos_unique (hj ▸ hslot) hp), ?_⟩
      rw [if_neg fun hj => ?_]
      · exact hslot
      · have := h.pos_unique (hj ▸ hslot) hv
        omega
  · rintro ⟨hj, hslot⟩
    split at hslot
    · rename_i hjv
      have hne : p ≠ xs.length - 1 := fun heq =>
        hj (Option.some.inj ((hjv ▸ hv : xs[xs.length - 1]? = some j).symm.trans (heq ▸ hp)))
      exact ⟨by omega, by rw [if_pos hslot, hjv]⟩
    · rename_i hjv
      have hqlt := (List.getElem?_eq_some_iff.mp hslot).1
      have hqp : q ≠ p := fun heq => hj (Option.some.inj (hslot.symm.trans (heq ▸ hp)))
      have hqlast : q ≠ xs.length - 1 := fun heq =>
        hjv (Option.some.inj (hslot.symm.trans (heq ▸ hv)))
      exact ⟨by omega, by rwa [if_neg hqp]⟩

/-- The position keys follow the move; when the hole is the last slot, nothing moves. -/
theorem movePos_eq (hp : xs[p]? = some id) (hv : xs[xs.length - 1]? = some v)
    (hj : j ≠ id) :
    movePos a.pos p (if p = xs.length - 1 then none else some v) j =
      if j = v then some p else a.pos j := by
  by_cases hlast : p = xs.length - 1
  · have hvid : v = id := Option.some.inj (hv.symm.trans (hlast ▸ hp))
    rw [if_pos hlast, if_neg fun hjv => hj (hjv.trans hvid)]
    rfl
  · rw [if_neg hlast]
    exact Function.update_apply ..

/-- A listed id is removed: the others stay, and the defensive exit is not taken. -/
theorem remove (h : a.Lists xs) (hmem : id ∈ xs) :
    ∃ a' ys, a.remove id = some a' ∧ a'.Lists ys ∧ a'.stale = a.stale ∧
      ∀ j, j ∈ ys ↔ j ∈ xs ∧ j ≠ id := by
  obtain ⟨p, hp⟩ := List.mem_iff_getElem?.mp hmem
  have hplt : p < xs.length := (List.getElem?_eq_some_iff.mp hp).1
  obtain ⟨v, hv⟩ : ∃ v, xs[xs.length - 1]? = some v :=
    ⟨_, List.getElem?_eq_getElem (by omega)⟩
  obtain ⟨ix', hswap, hlists⟩ := h.paged.swapRemove hv hplt
  have hpos : a.pos id = some p := (h.pos id p).mpr hp
  have hget : a.index.get p = some id := by rw [h.paged.get_eq, hp]
  refine ⟨⟨ix', update (movePos a.pos p (if p = xs.length - 1 then none else some v)) id
    none, a.stale⟩, (xs.set p v).dropLast, ?_, ⟨hlists, ?_, ?_⟩, rfl, ?_⟩
  · simp [ActiveIndex.remove, hpos, hget, hswap]
  · have hbound := h.bound
    rw [List.length_dropLast, List.length_set]
    omega
  · -- the position keys are the inverse of the new list
    intro j q
    change update (movePos a.pos p _) id none j = some q ↔ _
    rw [h.slot_swapRemoved_iff hp hv, Function.update_apply]
    by_cases hj : j = id
    · simp [hj]
    · rw [if_neg hj, movePos_eq hp hv hj, and_iff_right hj]
      split
      · rw [Option.some.injEq, eq_comm]
      · exact h.pos j q
  · intro j
    simp only [List.mem_iff_getElem?, h.slot_swapRemoved_iff hp hv, exists_and_left]
    rw [and_comm, and_congr_left_iff]
    intro _
    split
    · rename_i hjv
      exact iff_of_true ⟨p, rfl⟩ ⟨_, hjv ▸ hv⟩
    · exact Iff.rfl

end Lists

end ActiveIndex

end ElcareHub.Marketplace
