import Mathlib.Data.List.Sort
import Mathlib.Data.List.Nodup

/-!
# Keyset pagination

A reader fetches rows page by page. A page is the first `n` rows in an order of the store's choosing
that respects a preorder `le`, and after a full page the reader asks for the rows `beyond` its last one.
The pages partition the rows, whatever the store does with ties, exactly where every cut between pages
is clean: no row of the page is beyond its last row, and all the rows after it are (`browse_perm_iff`).
-/

namespace ElcareHub.Keyset

variable {ρ : Type*}

/-- An order in which a store may return rows: it respects `le` and may do anything with ties. -/
def Sorts (le : ρ → ρ → Prop) (order : List ρ → List ρ) : Prop :=
  ∀ rows, (order rows).Perm rows ∧ (order rows).Pairwise le

/-- Page by page, to a page that is not full. -/
def browse (order : List ρ → List ρ) (beyond : ρ → ρ → Bool) (n : Nat) :
    Nat → List ρ → Option (List ρ)
  | 0, _ => none
  | fuel + 1, rows =>
    let page := (order rows).take n
    match page.getLast? with
    | none => some page
    | some last =>
      if page.length = n then
        (browse order beyond n fuel (rows.filter (beyond last))).map (page ++ ·)
      else some page

/-- Cut in pages of `n` rows, each full page holds no row beyond its last one and leaves no other. -/
inductive Clean (beyond : ρ → ρ → Bool) (n : Nat) : List ρ → Prop
  | short {rows} (hlt : rows.length < n) : Clean beyond n rows
  | full {rows last} (hle : n ≤ rows.length) (hlast : (rows.take n).getLast? = some last)
      (hpage : ∀ row ∈ rows.take n, ¬ beyond last row) (hrest : ∀ row ∈ rows.drop n, beyond last row)
      (hclean : Clean beyond n (rows.drop n)) : Clean beyond n rows

variable {le : ρ → ρ → Prop} {order : List ρ → List ρ} {beyond : ρ → ρ → Bool} {n fuel : Nat}
  {rows sorted : List ρ} {last : ρ}

theorem browse_of_lt (h : (order rows).length < n) :
    browse order beyond n (fuel + 1) rows = some (order rows) := by
  have hpage : (order rows).take n = order rows := List.take_of_length_le (by omega)
  rw [browse, hpage]
  cases (order rows).getLast? with
  | none => rfl
  | some last => exact if_neg (by omega)

theorem browse_of_le (hlast : ((order rows).take n).getLast? = some last)
    (h : n ≤ (order rows).length) : browse order beyond n (fuel + 1) rows =
      (browse order beyond n fuel (rows.filter (beyond last))).map ((order rows).take n ++ ·) := by
  rw [browse]
  simp only [hlast]
  exact if_pos (List.length_take_of_le h)

theorem exists_last (hn : 0 < n) (h : n ≤ rows.length) :
    ∃ last, (rows.take n).getLast? = some last := by
  have hne : rows.take n ≠ [] := by
    rw [Ne, List.take_eq_nil_iff]
    rintro (rfl | rfl)
    · exact hn.false
    · exact absurd h hn.not_ge
  exact ⟨_, List.getLast?_eq_some_getLast hne⟩

/-- After a clean cut the store has exactly the rows that follow it left. -/
theorem filter_perm_drop (hperm : sorted.Perm rows) (hpage : ∀ row ∈ sorted.take n, ¬ beyond last row)
    (hrest : ∀ row ∈ sorted.drop n, beyond last row) :
    (rows.filter (beyond last)).Perm (sorted.drop n) := by
  have hsorted : sorted.filter (beyond last) = sorted.drop n := by
    conv_lhs => rw [← List.take_append_drop n sorted]
    rw [List.filter_append, List.filter_eq_nil_iff.mpr hpage, List.filter_eq_self.mpr hrest,
      List.nil_append]
  exact hsorted ▸ (hperm.filter _).symm

/-- What follows a page may stand in any order that respects `le`. -/
theorem pairwise_resume (hsorted : sorted.Pairwise le)
    (hperm : rest.Perm (sorted.drop n)) (hrest : rest.Pairwise le) :
    (sorted.take n ++ rest).Pairwise le := by
  rw [← List.take_append_drop n sorted, List.pairwise_append] at hsorted
  refine List.pairwise_append.mpr ⟨hsorted.1, hrest, fun a ha b hb => ?_⟩
  exact hsorted.2.2 a ha b (hperm.subset hb)

theorem browse_of_clean (horder : Sorts le order) (hn : 0 < n) : ∀ fuel rows, rows.length < fuel →
      (∀ sorted, sorted.Perm rows → sorted.Pairwise le → Clean beyond n sorted) →
      ∃ visited, browse order beyond n fuel rows = some visited ∧ visited.Perm rows := by
  intro fuel
  induction fuel with
  | zero => intro rows hfuel; omega
  | succ fuel ih =>
    intro rows hfuel hclean
    obtain ⟨hperm, hsorted⟩ := horder rows
    cases hclean _ hperm hsorted with
    | short hlt => exact ⟨_, browse_of_lt hlt, hperm⟩
    | @full _ last hle hlast hpage hrest _ =>
      have hleft := filter_perm_drop hperm hpage hrest
      have hfewer : (rows.filter (beyond last)).length < fuel := by
        rw [hleft.length_eq, List.length_drop, hperm.length_eq]
        rw [hperm.length_eq] at hle
        omega
      obtain ⟨visited, hvisited, hall⟩ := ih _ hfewer (fun rest hrestPerm hrestSorted => by
        -- the page before them makes an order of the rows left an order of all
        have hrejoin := hclean (List.take n (order rows) ++ rest)
          (((hrestPerm.trans hleft).append_left _).trans
            ((List.take_append_drop n _).symm ▸ hperm))
          (pairwise_resume hsorted (hrestPerm.trans hleft) hrestSorted)
        have hlength : (List.take n (order rows)).length = n := List.length_take_of_le hle
        cases hrejoin with
        | short hlt =>
          rw [List.length_append] at hlt
          omega
        | full _ _ _ _ hrest => rwa [List.drop_left' hlength] at hrest)
      refine ⟨_, (browse_of_le hlast hle).trans (by rw [hvisited]; rfl), ?_⟩
      exact ((hall.trans hleft).append_left _).trans ((List.take_append_drop n _).symm ▸ hperm)

theorem browse_subset (horder : Sorts le order) : ∀ fuel rows visited,
    browse order beyond n fuel rows = some visited → visited ⊆ rows := by
  intro fuel
  induction fuel with
  | zero => nofun
  | succ fuel ih =>
    intro rows visited hvisited
    have hpage : List.take n (order rows) ⊆ rows :=
      fun row hrow => (horder rows).1.subset (List.mem_of_mem_take hrow)
    rw [browse] at hvisited
    split at hvisited
    · exact Option.some.inj hvisited ▸ hpage
    · split at hvisited
      · obtain ⟨rest, hrest, rfl⟩ := Option.map_eq_some_iff.mp hvisited
        exact List.append_subset.mpr ⟨hpage, fun row hrow => List.mem_of_mem_filter (ih _ _ hrest hrow)⟩
      · exact Option.some.inj hvisited ▸ hpage

theorem page_subset_browse (hvisited : browse order beyond n fuel rows = some visited) :
    (order rows).take n ⊆ visited := by
  cases fuel with
  | zero => nomatch hvisited
  | succ fuel =>
    rw [browse] at hvisited
    split at hvisited
    · exact Option.some.inj hvisited ▸ List.Subset.refl _
    · split at hvisited
      · obtain ⟨rest, -, rfl⟩ := Option.map_eq_some_iff.mp hvisited
        exact List.subset_append_left _ _
      · exact Option.some.inj hvisited ▸ List.Subset.refl _

/-- Rows of a full page that are beyond its last row come first among the rows left: no tie can put
a row that was not on the page before them. -/
theorem mem_page_of_beyond (horder : Sorts le order) (hrefl : ∀ a, le a a)
    (htrans : ∀ a b c, le a b → le b c → le a c)
    (hties : ∀ a b, beyond b a → le a b → ¬ le b a) (hnodup : rows.Nodup) (hperm : sorted.Perm rows)
    (hsorted : sorted.Pairwise le) (hlast : (sorted.take n).getLast? = some last)
    (hrow : row ∈ sorted.take n) (hbeyond : beyond last row) :
    row ∈ (order (rows.filter (beyond last))).take n := by
  obtain ⟨hleft, hleftSorted⟩ := horder (rows.filter (beyond last))
  obtain ⟨before, after, hsplit⟩ := List.append_of_mem
    (hleft.mem_iff.mpr (List.mem_filter.mpr ⟨hperm.subset (List.mem_of_mem_take hrow), hbeyond⟩))
  obtain ⟨init, hinit⟩ := List.getLast?_eq_some_iff.mp hlast
  rw [← List.take_append_drop n sorted, hinit] at hsorted
  have hlastLe : ∀ other ∈ sorted.drop n, le last other :=
    fun other hother => (List.pairwise_append.mp hsorted).2.2 last (by simp) other hother
  have hleLast : ∀ other ∈ init ++ [last], le other last := by
    intro other hother
    rcases List.mem_append.mp hother with hmem | hmem
    · exact (List.pairwise_append.mp (List.pairwise_append.mp hsorted).1).2.2 other hmem last (by simp)
    · exact List.mem_singleton.mp hmem ▸ hrefl last
  -- everything before the row was on the page, and is not its last row
  have hbefore : before ⊆ init := by
    intro other hother
    have hleft' : other ∈ rows.filter (beyond last) :=
      hleft.subset (hsplit ▸ List.mem_append_left _ hother)
    rw [hsplit, List.pairwise_append] at hleftSorted
    have hle : le other row := hleftSorted.2.2 other hother row (by simp)
    obtain ⟨hmem, hother'⟩ := List.mem_filter.mp hleft'
    rw [← hperm.mem_iff, ← List.take_append_drop n sorted, hinit, List.append_assoc,
      List.mem_append, List.mem_append] at hmem
    rcases hmem with hmem | hmem | hmem
    · exact hmem
    · rw [List.mem_singleton.mp hmem] at hother'
      exact absurd (hrefl last) (hties last last hother' (hrefl last))
    · exact absurd (htrans _ _ _ (hlastLe other hmem) hle)
        (hties row last hbeyond (hleLast row (hinit ▸ hrow)))
  have hdistinct : before.Nodup := by
    have hall : (before ++ row :: after).Nodup := hsplit ▸ hleft.nodup_iff.mpr (hnodup.filter _)
    exact (List.nodup_append.mp hall).1
  have hshort : before.length < n := by
    have hfew := (List.subperm_of_subset hdistinct hbefore).length_le
    have hn := congrArg List.length hinit
    rw [List.length_take, List.length_append, List.length_singleton] at hn
    omega
  rw [hsplit, List.take_append]
  refine List.mem_append_right _ ?_
  obtain ⟨m, hm⟩ : ∃ m, n - before.length = m + 1 := ⟨n - before.length - 1, by omega⟩
  rw [hm]
  exact List.mem_cons_self

theorem clean_of_browse (horder : Sorts le order) (hn : 0 < n) (hrefl : ∀ a, le a a)
    (htrans : ∀ a b c, le a b → le b c → le a c) (hties : ∀ a b, beyond b a → le a b → ¬ le b a) :
    ∀ fuel rows sorted visited, rows.Nodup → sorted.Perm rows → sorted.Pairwise le →
      (∀ k rest, rest.Perm (sorted.drop k) → order rest = sorted.drop k) →
      browse order beyond n fuel rows = some visited → visited.Perm rows → Clean beyond n sorted := by
  intro fuel
  induction fuel with
  | zero => nofun
  | succ fuel ih =>
    intro rows sorted visited hnodup hperm hsorted hfollows hvisited hall
    have hfirst : order rows = sorted := hfollows 0 rows hperm.symm
    rcases Nat.lt_or_ge sorted.length n with hlt | hle
    · exact .short hlt
    obtain ⟨last, hlast⟩ := exists_last hn hle
    rw [browse_of_le (hfirst ▸ hlast) (hfirst ▸ hle), hfirst] at hvisited
    obtain ⟨rest, hrest, rfl⟩ := Option.map_eq_some_iff.mp hvisited
    have hdrop : rest.Perm (sorted.drop n) := by
      refine (List.perm_append_left_iff (sorted.take n)).mp (hall.trans (hperm.symm.trans ?_))
      rw [List.take_append_drop]
    have hrestBeyond : ∀ row ∈ sorted.drop n, beyond last row := fun row hrow =>
      (List.mem_filter.mp (browse_subset horder _ _ _ hrest (hdrop.mem_iff.mpr hrow))).2
    have hpage : ∀ row ∈ sorted.take n, ¬ beyond last row := by
      intro row hrow hbeyond
      -- such a row would be on the next page as well
      have hagain : row ∈ sorted.drop n := hdrop.subset (page_subset_browse hrest
        (mem_page_of_beyond horder hrefl htrans hties hnodup hperm hsorted hlast hrow hbeyond))
      exact List.disjoint_take_drop (hperm.nodup_iff.mpr hnodup) le_rfl hrow hagain
    have hleft := filter_perm_drop hperm hpage hrestBeyond
    refine .full hle hlast hpage hrestBeyond (ih _ _ rest (hnodup.filter _) hleft.symm
      (hsorted.sublist (List.drop_sublist n sorted)) ?_ hrest (hdrop.trans hleft.symm))
    intro k other hother
    rw [List.drop_drop] at hother ⊢
    exact hfollows _ _ hother

theorem sorts_insertionSort [DecidableRel le] (htotal : ∀ a b, le a b ∨ le b a)
    (htrans : ∀ a b c, le a b → le b c → le a c) : Sorts le (List.insertionSort le) := by
  have : Std.Total le := ⟨htotal⟩
  have : IsTrans ρ le := ⟨htrans⟩
  exact fun rows => ⟨List.perm_insertionSort le rows, List.pairwise_insertionSort le rows⟩

/-- An order of the rows that a store may choose is the start of one that it may choose throughout. -/
theorem exists_sorts_following [DecidableRel le] (htotal : ∀ a b, le a b ∨ le b a)
    (htrans : ∀ a b c, le a b → le b c → le a c) (hsorted : sorted.Pairwise le) :
    ∃ order, Sorts le order ∧ ∀ k rest, rest.Perm (sorted.drop k) → order rest = sorted.drop k := by
  classical
  refine ⟨fun rest => if h : ∃ k, rest.Perm (sorted.drop k) then sorted.drop h.choose
    else rest.insertionSort le, fun rest => ?_, fun k rest hrest => ?_⟩
  · dsimp only
    split
    · next h => exact ⟨h.choose_spec.symm, hsorted.sublist (List.drop_sublist _ _)⟩
    · exact sorts_insertionSort htotal htrans rest
  · have h : ∃ k, rest.Perm (sorted.drop k) := ⟨k, hrest⟩
    refine (dif_pos h).trans ?_
    have hlength := (h.choose_spec.symm.trans hrest).length_eq
    rw [List.length_drop, List.length_drop] at hlength
    rcases Nat.lt_or_ge k sorted.length with hk | hk
    · exact congrArg (List.drop · sorted) (by omega)
    · rw [List.drop_of_length_le hk, List.drop_of_length_le (by omega)]

theorem browse_perm_iff [DecidableRel le] (hn : 0 < n) (htotal : ∀ a b, le a b ∨ le b a)
    (htrans : ∀ a b c, le a b → le b c → le a c) (hties : ∀ a b, beyond b a → le a b → ¬ le b a)
    (hnodup : rows.Nodup) (hfuel : rows.length < fuel) : (∀ order, Sorts le order →
        ∃ visited, browse order beyond n fuel rows = some visited ∧ visited.Perm rows) ↔
      ∀ sorted, sorted.Perm rows → sorted.Pairwise le → Clean beyond n sorted := by
  constructor
  · intro hall sorted hperm hsorted
    obtain ⟨order, horder, hfollows⟩ := exists_sorts_following htotal htrans hsorted
    obtain ⟨visited, hvisited, hexact⟩ := hall order horder
    exact clean_of_browse horder hn (fun a => (htotal a a).elim id id) htrans hties _ _ _ _ hnodup
      hperm hsorted hfollows hvisited hexact
  · intro hclean order horder
    exact browse_of_clean horder hn fuel rows hfuel hclean

end ElcareHub.Keyset
