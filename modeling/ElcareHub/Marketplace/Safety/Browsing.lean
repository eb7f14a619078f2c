import ElcareHub.Marketplace.Safety.ActiveListings

/-!
# Browsing the active listings

A client of `get_listings_paginated` begins at zero and goes on at the cursor that it was given. Whatever
limits it asks for, in a state that does not change meanwhile it is shown every active listing once.
-/

namespace ElcareHub.Marketplace

variable {C : Type} {host : Host C} {w : World C} {xs limits : List Nat} {start limit : Nat}

def maxPageLimit : Nat := 100

/-- `get_listings_paginated`; `none` when `start + effective_limit` leaves `u32`. -/
def World.getListingsPaginated (w : World C) (start limit : Nat) : Option (List Listing × Nat) :=
  if limit = 0 then some ([], start)
  else
    let effectiveLimit := min limit maxPageLimit
    let total := (w.index .activeListings).len
    if start ≥ total then some ([], start)
    else if start + effectiveLimit ≤ u32Max then do
      let stop := min (start + effectiveLimit) total
      let ids ← (w.index .activeListings).range start (stop - start)
      some (ids.filterMap w.listing, stop)
    else none

/-- What the calls along the cursors answer together, and the last cursor. -/
def World.followCursors (w : World C) (start : Nat) : List Nat → Option (List Listing × Nat)
  | [] => some ([], start)
  | limit :: limits => do
    let (page, cursor) ← w.getListingsPaginated start limit
    let (pages, last) ← w.followCursors cursor limits
    some (page ++ pages, last)

/-- A page has the next elements of the index, at least one of them unless none is left. -/
theorem getListingsPaginated_eq (h : (w.index .activeListings).Lists xs) (hfew : xs.length + maxPageLimit ≤ u32Max)
    (hlimit : 0 < limit) (hstart : start ≤ xs.length) : ∃ n, start + n ≤ xs.length ∧ (start < xs.length → 0 < n) ∧
      w.getListingsPaginated start limit = some (((xs.drop start).take n).filterMap w.listing, start + n) := by
  have hmax : 0 < maxPageLimit := by decide
  rw [World.getListingsPaginated, if_neg (by omega), h.len]
  dsimp only
  split
  · exact ⟨0, by omega, by omega, rfl⟩
  · refine ⟨min (start + min limit maxPageLimit) xs.length - start, by omega, by omega, ?_⟩
    rw [if_pos (by omega), h.range_eq (by omega), Nat.add_sub_cancel' (by omega)]
    rfl

/-- The cursors walk through the index. -/
theorem followCursors_eq (h : (w.index .activeListings).Lists xs) (hfew : xs.length + maxPageLimit ≤ u32Max)
    (hstart : start ≤ xs.length) (hlimits : ∀ limit ∈ limits, 0 < limit) (hcalls : xs.length ≤ start + limits.length) :
    w.followCursors start limits = some ((xs.drop start).filterMap w.listing, xs.length) := by
  induction limits generalizing start with
  | nil =>
    obtain rfl : start = xs.length := Nat.le_antisymm hstart hcalls
    simp [World.followCursors]
  | cons limit limits ih =>
    rw [List.length_cons] at hcalls
    rw [List.forall_mem_cons] at hlimits
    obtain ⟨n, hn, hmore, hpage⟩ := getListingsPaginated_eq h hfew hlimits.1 hstart
    simp [World.followCursors, hpage, ih hn hlimits.2 (by omega), ← List.filterMap_append, ← List.drop_drop]

end ElcareHub.Marketplace
