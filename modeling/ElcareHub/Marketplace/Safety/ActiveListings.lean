import ElcareHub.Marketplace.Refine.Steps

/-!
# The active-listing index is exact

A listing enters the index when it is created and leaves it with the write that ends its active
status. The position keys stay the inverse of the paged list, so that a removal finds its slot and
the defensive exit of `remove_from_active_listings` is dead code.
-/

namespace ElcareHub.Marketplace

/-- The listing `k` is active. -/
def Book.OnMarket (b : Book) (k : Nat) : Prop := ∃ l, b.listing k = some l ∧ l.status = .active

/-- The index holds exactly the active listings, and no removal has missed its slot. -/
structure Book.Indexes (b : Book) (xs : List Nat) : Prop where
  lists : b.active.Lists xs
  exact : ∀ k, k ∈ xs ↔ b.OnMarket k
  stale : b.active.stale = 0

namespace Book

variable {b b' : Book} {k : Nat} {xs : List Nat}

/-- Saving listing `k` decides whether `k` is on the market, and nothing else. -/
theorem onMarket_of_setListing
    (h : b'.listing = Function.update b.listing k (some l)) :
    b'.OnMarket j ↔ if j = k then l.status = .active else b.OnMarket j := by
  unfold OnMarket
  rw [h]
  by_cases hj : j = k <;> simp [hj]

theorem Indexes.empty : Book.empty.Indexes [] where
  lists := ActiveIndex.lists_empty
  exact k := by simp [OnMarket, Book.empty]
  stale := rfl

theorem Indexes.of_same (h : b.Indexes xs) (hlisting : b'.listing = b.listing)
    (hactive : b'.active = b.active) : b'.Indexes xs where
  lists := hactive ▸ h.lists
  exact k := (h.exact k).trans (by rw [OnMarket, OnMarket, hlisting])
  stale := hactive ▸ h.stale

/-- A listing closes and leaves the index. -/
theorem Indexes.closeListing (h : b.Indexes xs) {b1 : Book} {active : ActiveIndex}
    (hlisting : b.listing k = some l) (hactive : l.status = .active) (hclosed : l'.status ≠ .active)
    (hremove : b.active.remove k = some active) (hb1 : b1.listing = b.listing) :
    ∃ ys, (b1.closeListing k l' active).Indexes ys := by
  obtain ⟨active', ys, hremove', hlists, hstale, hmem⟩ :=
    h.lists.remove ((h.exact k).mpr ⟨l, hlisting, hactive⟩)
  obtain rfl : active' = active := Option.mem_unique hremove' hremove
  refine ⟨ys, hlists, fun j => ?_, hstale.trans h.stale⟩
  have hupdate : (b1.closeListing k l' active').listing = Function.update b.listing k (some l') := by
    rw [← hb1]
    rfl
  rw [hmem, h.exact, onMarket_of_setListing hupdate]
  by_cases hj : j = k <;> simp [hj, hclosed]

end Book

/-- Every move keeps the index exact. -/
theorem Move.indexes (hm : Move kind b b') (hkeyed : b.Keyed)
    (h : ∃ xs, b.Indexes xs) : ∃ xs, b'.Indexes xs := by
  obtain ⟨xs, h⟩ := h
  cases hm with
  | openListing l active hid hactive _ hadd =>
    have hnew : l.listingId ∉ xs := by
      rw [h.exact]
      rintro ⟨l', hl', -⟩
      have := (hkeyed.listing hl').2
      omega
    obtain ⟨hlists, hstale⟩ := h.lists.add hnew hadd
    refine ⟨xs ++ [l.listingId], hlists, fun j => ?_, hstale.trans h.stale⟩
    rw [Book.onMarket_of_setListing rfl, List.mem_append, h.exact]
    by_cases hj : j = l.listingId <;> simp [hj, hactive]
  | editListing k l l' hlisting _ hstatus =>
    refine ⟨xs, h.lists, fun j => ?_, h.stale⟩
    rw [Book.onMarket_of_setListing rfl, h.exact]
    by_cases hj : j = k
    · simp [hj, hstatus, Book.OnMarket, hlisting]
    · simp [hj]
  | retire k l l' active b1 hlisting hactive _ hclosed hremove hpayment =>
    exact h.closeListing hlisting hactive hclosed hremove hpayment.listing_eq.1
  | abandon k l l' active hlisting hactive _ hclosed hremove _ =>
    exact h.closeListing hlisting hactive hclosed hremove rfl
  | openAuction a _ _ _ _ _ => exact ⟨xs, h.of_same rfl rfl⟩
  | editAuction k a a' _ _ _ _ _ => exact ⟨xs, h.of_same rfl rfl⟩
  | bid k a a' _ _ _ _ _ _ => exact ⟨xs, h.of_same rfl rfl⟩
  | closeAuction k a a' _ _ _ _ => exact ⟨xs, h.of_same rfl rfl⟩
  | losingRefund k a x _ _ _ => exact ⟨xs, h.of_same rfl rfl⟩
  | makeOffer o l _ _ _ _ _ => exact ⟨xs, h.of_same rfl rfl⟩
  | closeOffer i o status _ _ _ => exact ⟨xs, h.of_same rfl rfl⟩
  | counterOffer o l parent _ _ _ _ _ => exact ⟨xs, h.of_same rfl rfl⟩
  | claimRoyalty settlementId isListing token x => exact ⟨xs, h.of_same rfl rfl⟩

/-! ### Every reachable state -/

variable {C : Type} {host : Host C}

theorem Reachable.indexes (hreach : Reachable host w) : ∃ xs, w.book.Indexes xs :=
  hreach.invariant ⟨[], .empty⟩ fun _ _ _ hm hkeyed hb => hm.indexes hkeyed hb

/-- **The index is exact.** After every run, the pages of the index read back as a list that holds
the id of every active listing once and no other id, the position key of an id is its position in
that list, the slot a position key points to holds the id of the key (so that the next removal does
not take the defensive exit), and no removal has ever taken it. -/
theorem active_listing_index_exact (host : Host C) (balances : Address × Address → Int)
    (collections : C) (steps : List (Step C)) :
    let w := run host (.fresh balances collections) steps
    ∃ xs, (w.index .activeListings).all = some xs ∧ xs.Nodup ∧
      (∀ k, k ∈ xs ↔ ∃ l, w.listing k = some l ∧ l.status = .active) ∧
      (∀ k, (w.activeListingPos k).isSome ↔ ∃ l, w.listing k = some l ∧ l.status = .active) ∧
      (∀ k p, w.activeListingPos k = some p ↔ xs[p]? = some k) ∧
      (∀ k p, w.activeListingPos k = some p → (w.index .activeListings).get p = some k) ∧
      w.staleSlots = 0 := by
  intro w
  obtain ⟨xs, h⟩ := (reachable_run host balances collections steps).indexes
  refine ⟨xs, h.lists.paged.all_eq h.lists.bound, h.lists.nodup, h.exact,
    fun k => h.lists.isSome_pos_iff.trans (h.exact k), h.lists.pos, fun k p hp => ?_, h.stale⟩
  exact (h.lists.paged.get_eq p).trans ((h.lists.pos k p).mp hp)

end ElcareHub.Marketplace
