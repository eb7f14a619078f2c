import ElcareHub.Marketplace.Book
import ElcareHub.Marketplace.Footprint

/-!
# Calls that leave the book alone

The frames of the refinement: checks, events, configuration, cursors, accounting totals, locks,
history indexes and the invocations of a collection change nothing the book keeps. Which components an
observation of the state ignores is said once; the frames of the programs then follow from their
footprints, by inference.
-/

namespace ElcareHub.Marketplace

open Call

-- the size of a frame counts double for every further statement of a program
variable {C : Type} {host : Host C} {env : Env}

/-! ### Observations -/

/-- What the book does not keep: configuration, cursors, accounting, locks and events, the bid
registers, the history indexes, and what happens in the tokens and collections themselves. -/
abbrev outsideBook : List Field :=
  [.config, .upkeep, .accounting, .locks, .auctionBids, .bidRefundRecord, .auctionBlockedBidders,
    .offerSupersededBy, .history, .events, .balances, .collections]

instance : Ignores (World.book (C := C)) World.field outsideBook where
  eq_of_outside {w w'} h := by
    have hsame := fields_eq h [.listingCount, .listing, .auctionCount, .auction, .offerCount, .offer,
      .listingPendingOffers, .counterOfferParent, .escrowedToken, .activeIndex, .activeListingPos,
      .staleSlots, .legacy, .transfers]
    simp only [List.forall_mem_cons, World.field] at hsame
    have hdeposited : w'.deposited = w.deposited := by
      funext p
      simp only [World.deposited, hsame]
    have hpaidOut : w'.paidOut = w.paidOut := by
      funext p
      simp only [World.paidOut, hsame]
    simp only [World.book, hsame, hdeposited, hpaidOut]

/-- Only the token movements write the transfer log. -/
instance : Ignores (World.transfers (C := C)) World.field
    ([.config, .upkeep, .legacy, .accounting, .escrowedToken, .history, .events, .collections] ++
      Field.tables ++ Field.background) where
  eq_of_outside h := h .transfers (by decide)

/-! ### The event log

Events are only ever added. -/

instance : Ignores (World.events (C := C)) World.field
    ([.config, .upkeep, .legacy, .accounting, .escrowedToken, .history, .collections, .transfers]
      ++ Field.tables ++ Field.background) where
  eq_of_outside h := h .events (by decide)

instance (e e' : Event) : Keeps World.events (e ∈ ·) (emit e' : Tx C Unit) where
  keeps h he := by
    rw [← h.update]
    exact List.mem_append_left _ he

/-! ### The book and the transfer log together -/

/-- The book and the movements it was booked from. -/
def World.ledger (w : World C) : Book × List Transfer := (w.book, w.transfers)

instance (priority := low) [Preserves World.book c]
    [Preserves World.transfers c] : Preserves World.ledger c where
  eq h := Prod.ext (Preserves.eq (f := World.book) h) (Preserves.eq (f := World.transfers) h)

/-! ### Paged indexes -/

/-- The indexes but the active one are one component. -/
theorem index_of_history {w w' : World C} (h : w'.field .history = w.field .history) {id : IndexId}
    (hid : id ≠ .activeListings) : w'.index id = w.index id := by
  have hat := congrFun h id
  simpa only [World.field, if_neg hid] using hat

/-- Appending to an index. -/
theorem returns_indexAppend {id : IndexId}
    (h : Returns (indexAppend id v : Tx C Unit) w u w') :
    ∃ ix, (w.index id).append v = some ix ∧
      w' = { w with index := Function.update w.index id ix } := by
  obtain ⟨ix', happend, h⟩ := h.found
  exact ⟨ix', happend, (h.update).symm⟩

end ElcareHub.Marketplace
