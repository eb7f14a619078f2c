import ElcareHub.Indexer.Reducer

/-!
# The event log

What `upsertEvents` does to the event table, in a transaction and outside of one, and that nothing
else of the reduction touches it. An event is *novel* when it violates no unique index, neither with a
stored event nor with an earlier event of its batch. A batch of novel events is stored as a whole; in a
transaction a batch with an event that is not novel leaves the transaction aborted.
-/

namespace ElcareHub.Indexer

open Query Call

variable {scope : Scope} {event : Arrival} {events newEvents : List Arrival} {rows : List EventRow}
  {db db' : Db} {s s' : Session Db}

/-! ### Rows that clash -/

theorem EventRow.sameKey_comm (row row' : EventRow) : row.sameKey row' = row'.sameKey row := by
  rw [Bool.eq_iff_iff]
  simp only [sameKey, Bool.and_eq_true, decide_eq_true_eq]
  constructor
  · rintro ⟨⟨⟨hsome, hid⟩, htype⟩, hledger⟩
    exact ⟨⟨⟨hid ▸ hsome, hid.symm⟩, htype.symm⟩, hledger.symm⟩
  · rintro ⟨⟨⟨hsome, hid⟩, htype⟩, hledger⟩
    exact ⟨⟨⟨hid ▸ hsome, hid.symm⟩, htype.symm⟩, hledger.symm⟩

/-- What `upsertEvent` does. A violated index is a failed statement: in a transaction it leaves the
session aborted. -/
theorem returns_upsertEvent {event : DecodedEvent} :
    Returns (upsertEvent event) s b s' ↔ s.aborted = false ∧ event.row.fits = true ∧
        if s.db.events.any event.row.clashes then b = false ∧ { s with aborted := s.atomic } = s'
        else b = true ∧ { s with db := { s.db with events := s.db.events ++ [event.row] } } = s' := by
  simp only [upsertEvent, returns_bind, returns_statement]
  cases hfits : event.row.fits with
  | false => simp
  | true =>
    cases hclash : s.db.events.any event.row.clashes with
    | true =>
      simp only [true_and]
      constructor
      · rintro ⟨inserted, s1, ⟨haborted, db, hf, rfl⟩, hrest⟩
        obtain ⟨rfl, rfl⟩ := Prod.mk.inj (Except.ok.inj hf)
        obtain ⟨s2, hspoil, hpure⟩ := hrest.seq
        obtain ⟨rfl, rfl⟩ := hpure.pure
        exact ⟨haborted, rfl, hspoil.update⟩
      · rintro ⟨haborted, rfl, rfl⟩
        exact ⟨false, s, ⟨haborted, s.db, rfl, rfl⟩, returns_seq.mpr
          ⟨_, returns_update.mpr rfl, returns_pure.mpr ⟨rfl, rfl⟩⟩⟩
    | false =>
      simp only [true_and]
      constructor
      · rintro ⟨inserted, s1, ⟨haborted, db, hf, rfl⟩, hrest⟩
        obtain ⟨rfl, rfl⟩ := Prod.mk.inj (Except.ok.inj hf)
        obtain ⟨rfl, rfl⟩ := hrest.pure
        exact ⟨haborted, rfl, rfl⟩
      · rintro ⟨haborted, rfl, rfl⟩
        exact ⟨true, _, ⟨haborted, _, rfl, rfl⟩, returns_pure.mpr ⟨rfl, rfl⟩⟩

/-- What is stored without an error fits. -/
theorem fits_of_upsertEvents
    (h : Returns (upsertEvents events) s newEvents s') : ∀ event ∈ events, event.row.fits = true := by
  induction events generalizing s s' newEvents with
  | nil => exact fun _ hmem => absurd hmem List.not_mem_nil
  | cons event events ih =>
    obtain ⟨inserted, s1, hfirst, hrest⟩ := h.bind
    obtain ⟨rest, s2, hevents, -⟩ := hrest.bind
    intro x hx
    rcases List.mem_cons.mp hx with rfl | hmem
    · exact (returns_upsertEvent.mp hfirst).2.1
    · exact ih hevents x hmem

/-! ### Novel events -/

/-- No event violates an index, with a stored event or with an earlier one. -/
def Novel (rows : List EventRow) (events : List Arrival) : Prop :=
  (∀ event ∈ events, rows.any event.row.clashes = false) ∧
    events.Pairwise fun event event' => event'.row.clashes event.row = false

instance : Decidable (Novel rows events) := inferInstanceAs (Decidable (_ ∧ _))

theorem novel_cons : Novel rows (event :: events) ↔
      rows.any event.row.clashes = false ∧ Novel (rows ++ [event.row]) events := by
  have hany : ∀ e : Arrival, (rows ++ [event.row]).any e.row.clashes = false ↔
      rows.any e.row.clashes = false ∧ e.row.clashes event.row = false := by
    intro e
    rw [List.any_append, Bool.or_eq_false_iff, List.any_cons, List.any_nil, Bool.or_false]
  simp only [Novel, List.forall_mem_cons, List.pairwise_cons, hany]
  constructor
  · rintro ⟨⟨hfirst, hrows⟩, hevent, hpair⟩
    exact ⟨hfirst, fun e he => ⟨hrows e he, hevent e he⟩, hpair⟩
  · rintro ⟨hfirst, hrows, hpair⟩
    exact ⟨⟨hfirst, fun e he => (hrows e he).1⟩, fun e he => (hrows e he).2, hpair⟩

/-- The database with the events stored. -/
def Db.withEvents (db : Db) (events : List Arrival) : Db :=
  { db with events := db.events ++ events.map fun event => event.row }

theorem Db.withEvents_cons :
    ({ db with events := db.events ++ [event.row] } : Db).withEvents events =
      db.withEvents (event :: events) := by
  simp only [withEvents, List.map_cons, List.append_assoc, List.singleton_append]

/-- Novel events that fit are stored, and all of them are new. -/
theorem returns_upsertEvents (hfits : ∀ event ∈ events, event.row.fits = true)
    (hnovel : Novel db.events events) : Returns (upsertEvents events) ⟨db, atomic, false⟩ events
      ⟨db.withEvents events, atomic, false⟩ := by
  induction events generalizing db with
  | nil =>
    rw [Db.withEvents, List.map_nil, List.append_nil]
    exact returns_pure.mpr ⟨rfl, rfl⟩
  | cons event events ih =>
    obtain ⟨hfresh, hrest⟩ := novel_cons.mp hnovel
    have hinsert : Returns (upsertEvent event.toDecodedEvent) ⟨db, atomic, false⟩ true
        ⟨{ db with events := db.events ++ [event.row] }, atomic, false⟩ := by
      refine returns_upsertEvent.mpr ⟨rfl, hfits event List.mem_cons_self, ?_⟩
      rw [hfresh]
      exact ⟨rfl, rfl⟩
    have hstored := ih (fun x hx => hfits x (List.mem_cons_of_mem _ hx))
      (show Novel ({ db with events := db.events ++ [event.row] } : Db).events events from hrest)
    rw [Db.withEvents_cons] at hstored
    exact returns_bind.mpr ⟨true, _, hinsert, returns_bind.mpr
      ⟨events, _, hstored, returns_pure.mpr ⟨rfl, rfl⟩⟩⟩

/-- In an aborted session nothing is stored any more. -/
theorem upsertEvents_stuck (haborted : s.aborted = true)
    (h : Returns (upsertEvents events) s newEvents s') : s' = s := by
  cases events with
  | nil => exact (h.pure).2.symm
  | cons event events =>
    obtain ⟨inserted, s1, hfirst, -⟩ := h.bind
    rw [(returns_upsertEvent.mp hfirst).1] at haborted
    cases haborted

/-- In a transaction a batch is stored as a whole, or the transaction is aborted. -/
theorem upsertEvents_atomic (h : Returns (upsertEvents events) ⟨db, true, false⟩ newEvents s') :
    (Novel db.events events ∧ newEvents = events ∧ s' = ⟨db.withEvents events, true, false⟩) ∨
      s'.aborted = true := by
  induction events generalizing db newEvents s' with
  | nil =>
    obtain ⟨rfl, rfl⟩ := h.pure
    refine .inl ⟨⟨nofun, .nil⟩, rfl, ?_⟩
    rw [Db.withEvents, List.map_nil, List.append_nil]
  | cons event events ih =>
    obtain ⟨inserted, s1, hfirst, hrest⟩ := h.bind
    obtain ⟨rest, s2, hevents, hpure⟩ := hrest.bind
    obtain ⟨rfl, rfl⟩ := hpure.pure
    obtain ⟨-, -, hcase⟩ := returns_upsertEvent.mp hfirst
    split at hcase
    · -- a violated index: what follows changes nothing any more
      obtain ⟨rfl, rfl⟩ := hcase
      exact .inr (upsertEvents_stuck rfl hevents ▸ rfl)
    · rename_i hfresh
      obtain ⟨rfl, rfl⟩ := hcase
      rcases ih hevents with ⟨hnovel, rfl, rfl⟩ | haborted
      · refine .inl ⟨novel_cons.mpr ⟨Bool.not_eq_true _ ▸ hfresh, hnovel⟩, rfl, ?_⟩
        rw [Db.withEvents_cons]
      · exact .inr haborted

/-! ### What the reduction does not do -/

section Frames

variable {k : Nat} {e : Marketplace.Event}

/-- Nothing but the storing of events catches a failure. -/
instance : Steady (reduce scope event k e) := by
  unfold reduce auctionCreated listingPriceUpdated touchListing touchAuction upsertBid auctionResolved
    markRefundable markClaimed royaltyPaid
  split <;> infer_instance

instance : Steady (processEvent scope event) := by
  unfold processEvent deployed collectionFee
  split <;> infer_instance

abbrev KeepsEvents (c : Reduce α) : Prop := Preserves (fun s : Session Db => s.db.events) c

instance : listing.Spares Db.events := ⟨fun _ _ => rfl⟩

instance : auction.Spares Db.events := ⟨fun _ _ => rfl⟩

instance : offer.Spares Db.events := ⟨fun _ _ => rfl⟩

instance : pendingOffer.Spares Db.events := ⟨fun _ _ => rfl⟩

instance : KeepsEvents (promotePendingOffers k) :=
  preserves_statement fun _ _ _ h => by cases h; rfl

instance : KeepsEvents (upsertBid row) :=
  preserves_statement fun _ _ _ h => by split at h <;> cases h; rfl

instance : KeepsEvents (markRefundable k winner) :=
  preserves_statement fun _ _ _ h => by cases h; rfl

instance : KeepsEvents (markClaimed k bidder) :=
  preserves_statement fun _ _ _ h => by cases h; rfl

instance : KeepsEvents (listingPriceUpdated row) :=
  @Preserves.bind _ _ _ _ _ _ _ _
    (preserves_statement fun _ _ _ h => by split at h <;> cases h; rfl) _

instance {rows : List RoyaltyPaymentRow} : KeepsEvents (royaltyPaid rows) :=
  @Preserves.ite _ _ _ _ _ _ _ _ _
    (preserves_statement fun _ _ _ h => by split at h <;> cases h; rfl) _

instance : KeepsEvents (deployed event kind creator contractAddr) :=
  preserves_statement fun _ _ _ h => by
    simp only at h
    split at h <;> split at h <;> cases h <;> rfl

instance : KeepsEvents (collectionFee scope collection bps) := by
  refine @Preserves.bind _ _ _ _ _ _ _ _ (preserves_statement fun _ _ _ h => ?_) _
  split at h
  · simp only at h
    split at h <;> cases h
    rfl
  · cases h
    rfl

/-- Once stored, events are only read. -/
instance : KeepsEvents (reduce scope event k e) := by
  unfold reduce auctionCreated touchListing touchAuction auctionResolved
  split <;> infer_instance

instance : KeepsEvents (processEvent scope event) := by
  unfold processEvent
  split <;> infer_instance

end Frames

end ElcareHub.Indexer
