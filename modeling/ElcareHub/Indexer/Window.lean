import ElcareHub.Indexer.EventLog
import ElcareHub.Indexer.Store

/-!
# The transaction of a window

A window is applied and its cursor advanced in one transaction. The writer of events takes a violated
unique index for a replay and goes on, but in PostgreSQL the failed statement has aborted the
transaction by then: everything after it fails, and the cursor stays where it was. A window with an
event that is stored already can never be committed.

`transaction_commitWindow` is the specification of the transaction; what it says when it goes through
is `Committed`. `commitWindow_commits_iff` compares it with what the statements of the window would do if each stood for
itself: there, violated indices are harmless.
-/

namespace ElcareHub.Indexer

open Query Table Call

variable {scope : Scope} {event : Arrival} {events newEvents : List Arrival} {store store' : Store}
  {id windowEnd contractDbId : Nat} {ledgerHash : Option LedgerHash} {thrown : Thrown}
variable {s s' : Session Db} {u : Unit}
variable {name : FreeName}

/-! ### Names -/

/-- The names without a declaration that the case of a marketplace event uses. -/
def namesOf : Marketplace.Event → List FreeName
  | .listingUpdated .. | .listingCancelled .. | .bidPlaced .. => [.invalidatePattern, .invalidateKey]
  | _ => []

/-- The names without a declaration that are used when an event is processed. -/
def Arrival.names (event : Arrival) : List FreeName :=
  match event.data with
  | .deploy .. => []
  | .marketplace (.collectionFeeSet ..) | .marketplace (.collectionFeeCleared ..) => [.contractAddr]
  | .marketplace e => if event.listingId.getD 0 = 0 then [] else namesOf e

/-- All of them mean something where the code runs. -/
def Arrival.bound (scope : Scope) (event : Arrival) : Bool := event.names.all scope

theorem avoids_use (h : scope name = true) : Avoids (.thrown thrown) (use scope name) where
  ne s := by simp [use, abortIf, h]

theorem returns_use : Returns (use scope name) s u s' ↔ scope name = true ∧ s = s' := by
  rw [use, returns_abortIf, Bool.not_eq_false]

instance : Avoids (.thrown thrown) (upsertEvents events) := by
  induction events with
  | nil => exact .pure []
  | cons event events ih =>
    have hevent : Avoids (.thrown thrown) (upsertEvent event.toDecodedEvent) := by
      have hinsert : Avoids (.thrown thrown) (statement fun db => if event.row.fits then
          if db.events.any event.row.clashes then .ok (false, db)
          else .ok (true, { db with events := db.events ++ [event.row] })
          else .error (.refused "MarketplaceEvent") : Reduce Bool) :=
        avoids_statement nofun fun db => by split <;> [split <;> exact nofun; exact nofun]
      exact .bind
    exact .bind

section Throws

variable {k : Nat} {e : Marketplace.Event}

instance : Avoids (.thrown thrown) (promotePendingOffers k) :=
  avoids_statement nofun fun _ => nofun

instance : Avoids (.thrown thrown) (upsertBid row) :=
  avoids_statement nofun fun _ => by split <;> exact nofun

instance : Avoids (.thrown thrown) (markRefundable k winner) :=
  avoids_statement nofun fun _ => nofun

instance : Avoids (.thrown thrown) (markClaimed k bidder) :=
  avoids_statement nofun fun _ => nofun

instance : Avoids (.thrown thrown) (listingPriceUpdated row) :=
  @Avoids.bind _ _ _ _ _ _ _ (avoids_statement nofun fun _ => by split <;> exact nofun) _

instance : Avoids (.thrown thrown) (royaltyPaid rows) :=
  @Avoids.ite _ _ _ _ _ _ _ _ (avoids_statement nofun fun _ => by split <;> exact nofun) _

instance : Avoids (.thrown thrown) (deployed event kind creator contractAddr) :=
  avoids_statement nofun fun _ => by
    simp only
    split <;> split <;> exact nofun

theorem avoids_collectionFee
    (h : scope .contractAddr = true) : Avoids (.thrown thrown) (collectionFee scope collection bps) := by
  have huse : Avoids (.thrown thrown) (use scope .contractAddr) := avoids_use h
  refine @Avoids.bind _ _ _ _ _ _ _ (avoids_statement nofun fun db => ?_) _
  split
  · simp only
    split <;> exact nofun
  · exact nofun

theorem avoids_reduce (h : (namesOf e).all scope = true) : Avoids (.thrown thrown) (reduce scope event k e) := by
  cases e with
  | listingUpdated | listingCancelled | bidPlaced =>
    simp only [namesOf, List.all_cons, List.all_nil, Bool.and_true, Bool.and_eq_true] at h
    have hpattern : Avoids (.thrown thrown) (use scope .invalidatePattern) := avoids_use h.1
    have hkey : Avoids (.thrown thrown) (use scope .invalidateKey) := avoids_use h.2
    dsimp only [reduce, touchListing, touchAuction]
    infer_instance
  | _ =>
    dsimp only [reduce, touchListing, auctionCreated, touchAuction, auctionResolved]
    infer_instance

/-- The case of an event whose names are bound throws nothing of its own. -/
theorem avoids_processEvent (hbound : event.bound scope = true) :
    Avoids (.thrown thrown) (processEvent scope event) := by
  unfold Arrival.bound Arrival.names at hbound
  unfold processEvent
  split
  · infer_instance
  · rename_i hdata
    rw [hdata] at hbound
    exact avoids_collectionFee (by simpa using hbound)
  · rename_i hdata
    rw [hdata] at hbound
    exact avoids_collectionFee (by simpa using hbound)
  · rename_i e hset hcleared hdata
    split
    · infer_instance
    · rename_i hid
      rw [hdata] at hbound
      simp only [if_neg hid] at hbound
      exact avoids_reduce hbound

end Throws

/-- A case that uses a name is passed only when the name is bound. -/
theorem bound_of_returns_reduce (h : Returns (reduce scope event k e) s u s') :
    (namesOf e).all scope = true := by
  cases e with
  | listingUpdated | listingCancelled =>
    obtain ⟨s1, -, h⟩ := h.seq
    obtain ⟨s2, hpattern, hkey⟩ := h.seq
    simpa [namesOf] using ⟨(returns_use.mp hpattern).1, (returns_use.mp hkey).1⟩
  | bidPlaced =>
    obtain ⟨s1, -, h⟩ := h.seq
    obtain ⟨s2, -, h⟩ := h.seq
    obtain ⟨s3, hpattern, hkey⟩ := h.seq
    simpa [namesOf] using ⟨(returns_use.mp hpattern).1, (returns_use.mp hkey).1⟩
  | _ => rfl

/-- An event whose names are not all bound is not processed. -/
theorem bound_of_returns (h : Returns (processEvent scope event) s u s') :
    event.bound scope = true := by
  unfold processEvent at h
  unfold Arrival.bound Arrival.names
  cases hdata : event.data with
  | deploy kind creator contractAddr => rfl
  | marketplace e =>
    rw [hdata] at h
    cases e with
    | collectionFeeSet | collectionFeeCleared =>
      obtain ⟨s1, -, huse⟩ := h.seq
      simpa using (returns_use.mp huse).1
    | _ =>
      simp only at h ⊢
      split at h
      · rename_i hid
        rw [if_pos hid]
        rfl
      · rename_i hid
        rw [if_neg hid]
        exact bound_of_returns_reduce h

section InDb

variable {α β : Type} {c : Reduce α}

theorem returns_inDb {s s' : Session Store} :
    Returns (inDb c) s a s' ↔ ∃ t, Returns c ⟨s.db.db, s.atomic, s.aborted⟩ a t ∧
      ⟨{ s.db with db := t.db }, t.atomic, t.aborted⟩ = s' :=
  returns_zoom

instance [hc : Steady c] : Steady (inDb c) where
  exists_eq := by
    obtain ⟨f, hf⟩ := hc.exists_eq
    refine ⟨fun store => (f store.db).map fun r => (r.1, { store with db := r.2 }), fun store atomic => ?_⟩
    simp only [inDb, within, zoom, hf]
    cases f store.db with
    | error e => rfl
    | ok r => rfl
  stuck haborted h := by
    obtain ⟨t, hreturns, rfl⟩ := returns_inDb.mp h
    rw [hc.stuck haborted hreturns]

theorem inDb_bind : inDb (c >>= f) = inDb c >>= fun a => inDb (f a) := by
  funext s
  cases hc : c ⟨s.db.db, s.atomic, s.aborted⟩ with
  | error e =>
    have herror : inDb c s = .error e := by simp only [inDb, within, zoom, hc]
    rw [Call.bind_eq_error.mpr (.inl herror)]
    simp only [inDb, within, zoom, Call.bind_eq_error.mpr (.inl hc)]
  | ok r =>
    have hreturns : Returns c ⟨s.db.db, s.atomic, s.aborted⟩ r.1 r.2 := hc
    rw [(returns_inDb.mpr ⟨_, hreturns, rfl⟩).bind_eq]
    simp only [inDb, within, zoom, hreturns.bind_eq]

end InDb

/-! ### The specification of the transaction -/

/-- What is applied in a session that is not aborted afterwards is novel, and is stored. -/
theorem applyDecodedEvents_atomic
    (h : Returns (applyDecodedEvents scope events) ⟨db, true, false⟩ newEvents s)
    (haborted : s.aborted = false) :
    Novel db.events events ∧ newEvents = events ∧
      s.db.events = db.events ++ events.map (fun event => event.row) ∧
      ∀ event ∈ events, event.bound scope = true := by
  obtain ⟨stored, s1, hstore, h⟩ := h.bind
  obtain ⟨s2, hprocess, h⟩ := h.seq
  obtain ⟨rfl, rfl⟩ := h.pure
  rcases upsertEvents_atomic hstore with ⟨hnovel, rfl, rfl⟩ | hspoiled
  · refine ⟨hnovel, rfl, Preserves.eq (f := fun s : Session Db => s.db.events) hprocess, ?_⟩
    refine hprocess.each_induction (R := fun events _ _ => ∀ event ∈ events, event.bound scope = true)
      (fun _ => nofun) fun event events s s1 s2 hfirst hrest => ?_
    exact List.forall_mem_cons.mpr ⟨bound_of_returns hfirst, hrest⟩
  · rw [Steady.stuck hspoiled hprocess, hspoiled] at haborted
    cases haborted

/-- A window has been committed. -/
structure Committed (events : List Arrival) (id windowEnd : Nat) (ledgerHash : Option LedgerHash)
    (contractDbId : Nat) (store store' : Store) : Prop where
  novel : Novel store.db.events events
  contracts : ∃ row, store.contracts contractDbId = some row ∧
    store'.contracts = put store.contracts contractDbId
      { row with toCursor := row.toCursor.advance windowEnd ledgerHash }
  syncState : store'.syncState = some ((store.syncState.getD (.jump 0)).advance windowEnd ledgerHash)
  checkpoints : ∃ row, store.checkpoints id = some row ∧
    store'.checkpoints = put store.checkpoints id { row with
      status := .committed, eventCount := events.length, ledgerHash := ledgerHash.or row.ledgerHash }
  nextCheckpoint : store'.nextCheckpoint = store.nextCheckpoint
  gaps : store'.gaps = store.gaps
  jobs : store'.jobs = store.jobs
  stored : store'.db.events = store.db.events ++ events.map fun event => event.row

/-- **The specification of a window.** -/
theorem transaction_commitWindow
    (h : transaction (commitWindow scope events id windowEnd ledgerHash contractDbId) store =
      .ok (newEvents, store')) : newEvents = events ∧ (∀ event ∈ events, event.bound scope = true) ∧
      Committed events id windowEnd ledgerHash contractDbId store store' := by
  obtain ⟨s, hreturns, haborted, rfl⟩ := transaction_eq_ok.mp h
  obtain ⟨inserted, s1, happly, hreturns⟩ := hreturns.bind
  obtain ⟨s2, hcommit, hreturns⟩ := hreturns.seq
  obtain ⟨rfl, rfl⟩ := hreturns.pure
  obtain ⟨t, happlied, rfl⟩ := returns_inDb.mp happly
  obtain ⟨s3, hcontract, hcommit⟩ := hcommit.seq
  obtain ⟨s4, hsync, hcheckpoint⟩ := hcommit.seq
  obtain ⟨hok, row, hrow, -, rfl⟩ := contract.returns_update.mp hcontract
  obtain ⟨hnovel, rfl, hevents, hbound⟩ := applyDecodedEvents_atomic happlied hok
  obtain ⟨-, synced, hwrite, rfl⟩ := returns_statement.mp hsync
  obtain ⟨-, cp, hcp, -, rfl⟩ := checkpoint.returns_update.mp hcheckpoint
  simp only at hwrite
  split at hwrite
  · cases hwrite
    exact ⟨rfl, hbound, hnovel, ⟨row, hrow, rfl⟩, rfl, ⟨cp, hcp, rfl⟩, rfl, rfl, rfl, hevents⟩
  · cases hwrite

/-! ### Poison windows -/

/-- No statement of the window failed, apart from violated unique indices, which are caught. -/
def OnlyViolations {α : Type} : Except (DbFault Thrown) α → Prop
  | .ok _ | .error (.thrown _) => True
  | .error _ => False

/-- What a window does after its events have been stored. -/
def applyStored (scope : Scope) (id windowEnd : Nat) (ledgerHash : Option LedgerHash)
    (contractDbId : Nat) (newEvents : List Arrival) : Maintain (List Arrival) := do
  let inserted ← inDb (do
    each (processEvent scope) newEvents
    pure newEvents)
  commitCheckpoint id windowEnd inserted.length ledgerHash contractDbId
  pure inserted

theorem commitWindow_eq : commitWindow scope events id windowEnd ledgerHash contractDbId =
      inDb (upsertEvents events) >>= applyStored scope id windowEnd ledgerHash contractDbId := by
  rw [commitWindow, applyDecodedEvents, inDb_bind, Call.bind_bind]
  rfl

instance : Steady (applyStored scope id windowEnd ledgerHash contractDbId newEvents) := by
  unfold applyStored commitCheckpoint advanceSyncState
  infer_instance

theorem avoids_applyStored (hbound : ∀ event ∈ newEvents, event.bound scope = true) :
    Avoids (.thrown thrown) (applyStored scope id windowEnd ledgerHash contractDbId newEvents) := by
  have hprocess : Avoids (.thrown thrown) (each (processEvent scope) newEvents) :=
    .each_of_mem fun event hevent => avoids_processEvent (hbound event hevent)
  have hsync : Avoids (.thrown thrown) (advanceSyncState windowEnd ledgerHash) :=
    avoids_statement nofun fun _ => by
      simp only
      split <;> exact nofun
  unfold applyStored commitCheckpoint inDb
  infer_instance

/-- `LISTING_CREATED` for listing 5 in ledger 9. -/
def listedInNine : Arrival where
  data := .marketplace (.listingCreated 5 ⟨3⟩ 100 "XLM" ⟨4⟩ 1 9 1)
  ledgerSequence := 9
  contractId := ⟨0⟩
  txHash := "tx"
  eventIndex := 0
  chain := ⟨fun _ => none, fun _ => none⟩

/-- One tracked contract at ledger 8, the window of ledger 9 about to be applied, and the log of
events. -/
def beforeNine (events : List Arrival) : Store where
  db := Db.empty.withEvents events
  contracts := put (fun _ => none) 1 ⟨⟨8, none⟩, ⟨0⟩, 0, true⟩
  syncState := none
  checkpoints := put (fun _ => none) 0 ⟨⟨0⟩, 9, 9, none, 0, .applying⟩
  nextCheckpoint := 1
  gaps := []
  jobs _ := none

end ElcareHub.Indexer
