import ElcareHub.Indexer.Reducer

/-!
# Cursors, checkpoints and gaps

The tables around the projection: the cursors of the tracked contracts, the shared `SyncState`, the
checkpoints of polled windows, the ledger gaps and the backfill jobs. Two transactions write them
together with the projection: the commit of a window (`checkpoint.ts`) and the rollback after a
reorganisation (`revertLedgers` of `poller.ts` with `rollbackReorg` of `reorg.ts`).

`poller.ts` does not import the functions of `checkpoint.ts` it calls, and assigns to a constant; both
are read as they are meant. The rollback deletes price history by a column the table does not have;
the column stands among the names of a `Scope`, so that the rollback of the file as it stands throws,
and in a scope that has the column it deletes the changes made above the safe ledger.

Deployment fees and whitelisted tokens are left out, as nothing that is modelled writes them.
-/

namespace ElcareHub.Indexer

open Query

/-! ### Rows -/

/-- The hash of a ledger, which is never the empty text. -/
structure LedgerHash where
  digest : Nat
  deriving DecidableEq

/-- The columns `lastLedger` and `lastLedgerHash`. -/
structure Cursor where
  lastLedger : Nat
  lastLedgerHash : Option LedgerHash

/-- `buildSyncStateLedgerData`: a hash that could not be fetched leaves the one that was there. -/
def Cursor.advance (cursor : Cursor) (lastLedger : Nat) (ledgerHash : Option LedgerHash) : Cursor :=
  ⟨lastLedger, ledgerHash.or cursor.lastLedgerHash⟩

/-- The cursor is moved, and the hash is cleared. -/
def Cursor.jump (lastLedger : Nat) : Cursor := ⟨lastLedger, none⟩

def Cursor.fits (cursor : Cursor) : Bool := isInt cursor.lastLedger

/-- `TrackedContract`. -/
structure ContractRow extends Cursor where
  contractId : Address
  startLedger : Nat
  active : Bool

inductive CheckpointStatus
  | fetched | applying | committed | failed

/-- `LedgerCheckpoint`. -/
structure CheckpointRow where
  contractId : Address
  windowStart : Nat
  windowEnd : Nat
  ledgerHash : Option LedgerHash
  eventCount : Nat
  status : CheckpointStatus

def CheckpointRow.fits (row : CheckpointRow) : Bool :=
  isInt row.windowStart && isInt row.windowEnd && isInt row.eventCount

inductive LedgerGapSource
  | rpcWindowSkip | reorg | manual

inductive LedgerGapStatus
  | opened | repairing | repaired | failed

/-- `LedgerGap`. The range and the source are unique. -/
structure GapRow where
  fromLedger : Nat
  toLedger : Nat
  source : LedgerGapSource
  status : LedgerGapStatus

inductive BackfillJobStatus
  | pending | running | completed | failed | cancelled

/-- `BackfillJob`. -/
structure JobRow where
  startLedger : Nat
  endLedger : Nat
  checkpointLedger : Nat
  status : BackfillJobStatus
  totalInserted : Nat

/-- The database. -/
structure Store where
  db : Db
  contracts : Nat → Option ContractRow
  syncState : Option Cursor
  checkpoints : Nat → Option CheckpointRow
  nextCheckpoint : Nat
  gaps : List GapRow
  jobs : Nat → Option JobRow

abbrev Maintain (α : Type) : Type := Query Thrown Store α

def contract : Model Store ContractRow where
  name := "TrackedContract"
  rows := Store.contracts
  save t store := { store with contracts := t }
  fits row := row.toCursor.fits
  save_rows _ := rfl

def checkpoint : Model Store CheckpointRow where
  name := "LedgerCheckpoint"
  rows := Store.checkpoints
  save t store := { store with checkpoints := t }
  fits := CheckpointRow.fits
  save_rows _ := rfl

/-- Work on the projection. -/
def inDb {α : Type} (c : Reduce α) : Maintain α :=
  within Store.db (fun db store => { store with db }) c

/-! ### Windows -/

/-- The upsert of `SyncState`. -/
def advanceSyncState (lastLedger : Nat) (ledgerHash : Option LedgerHash) : Maintain Unit :=
  statement fun store =>
    let cursor := (store.syncState.getD (.jump 0)).advance lastLedger ledgerHash
    if cursor.fits then .ok ((), { store with syncState := some cursor })
    else .error (.refused "SyncState")

def commitCheckpoint (id windowEnd eventCount : Nat) (ledgerHash : Option LedgerHash)
    (contractDbId : Nat) : Maintain Unit := do
  contract.update contractDbId fun row =>
    { row with toCursor := row.toCursor.advance windowEnd ledgerHash }
  advanceSyncState windowEnd ledgerHash
  checkpoint.update id fun row =>
    { row with status := .committed, eventCount, ledgerHash := ledgerHash.or row.ledgerHash }

/-- The transaction of a window: the events are applied, and the cursor advances with them. -/
def commitWindow (scope : Scope) (events : List Arrival) (id windowEnd : Nat)
    (ledgerHash : Option LedgerHash) (contractDbId : Nat) : Maintain (List Arrival) := do
  let inserted ← inDb (applyDecodedEvents scope events)
  commitCheckpoint id windowEnd inserted.length ledgerHash contractDbId
  pure inserted

/-! ### Rollback -/

/-- Rows created above a ledger are deleted. -/
def dropAbove {Row : Type} (createdAtLedger : Row → Nat) (safe : Nat) (t : Nat → Option Row) :
    Nat → Option Row :=
  fun k => (t k).filter fun row => decide (createdAtLedger row ≤ safe)

/-- Rows changed above a ledger are set back. -/
def resetAbove {Row : Type} (updatedAtLedger : Row → Nat) (reset : Row → Row) (safe : Nat)
    (t : Nat → Option Row) : Nat → Option Row :=
  fun k => (t k).map fun row => if safe < updatedAtLedger row then reset row else row

/-- A statement that cannot fail. -/
def edit (f : Db → Db) : Reduce Unit := statement fun db => .ok ((), f db)

/-- `bid.deleteMany`. -/
def revertBids (safe : Nat) : Reduce Unit :=
  edit fun db => { db with bids := db.bids.filter fun row => decide (row.ledgerSequence ≤ safe) }

/-- `rollbackReorg`: offers that changed are pending again. -/
def rollbackReorg (safe : Nat) : Reduce Unit := do
  edit fun db => { db with
    offers := resetAbove OfferRow.updatedAtLedger
      (fun row => { row with status := .pending, updatedAtLedger := safe }) safe db.offers }
  revertBids safe

/-- The statements of `revertLedgers` before the cursor is reset. -/
def revertRows (scope : Scope) (safe : Nat) : Reduce Unit := do
  edit fun db => { db with events := db.events.filter fun row => decide (row.ledgerSequence ≤ safe) }
  revertBids safe
  use scope .priceHistoryLedgerSequence
  edit fun db => { db with
    priceHistory := db.priceHistory.filter fun row => decide (row.changedAtLedger ≤ safe) }
  edit fun db => { db with
    royaltyPayments := db.royaltyPayments.filter fun row => decide (row.ledgerSequence ≤ safe) }
  edit fun db => { db with listings := dropAbove ListingRow.createdAtLedger safe db.listings }
  edit fun db => { db with
    listings := resetAbove ListingRow.updatedAtLedger
      (fun row => { row with status := .active, updatedAtLedger := safe }) safe db.listings }
  edit fun db => { db with auctions := dropAbove AuctionRow.createdAtLedger safe db.auctions }
  edit fun db => { db with
    auctions := resetAbove AuctionRow.updatedAtLedger
      (fun row => { row with status := .active, updatedAtLedger := safe }) safe db.auctions }
  edit fun db => { db with
    collections := fun address =>
      (db.collections address).filter fun row => decide (row.deployedAtLedger ≤ safe) }

/-- `revertLedgers`: the transaction of a rollback. -/
def revertLedgers (scope : Scope) (safe : Nat) : Maintain Unit := do
  inDb (revertRows scope safe)
  statement fun store =>
    if store.syncState.isSome then
      if (Cursor.jump safe).fits then .ok ((), { store with syncState := some (.jump safe) })
      else .error (.refused "SyncState")
    else .error (.missing "SyncState")
  inDb (rollbackReorg safe)
  inDb (edit fun db => { db with
    pendingOffers := dropAbove PendingOfferRow.createdAtLedger safe db.pendingOffers })

end ElcareHub.Indexer
