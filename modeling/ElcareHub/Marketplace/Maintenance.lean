import ElcareHub.Marketplace.Escrow

/-!
# Maintenance and migration

The bounded sweeps (`extend_active_ttls`, `cleanup_expired_locks`, `renew_storage`,
`cleanup_terminal_records`) and the migration of the pre-1.1.0 index vectors. Storage lifetimes are
not part of the state: what these entry points read, count, report and move is.
-/

namespace ElcareHub.Marketplace

open Call

variable {C : Type} (env : Env)

def maxMaintenanceItems : Nat := 100
def contractVersion : String := "1.1.0"

/-- Report an inconsistency. -/
abbrev emitAnomaly (subject : Symbol) (id : Nat) : Tx C Unit :=
  emit (.ttlAnomaly subject id env.sequence)

/-- Report an inconsistency when `c` holds. -/
abbrev emitAnomalyIf (c : Prop) [Decidable c] (subject : Symbol) (id : Nat) : Tx C Unit :=
  when c (emitAnomaly env subject id)

/-! ### TTL sweep -/

/-- The listing visited at position `pos` of the active index is reported unless it is active. -/
def ttlVisitListing (pos : Nat) : Tx C Unit := do
  let entry ← indexGet .activeListings pos
  onSome entry fun listingId => do
    let stored ← loadListing listingId
    emitAnomalyIf env (stored.all (fun l => decide (l.status ≠ .active)) = true) "listing" listingId

/-- A missing auction record is reported. -/
def ttlVisitAuction (auctionId : Nat) : Tx C Unit := do
  let stored ← loadAuction auctionId
  emitAnomalyIf env (stored.isNone = true) "auction" auctionId

/-- The loop of `extend_active_ttls`. Every round either visits a record or toggles the phase, so
`fuel = cap + 4` rounds are enough. -/
def ttlSweep (cap totalListings totalAuctions : Nat) :
    (fuel : Nat) → TtlSweepProgress → (processed toggles : Nat) → Tx C (TtlSweepProgress × Nat)
  | 0, progress, processed, _ => pure (progress, processed)
  | fuel + 1, progress, processed, toggles =>
    if processed < cap ∧ toggles < 4 then
      if progress.phase = 0 then
        if totalListings = 0 ∨ progress.cursor ≥ totalListings then
          ttlSweep cap totalListings totalAuctions fuel ⟨1, 0⟩ processed (toggles + 1)
        else do
          ttlVisitListing env progress.cursor
          ttlSweep cap totalListings totalAuctions fuel ⟨0, progress.cursor + 1⟩ (processed + 1)
            toggles
      else
        if totalAuctions = 0 ∨ progress.cursor ≥ totalAuctions then
          ttlSweep cap totalListings totalAuctions fuel ⟨0, 0⟩ processed (toggles + 1)
        else do
          ttlVisitAuction env (progress.cursor + 1)
          ttlSweep cap totalListings totalAuctions fuel ⟨progress.phase, progress.cursor + 1⟩
            (processed + 1) toggles
    else pure (progress, processed)

abbrev extendActiveTtls (admin : Address) (maxItems : Nat) : Tx C Nat := do
  requireRole env admin .protocolConfig
  let budgetCap := min maxItems maxMaintenanceItems
  let totalListings ← indexLen .activeListings
  let totalAuctions ← view fun w => w.auctionCount
  if budgetCap = 0 ∨ (totalListings = 0 ∧ totalAuctions = 0) then pure 0
  else do
    let progress ← view fun w => w.upkeep.ttlSweepState.getD ⟨0, 0⟩
    let (progress', processed) ←
      ttlSweep env budgetCap totalListings totalAuctions (budgetCap + 4) progress 0 0
    modifyUpkeep fun u => { u with ttlSweepState := some progress' }
    emit (.cleanupSummary "ttl_extend" processed env.sequence)
    pure processed

/-! ### Lock cleanup -/

/-- Clear one listing lock; whether there was one. -/
abbrev cleanupListingLock (listingId : Nat) : Tx C Bool := do
  let held ← view fun w => w.locks.listing listingId
  if held then do
    let stored ← loadListing listingId
    emitAnomalyIf env (stored.any (fun l => decide (l.status = .active)) = true) "active_lock"
      listingId
    releaseListingLock listingId
    pure true
  else pure false

/-- Clear one auction lock; whether there was one. -/
abbrev cleanupAuctionLock (auctionId : Nat) : Tx C Bool := do
  let held ← view fun w => w.locks.auction auctionId
  if held then do
    let stored ← loadAuction auctionId
    emitAnomalyIf env (stored.any (fun a => decide (a.status = .active)) = true) "active_lock"
      auctionId
    releaseAuctionLock auctionId
    pure true
  else pure false

/-- `cleanup_expired_locks`: at most `MAX_MAINTENANCE_ITEMS` ids over both lists. -/
abbrev cleanupExpiredLocks (admin : Address) (listingIds auctionIds : List Nat) : Tx C Nat := do
  requireRole env admin .protocolConfig
  let listings := listingIds.take maxMaintenanceItems
  let auctions := auctionIds.take (maxMaintenanceItems - listings.length)
  let clearedListings ← collect (cleanupListingLock env) listings
  let clearedAuctions ← collect (cleanupAuctionLock env) auctions
  let cleared := clearedListings.count true + clearedAuctions.count true
  emit (.cleanupSummary "lock_cleanup" cleared env.sequence)
  pure cleared

/-! ### Storage renewal -/

/-- `renew_storage`: how many of the named records exist, within the budget. -/
abbrev renewStorage (listingIds auctionIds offerIds : List Nat) : Tx C Nat := do
  let w ← view id
  let renewed := (listingIds.take maxMaintenanceItems).countP fun i => (w.listing i).isSome
  let renewed := renewed +
    (auctionIds.take (maxMaintenanceItems - renewed)).countP fun i => (w.auction i).isSome
  let renewed := renewed +
    (offerIds.take (maxMaintenanceItems - renewed)).countP fun i => (w.offer i).isSome
  emit (.cleanupSummary "storage_renewal" renewed env.sequence)
  pure renewed

/-! ### Terminal records -/

def listingIsTerminal (w : World C) (id : Nat) : Bool :=
  (w.listing id).any fun l => decide (l.status ≠ .active)

def offerIsTerminal (w : World C) (id : Nat) : Bool :=
  (w.offer id).any fun o => decide (o.status ≠ .pending)

/-- One phase of the walk: report the terminal records among `ids` while the budget lasts; the
number reported in total and the last id visited. -/
def cleanupWalk (kind : Symbol) (isTerminal : World C → Nat → Bool) (budget : Nat) :
    List Nat → (processed cursor : Nat) → Tx C (Nat × Nat)
  | [], processed, cursor => pure (processed, cursor)
  | id :: ids, processed, cursor =>
    if processed ≥ budget then pure (processed, cursor)
    else do
      let terminal ← view fun w => isTerminal w id
      if terminal then do
        emit (.terminalCleaned kind id env.sequence)
        cleanupWalk kind isTerminal budget ids (processed + 1) id
      else cleanupWalk kind isTerminal budget ids processed id

/-- The ids `start ..= min count (start + budget - 1)`. -/
def cleanupRange (cursor budget count : Nat) : List Nat :=
  List.range' (cursor + 1) (min count (cursor + budget) - cursor)

/-- The first phase of `cleanup_terminal_records`: the listings. -/
abbrev cleanupListings (budget listingCount : Nat) (cursor : TerminalCleanupCursor) :
    Tx C (Nat × TerminalCleanupCursor) :=
  if cursor.phase = 0 then do
    let (processed, last) ←
      cleanupWalk env "listing" listingIsTerminal budget
        (cleanupRange cursor.cursor budget listingCount) 0 cursor.cursor
    pure (processed, if last ≥ listingCount then ⟨1, 0⟩ else ⟨0, last⟩)
  else pure (0, cursor)

/-- The second phase: the offers. `none` is a finished cycle. -/
abbrev cleanupOffers (budget offerCount processed : Nat) (cursor : TerminalCleanupCursor) :
    Tx C (Nat × Option TerminalCleanupCursor) :=
  if cursor.phase = 1 ∧ processed < budget then do
    let (processed', last) ←
      cleanupWalk env "offer" offerIsTerminal budget
        (cleanupRange cursor.cursor (budget - processed) offerCount) processed cursor.cursor
    pure (processed', if last ≥ offerCount then none else some ⟨1, last⟩)
  else pure (processed, some cursor)

abbrev cleanupTerminalRecords (batchSize : Nat) : Tx C Nat := do
  let budget := min batchSize maxMaintenanceItems
  let cursor ← view fun w => w.upkeep.terminalCleanupCursor.getD ⟨0, 0⟩
  let listingCount ← view fun w => w.listingCount
  let offerCount ← view fun w => w.offerCount
  let (processed, cursor') ← cleanupListings env budget listingCount cursor
  let (processed', next) ← cleanupOffers env budget offerCount processed cursor'
  modifyUpkeep fun u => { u with terminalCleanupCursor := next }
  emit (.cleanupSummary "terminal_cleanup" processed' env.sequence)
  pure processed'

end ElcareHub.Marketplace
