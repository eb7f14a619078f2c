import ElcareHub.Marketplace.Maintenance

/-!
# The 1.1.0 storage migration

`migrate`, its bounded variant `migrate_step` and the consistency check. The migration moves the
monolithic index vectors of earlier versions into pages, deleting each vector as it is consumed, and
reports what does not add up at every phase boundary instead of aborting.
-/

namespace ElcareHub.Marketplace

open Call

variable {C : Type} (env : Env)

/-! ### Consuming the legacy vectors -/

/-- Change the legacy vectors only. -/
def modifyLegacy (f : LegacyIndexes → LegacyIndexes) : Tx C Unit :=
  update fun w => { w with legacy := f w.legacy }

/-- Append to a paged index unless the value is there already. -/
abbrev indexAppendNew (id : IndexId) (value : Nat) : Tx C Unit := do
  let present ← indexContains id value
  if present then pure () else indexAppend id value

/-- `migrate_legacy_index`, on a legacy vector already read, with the write that deletes its key. -/
abbrev migrateLegacyIndex (ids : Option (List Nat)) (delete : LegacyIndexes → LegacyIndexes)
    (id : IndexId) : Tx C Unit :=
  onSome ids fun ids => do
    modifyLegacy delete
    each (indexAppendNew id) ids

abbrev migrateArtistListings (artist : Address) : Tx C Unit := do
  let ids ← view fun w => w.legacy.artistListings artist
  migrateLegacyIndex ids
    (fun l => { l with artistListings := Function.update l.artistListings artist none })
    (.artistListings artist)

abbrev migrateArtistAuctions (creator : Address) : Tx C Unit := do
  let ids ← view fun w => w.legacy.artistAuctions creator
  migrateLegacyIndex ids
    (fun l => { l with artistAuctions := Function.update l.artistAuctions creator none })
    (.artistAuctions creator)

abbrev migrateOffererOffers (offerer : Address) : Tx C Unit := do
  let ids ← view fun w => w.legacy.offererOffers offerer
  migrateLegacyIndex ids
    (fun l => { l with offererOffers := Function.update l.offererOffers offerer none })
    (.offererOffers offerer)

/-- One offer of a listing's legacy vector. `existingPending` is the pending set before the loop. -/
abbrev migrateListingOffer (listingId : Nat) (existingPending : List Nat) (offerId : Nat) :
    Tx C Unit := do
  indexAppendNew (.listingOffers listingId) offerId
  let stored ← loadOffer offerId
  when
    (stored.any (fun o => decide (o.status = .pending)) = true ∧ offerId ∉ existingPending)
    (addPendingOffer listingId offerId)

abbrev migrateListingUnit (listingId : Nat) : Tx C Unit := do
  let stored ← loadListing listingId
  onSome stored fun listing => do
    migrateArtistListings listing.artist
    let offerIds ← view fun w => w.legacy.listingOffers listingId
    onSome offerIds fun offerIds => do
      modifyLegacy fun l =>
        { l with listingOffers := Function.update l.listingOffers listingId none }
      let existingPending ← loadPendingOfferIds listingId
      each (migrateListingOffer listingId existingPending) offerIds

abbrev migrateAuctionUnit (auctionId : Nat) : Tx C Unit := do
  let stored ← loadAuction auctionId
  onSome stored fun auction => migrateArtistAuctions auction.creator

abbrev migrateOfferUnit (offerId : Nat) : Tx C Unit := do
  let stored ← loadOffer offerId
  onSome stored fun offer => migrateOffererOffers offer.offerer

/-- A legacy active id is moved only while its listing is still active. -/
abbrev migrateActiveListing (listingId : Nat) : Tx C Unit := do
  let stored ← loadListing listingId
  when (stored.any (fun l => decide (l.status = .active)) = true)
    (addToActiveListings listingId)

/-- The unit of phase 3; the length of the legacy vector. -/
def migrateActiveListings : Tx C Nat := do
  let ids ← view fun w => w.legacy.activeListings
  match ids with
  | none => pure 0
  | some ids => do
    modifyLegacy fun l => { l with activeListings := none }
    each migrateActiveListing ids
    pure ids.length

/-! ### Postconditions of the phases -/

/-- The record ids of a counter: they start at one. -/
def recordIds (count : Nat) : List Nat := List.range' 1 count

/-- `id` is in the index of its owner; an empty index and a missing entry are reported apart. -/
abbrev assertIndexed (index : IndexId) (empty missing : Symbol) (id : Nat) : Tx C Unit := do
  let len ← indexLen index
  let present ← indexContains index id
  if len = 0 then emitAnomaly env empty id
  else emitAnomalyIf env (present = false) missing id

/-- A pending-offer alias names a pending offer that is in the listing's offer history. -/
abbrev assertPendingAlias (listingId offerId : Nat) : Tx C Unit := do
  let stored ← loadOffer offerId
  emitAnomalyIf env (stored.any (fun o => decide (o.status = .pending)) = false) "pending_alias"
    offerId
  let present ← indexContains (.listingOffers listingId) offerId
  emitAnomalyIf env (present = false) "offer_idx_miss" offerId

abbrev assertPhase0Postcondition (listingId : Nat) : Tx C Unit := do
  let stored ← loadListing listingId
  onSome stored fun listing => do
    assertIndexed env (.artistListings listing.artist) "artist_idx" "artist_idx_miss" listingId
    let pending ← loadPendingOfferIds listingId
    each (assertPendingAlias env listingId) pending

abbrev assertPhase1Postcondition (auctionId : Nat) : Tx C Unit := do
  let stored ← loadAuction auctionId
  onSome stored fun auction =>
    assertIndexed env (.artistAuctions auction.creator) "auction_idx" "auction_idx_miss" auctionId

abbrev assertPhase2Postcondition (offerId : Nat) : Tx C Unit := do
  let stored ← loadOffer offerId
  onSome stored fun offer =>
    assertIndexed env (.offererOffers offer.offerer) "offerer_idx" "offerer_idx_miss" offerId

/-- An active listing has a position key and a terminal one has none; whether that is so. -/
def checkActivePos (listingId : Nat) : Tx C Bool := do
  let stored ← loadListing listingId
  let pos ← view fun w => w.activeListingPos listingId
  match stored with
  | none => pure true
  | some listing =>
    if listing.status = .active then do
      emitAnomalyIf env (pos.isNone = true) "active_pos_miss" listingId
      pure pos.isSome
    else do
      emitAnomalyIf env (pos.isSome = true) "term_in_active" listingId
      pure pos.isNone

/-- How many of the first `listingCount` listings are active. -/
def activeInStorage (listingCount : Nat) (w : World C) : Nat :=
  (recordIds listingCount).countP fun i => (w.listing i).any fun l => decide (l.status = .active)

/-- The pages an index of length `len` should have. -/
abbrev expectedPageCount (len : Nat) : Tx C Nat :=
  if len = 0 then pure 0
  else do
    let rounded ← addU32 len indexPageSize
    pure ((rounded - 1) / indexPageSize)

abbrev assertPhase3Postconditions (listingCount : Nat) : Tx C Unit := do
  let _ ← collect (checkActivePos env) (recordIds listingCount)
  let active ← view (activeInStorage listingCount)
  let active ← expect (if active ≤ u32Max then some active else none)
    "attempt to add with overflow"
  let index ← view fun w => w.index .activeListings
  emitAnomalyIf env (index.len ≠ active) "active_idx" index.len
  let expectedPages ← expectedPageCount index.len
  let actualPages ← expect index.pageCount "attempt to add with overflow"
  emitAnomalyIf env (actualPages ≠ expectedPages) "page_count" actualPages

/-! ### The engine -/

/-- The end of a phase: its postconditions are checked, then it is reported. -/
abbrev completePhase (version : String) (phase records : Nat) (postconditions : Tx C Unit) :
    Tx C Unit := do
  postconditions
  emit (.migrationPhaseCompleted version phase records env.sequence)

/-- The loop of `run_migration`. A round either spends a unit of the budget or moves on to the next
phase, so `fuel = budget + 4` rounds are enough. -/
def migrationLoop (version : String) (listingCount auctionCount offerCount : Nat) :
    (fuel budget : Nat) → MigrationProgress → Tx C MigrationProgress
  | 0, _, p => pure p
  | fuel + 1, budget, p =>
    if budget = 0 then pure p
    else
      match p.phase with
      | 0 =>
        if p.cursor ≥ listingCount then do
          completePhase env version 0 listingCount
            (each (assertPhase0Postcondition env) (recordIds listingCount))
          migrationLoop version listingCount auctionCount offerCount fuel budget ⟨1, 0⟩
        else do
          migrateListingUnit (p.cursor + 1)
          migrationLoop version listingCount auctionCount offerCount fuel (budget - 1)
            ⟨0, p.cursor + 1⟩
      | 1 =>
        if p.cursor ≥ auctionCount then do
          completePhase env version 1 auctionCount
            (each (assertPhase1Postcondition env) (recordIds auctionCount))
          migrationLoop version listingCount auctionCount offerCount fuel budget ⟨2, 0⟩
        else do
          migrateAuctionUnit (p.cursor + 1)
          migrationLoop version listingCount auctionCount offerCount fuel (budget - 1)
            ⟨1, p.cursor + 1⟩
      | 2 =>
        if p.cursor ≥ offerCount then do
          completePhase env version 2 offerCount
            (each (assertPhase2Postcondition env) (recordIds offerCount))
          migrationLoop version listingCount auctionCount offerCount fuel budget ⟨3, 0⟩
        else do
          migrateOfferUnit (p.cursor + 1)
          migrationLoop version listingCount auctionCount offerCount fuel (budget - 1)
            ⟨2, p.cursor + 1⟩
      | 3 => do
        let legacyCount ← migrateActiveListings
        completePhase env version 3 legacyCount (assertPhase3Postconditions env listingCount)
        migrationLoop version listingCount auctionCount offerCount fuel (budget - 1) ⟨4, p.cursor⟩
      | _ => pure p

/-- The units still to process. -/
def migrationRemaining (p : MigrationProgress) (listingCount auctionCount offerCount : Nat) :
    Tx C Nat :=
  match p.phase with
  | 0 => do
    let left ← subNat listingCount p.cursor
    let left ← addU64 left auctionCount
    let left ← addU64 left offerCount
    addU64 left 1
  | 1 => do
    let left ← subNat auctionCount p.cursor
    let left ← addU64 left offerCount
    addU64 left 1
  | 2 => do
    let left ← subNat offerCount p.cursor
    addU64 left 1
  | 3 => pure 1
  | _ => pure 0

def runMigration (version : String) (budget : Nat) : Tx C Nat := do
  let p ← view fun w => (w.upkeep.migrationCursor version).getD ⟨0, 0⟩
  let listingCount ← view fun w => w.listingCount
  let auctionCount ← view fun w => w.auctionCount
  let offerCount ← view fun w => w.offerCount
  let p ← migrationLoop env version listingCount auctionCount offerCount (budget + 4) budget p
  let remaining ← migrationRemaining p listingCount auctionCount offerCount
  modifyUpkeep fun u =>
    if remaining = 0 then
      { u with
        migrationCursor := Function.update u.migrationCursor version none
        migrationStuck := Function.update u.migrationStuck version false
        migrationDone := Function.update u.migrationDone version true }
    else
      { u with
        migrationCursor := Function.update u.migrationCursor version (some p)
        migrationStuck := Function.update u.migrationStuck version true }
  pure remaining

abbrev requirePendingMigration (admin : Address) : Tx C String := do
  requireRole env admin .upgrade
  let done ← view fun w => w.upkeep.migrationDone contractVersion
  failIf (done = true) .alreadyMigrated
  pure contractVersion

def migrate (admin : Address) : Tx C Unit := do
  let version ← requirePendingMigration env admin
  let _ ← runMigration env version u32Max
  pure ()

def migrateStep (admin : Address) (maxItems : Nat) : Tx C Nat := do
  let version ← requirePendingMigration env admin
  runMigration env version maxItems

abbrev validateMigrationConsistency (operator : Address) (cursor maxItems : Nat) : Tx C Bool := do
  requireRole env operator .protocolConfig
  let budget := min maxItems maxMaintenanceItems
  let listingCount ← view fun w => w.listingCount
  let stop ← addU64 cursor budget
  let checks ← collect (checkActivePos env)
    (List.range' (cursor + 1) (min stop listingCount - cursor))
  pure (checks.all id)

end ElcareHub.Marketplace
