import ElcareHub.Marketplace.Auctions

/-!
# Administration

Admin hand-over, roles, treasury, fees, bounds, circuit breakers, moderation and the token whitelist:
the single-role entry points of `contract.rs` that change the configuration only.

Two definitions of `set_listing_reservation`, `migrate_roles`, `propose_role_transfer` and
`get_role_inventory` stand in the source file; the ones modelled are those written against the role
and reservation types that exist.
-/

namespace ElcareHub.Marketplace

open Call hiding update
open Function

variable {C : Type} (host : Host C) (env : Env)

def adminProposalTtl : Nat := 604800
def treasuryTimelock : Nat := 3600
def treasuryProposalTtl : Nat := 604800
def maxBidHistoryCap : Nat := 200

/-! ### Admin and roles -/

/-- `set_admin`: once, and with the auction defaults. -/
abbrev setAdmin (admin : Address) : Tx C Unit := do
  let config ← view fun w => w.config
  failIf (config.admin.isSome = true) .unauthorized
  requireAuth env admin
  modifyConfig fun c =>
    { c with
      admin := some admin
      minBidIncrement := some defaultMinBidIncrement
      auctionExtensionWindow := some defaultExtensionWindow
      auctionExtensionTrigger := some defaultExtensionTrigger }

/-- The admin check shared by the hand-over entry points. -/
abbrev requireStoredAdmin (caller : Address) : Tx C Unit := do
  requireAuth env caller
  let config ← view fun w => w.config
  let stored ← orFail config.admin .unauthorized
  failIf (caller ≠ stored) .unauthorized

abbrev transferAdmin (currentAdmin newAdmin : Address) : Tx C Unit := do
  requireStoredAdmin env currentAdmin
  let expiresAt ← addU64 env.timestamp adminProposalTtl
  modifyConfig fun c => { c with pendingAdmin := some ⟨newAdmin, expiresAt⟩ }
  emit (.adminTransferProposed currentAdmin newAdmin expiresAt)

abbrev acceptAdmin (newAdmin : Address) : Tx C Unit := do
  requireAuth env newAdmin
  let config ← view fun w => w.config
  let pending ← orFail config.pendingAdmin .noAdminProposalPending
  failIf (newAdmin ≠ pending.candidate) .unauthorized
  failIf (env.timestamp > pending.expiresAt) .adminProposalExpired
  let oldAdmin ← orFail config.admin .unauthorized
  modifyConfig fun c => { c with admin := some newAdmin, pendingAdmin := none }
  emit (.adminTransferred oldAdmin newAdmin)

abbrev cancelAdminProposal (currentAdmin : Address) : Tx C Unit := do
  requireStoredAdmin env currentAdmin
  let config ← view fun w => w.config
  let pending ← orFail config.pendingAdmin .noAdminProposalPending
  modifyConfig fun c => { c with pendingAdmin := none }
  emit (.adminProposalCancelled currentAdmin pending.candidate)

abbrev setRole (role : RoleType) (authority : Address) : Tx C Unit :=
  modifyConfig fun c => { c with role := update c.role role (some authority) }

abbrev setPendingRole (role : RoleType) (pending : Option PendingRoleProposal) : Tx C Unit :=
  modifyConfig fun c => { c with pendingRole := update c.pendingRole role pending }

abbrev proposeRoleTransfer (currentAuthority : Address) (role : RoleType) (candidate : Address) :
    Tx C Unit := do
  requireAuth env currentAuthority
  let stored ← getRole role
  failIf (currentAuthority ≠ stored) .unauthorized
  failIf (candidate = currentAuthority) .roleTransferToSelf
  failIf (candidate = host.self) .roleTransferToContract
  let newExpiresAt ← addU64 env.timestamp adminProposalTtl
  let existing ← view fun w => w.config.pendingRole role
  onSome existing fun e =>
    emit (.roleProposalOverwritten role currentAuthority e.candidate e.expiresAt candidate
      newExpiresAt env.sequence)
  setPendingRole role (some ⟨candidate, newExpiresAt⟩)
  emit (.roleTransferProposed role currentAuthority candidate newExpiresAt)

abbrev acceptRoleTransfer (role : RoleType) (candidate : Address) : Tx C Unit := do
  requireAuth env candidate
  let stored ← view fun w => w.config.pendingRole role
  let pending ← orFail stored .noRoleProposalPending
  failIf (candidate ≠ pending.candidate) .unauthorized
  failIf (env.timestamp > pending.expiresAt) .roleProposalExpired
  let oldAuthority ← getRole role
  setRole role candidate
  setPendingRole role none
  emit (.roleTransferred role oldAuthority candidate env.sequence)

abbrev cancelRoleProposal (currentAuthority : Address) (role : RoleType) : Tx C Unit := do
  requireAuth env currentAuthority
  let holder ← getRole role
  failIf (currentAuthority ≠ holder) .unauthorized
  let stored ← view fun w => w.config.pendingRole role
  let pending ← orFail stored .noRoleProposalPending
  setPendingRole role none
  emit (.roleProposalCancelled role currentAuthority pending.candidate env.sequence)

/-- Assign `role` to the admin when it has no explicit holder. -/
abbrev migrateRole (admin : Address) (role : RoleType) : Tx C Unit := do
  let holder ← view fun w => w.config.role role
  when (holder.isNone = true) do
    setRole role admin
    emit (.roleMigrated role admin)

abbrev migrateRoles (admin : Address) : Tx C Unit := do
  requireAuth env admin
  let config ← view fun w => w.config
  let stored ← expect config.admin "admin not set"
  failIf (admin ≠ stored) .unauthorized
  each (migrateRole admin) [.protocolConfig, .emergencyPause, .collectionAdmin, .upgrade]

abbrev setRoleDirect (admin : Address) (role : RoleType) (authority : Address) : Tx C Unit := do
  requireStoredAdmin env admin
  setRole role authority

/-! ### Treasury and fees -/

abbrev proposeTreasury (admin candidate : Address) : Tx C Unit := do
  requireRole env admin .protocolConfig
  let config ← view fun w => w.config
  failIf (config.treasury = some candidate) .treasuryProposalSelf
  let expiresAt ← addU64 env.timestamp treasuryProposalTtl
  modifyConfig fun c => { c with pendingTreasury := some ⟨candidate, env.timestamp, expiresAt⟩ }
  emit (.treasuryProposed config.treasury candidate env.timestamp expiresAt)

/-- `accept_treasury`: after the timelock and before the expiry. -/
abbrev acceptTreasury (candidate : Address) : Tx C Unit := do
  requireAuth env candidate
  let config ← view fun w => w.config
  let pending ← orFail config.pendingTreasury .noTreasuryProposalPending
  failIf (candidate ≠ pending.candidate) .unauthorized
  failIf (env.timestamp > pending.expiresAt) .treasuryProposalExpired
  failIf (env.timestamp < saturatingAddU64 pending.proposedAt treasuryTimelock)
    .invalidListingDuration
  modifyConfig fun c => { c with treasury := some candidate, pendingTreasury := none }
  emit (.treasuryAccepted config.treasury candidate env.sequence)

abbrev cancelTreasuryProposal (admin : Address) : Tx C Unit := do
  requireRole env admin .protocolConfig
  let config ← view fun w => w.config
  let pending ← orFail config.pendingTreasury .noTreasuryProposalPending
  modifyConfig fun c => { c with pendingTreasury := none }
  emit (.treasuryProposalCancelled admin pending.candidate)

abbrev setTreasury (admin treasury : Address) : Tx C Unit := do
  requireRole env admin .protocolConfig
  modifyConfig fun c => { c with treasury := some treasury }

abbrev setProtocolFee (admin : Address) (bps : Nat) : Tx C Unit := do
  requireRole env admin .protocolConfig
  failIf (bps > 1000) .invalidPrice
  modifyConfig fun c => { c with protocolFeeBps := some bps }

abbrev setCollectionFeeBps (admin collection : Address) (bps : Nat) : Tx C Unit := do
  requireRole env admin .protocolConfig
  failIf (bps > 10000) .invalidPrice
  modifyConfig fun c =>
    { c with collectionFeeBps := update c.collectionFeeBps collection (some bps) }
  emit (.collectionFeeSet collection bps)

abbrev clearCollectionFeeBps (admin collection : Address) : Tx C Unit := do
  requireRole env admin .protocolConfig
  modifyConfig fun c =>
    { c with collectionFeeBps := update c.collectionFeeBps collection none }
  emit (.collectionFeeCleared collection)

/-! ### Bounds and auction parameters -/

abbrev setPriceBounds (admin : Address) (min max : Int) : Tx C Unit := do
  requireRole env admin .protocolConfig
  failIf (min < 0 ∨ max < 0 ∨ min > max) .invalidPrice
  modifyConfig fun c => { c with minPrice := some min, maxPrice := some max }

/-- `set_min_listing_duration` (`some`) and `clear_min_listing_duration` (`none`). -/
abbrev setMinListingDuration (admin : Address) (secs : Option Nat) : Tx C Unit := do
  requireRole env admin .protocolConfig
  let config ← view fun w => w.config
  modifyConfig fun c => { c with minListingDuration := secs }
  emit (.listingDurationConfigUpdated "min_listing_duration" config.minListingDuration secs)

/-- `set_max_listing_duration` (`some`, and not zero) and `clear_max_listing_duration` (`none`). -/
abbrev setMaxListingDuration (admin : Address) (secs : Option Nat) : Tx C Unit := do
  requireRole env admin .protocolConfig
  failIf (secs = some 0) .invalidListingDuration
  let config ← view fun w => w.config
  modifyConfig fun c => { c with maxListingDuration := secs }
  emit (.listingDurationConfigUpdated "max_listing_duration" config.maxListingDuration secs)

abbrev setMinBidIncrement (admin : Address) (increment : Int) : Tx C Unit := do
  requireRole env admin .protocolConfig
  failIf (increment ≤ 0) .invalidPrice
  let config ← view fun w => w.config
  modifyConfig fun c => { c with minBidIncrement := some increment }
  emit (.auctionConfigUpdated "min_bid_increment" config.minBidIncrement (some increment))

abbrev setBidHistoryCap (admin : Address) (cap : Nat) : Tx C Unit := do
  requireRole env admin .protocolConfig
  failIf (cap = 0 ∨ cap > maxBidHistoryCap) .invalidPrice
  modifyConfig fun c => { c with bidHistoryCap := some cap }

abbrev setAuctionExtensionWindow (admin : Address) (window : Nat) : Tx C Unit := do
  requireRole env admin .protocolConfig
  let config ← view fun w => w.config
  modifyConfig fun c => { c with auctionExtensionWindow := some window }
  emit (.auctionConfigUpdated "extension_window" (config.auctionExtensionWindow.map Int.ofNat)
    (some window))

abbrev setAuctionExtensionTrigger (admin : Address) (trigger : Nat) : Tx C Unit := do
  requireRole env admin .protocolConfig
  let config ← view fun w => w.config
  modifyConfig fun c => { c with auctionExtensionTrigger := some trigger }
  emit (.auctionConfigUpdated "extension_trigger" (config.auctionExtensionTrigger.map Int.ofNat)
    (some trigger))

abbrev setAuctionMaxExtensions (admin : Address) (max : Nat) : Tx C Unit := do
  requireRole env admin .protocolConfig
  modifyConfig fun c => { c with auctionMaxExtensions := some max }

/-! ### Circuit breakers and moderation -/

/-- `admin_pause` and `admin_unpause`. -/
abbrev adminSetPaused (admin : Address) (paused : Bool) : Tx C Unit := do
  requireRole env admin .emergencyPause
  modifyConfig fun c => { c with isPaused := paused }
  emit (if paused then .contractPaused else .contractUnpaused)

/-- `pause_collection` and `unpause_collection`. -/
abbrev setCollectionPaused (admin collection : Address) (paused : Bool) : Tx C Unit := do
  requireRole env admin .emergencyPause
  modifyConfig fun c =>
    { c with collectionPaused := update c.collectionPaused collection paused }
  emit (if paused then .collectionPaused collection else .collectionUnpaused collection)

/-- `pause_function` and `unpause_function`. -/
abbrev setFunctionPaused (admin : Address) (functionName : Symbol) (paused : Bool) : Tx C Unit := do
  requireRole env admin .emergencyPause
  modifyConfig fun c =>
    { c with functionPaused := update c.functionPaused functionName paused }
  emit (if paused then .functionPaused functionName else .functionUnpaused functionName)

abbrev revokeArtist (caller artist : Address) : Tx C Unit := do
  requireRole env caller .collectionAdmin
  modifyConfig fun c => { c with revokedArtist := update c.revokedArtist artist true }
  emit (.artistRevoked artist)

/-- `reinstate_artist`: also drops the sweep cursors. -/
abbrev reinstateArtist (caller artist : Address) : Tx C Unit := do
  requireRole env caller .collectionAdmin
  modifyConfig fun c => { c with revokedArtist := update c.revokedArtist artist false }
  modifyUpkeep fun u =>
    { u with
      artistCancelCursor := update u.artistCancelCursor artist none
      artistAuctionCancelCursor := update u.artistAuctionCancelCursor artist none }
  emit (.artistReinstated artist)

/-! ### Token whitelist -/

abbrev setTokenWhitelistEntry (token : Address) (entry : TokenWhitelistEntry) : Tx C Unit :=
  modifyConfig fun c =>
    { c with tokenWhitelistEntry := update c.tokenWhitelistEntry token (some entry) }

abbrev addTokenToWhitelistIndex (token : Address) : Tx C Unit := do
  let config ← view fun w => w.config
  let count ← addU64 config.tokenWhitelistCount 1
  modifyConfig fun c =>
    { c with
      tokenWhitelistCount := count
      tokenWhitelistId := update c.tokenWhitelistId count (some token) }
  indexAppend .tokenWhitelist count

/-- `add_token_to_whitelist`: idempotent; a removed token is reactivated in place. -/
abbrev addTokenToWhitelist (admin token : Address) : Tx C Unit := do
  requireRole env admin .protocolConfig
  validateTokenAsset host token none
  let config ← view fun w => w.config
  match config.tokenWhitelistEntry token with
  | some entry =>
    if entry.active then pure ()
    else do
      setTokenWhitelistEntry token { entry with active := true }
      emit (.tokenWhitelisted token admin)
  | none => do
    setTokenWhitelistEntry token ⟨env.timestamp, admin, true⟩
    addTokenToWhitelistIndex token
    emit (.tokenWhitelisted token admin)

/-- `remove_token_from_whitelist`: soft delete. -/
abbrev removeTokenFromWhitelist (caller token : Address) : Tx C Unit := do
  requireRole env caller .protocolConfig
  let config ← view fun w => w.config
  onSome (config.tokenWhitelistEntry token) fun entry =>
    when (entry.active = true) do
      setTokenWhitelistEntry token { entry with active := false }
      emit (.tokenRemoved token caller)

end ElcareHub.Marketplace
