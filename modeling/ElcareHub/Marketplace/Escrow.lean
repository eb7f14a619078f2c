import ElcareHub.Marketplace.Storage

/-!
# Custody of NFTs and the shared checks

The custody helpers of `escrow.rs`, and the private helpers of `contract.rs` that entry points share:
authorisation by role, circuit breakers, validation of tokens, recipients and collections.
-/

namespace ElcareHub.Marketplace

open Call

variable {C : Type} (host : Host C) (env : Env)

/-! ### Invocations of a collection -/

/-- `owner_of(token_id)` on `collection`. -/
def ownerOf (collection : Address) (tokenId : Nat) : Tx C Address :=
  attempt fun w =>
    match host.ownerOf w.collections collection tokenId with
    | some (owner, c) => .ok (owner, { w with collections := c })
    | none => .error (.collection collection)

/-- `transfer_from(spender, from, to, token_id)` on `collection`. -/
def transferNft (collection spender src dst : Address) (tokenId : Nat) : Tx C Unit :=
  attempt fun w =>
    match host.transferFrom w.collections collection spender src dst tokenId with
    | some c => .ok ((), { w with collections := c })
    | none => .error (.collection collection)

/-- `batch_transfer_from(operator, from, to, [token_id], [amount], "")` on `collection`. -/
def batchTransferNft (collection operator src dst : Address) (tokenId amount : Nat) : Tx C Unit :=
  attempt fun w =>
    match host.batchTransferFrom w.collections collection operator src dst tokenId amount with
    | some c => .ok ((), { w with collections := c })
    | none => .error (.collection collection)

/-! ### Escrow -/

abbrev escrowNft (seller collection : Address) (tokenId : Nat) (isListing : Bool) (id : Nat) :
    Tx C Unit := do
  let currentOwner ← ownerOf host collection tokenId
  failIf (currentOwner ≠ seller) .notTokenOwner
  let existing ← getEscrowRecord collection tokenId
  failIf (existing.isSome = true) .tokenAlreadyEscrowed
  setEscrowRecord collection tokenId ⟨isListing, id⟩
  transferNft host collection host.self seller host.self tokenId

abbrev emitNftEscrowed (id : Nat) (collection : Address) (tokenId : Nat) (seller : Address) :
    Tx C Unit :=
  emit (.nftEscrowed id collection tokenId seller env.sequence)

abbrev releaseNft (collection : Address) (tokenId : Nat) (recipient : Address)
    (listingOrAuctionId : Nat) : Tx C Unit := do
  transferNft host collection host.self host.self recipient tokenId
  clearEscrowRecord collection tokenId
  emit (.nftReleased listingOrAuctionId collection tokenId recipient env.sequence)

abbrev releaseNftWithQuantity (collection : Address) (tokenId quantity : Nat) (recipient : Address)
    (listingOrAuctionId : Nat) : Tx C Unit := do
  batchTransferNft host collection host.self host.self recipient tokenId quantity
  clearEscrowRecord collection tokenId
  emit (.nftReleased listingOrAuctionId collection tokenId recipient env.sequence)

/-- The release every listing exit makes: the batch form for more than one unit. -/
abbrev releaseListing (listing : Listing) (recipient : Address) (listingId : Nat) : Tx C Unit :=
  if listing.quantity > 1 then
    releaseNftWithQuantity host env listing.collection listing.tokenId listing.quantity recipient
      listingId
  else
    releaseNft host env listing.collection listing.tokenId recipient listingId

/-! ### Authorisation -/

/-- The holder of `role`: its explicit holder, else the admin. -/
def roleHolder (config : Config) (role : RoleType) : Option Address :=
  (config.role role).or config.admin

abbrev getRole (role : RoleType) : Tx C Address := do
  let config ← view fun w => w.config
  expect (roleHolder config role) "admin not set"

abbrev requireRole (caller : Address) (role : RoleType) : Tx C Unit := do
  let holder ← getRole role
  failIf (caller ≠ holder) .unauthorized
  requireAuth env caller

abbrev resolveAuctionCancelReason (caller : Address) : Tx C AuctionCancelReason := do
  let config ← view fun w => w.config
  let adminFallback ← expect config.admin "admin not set"
  let protocol := (config.role .protocolConfig).getD adminFallback
  let emergency := (config.role .emergencyPause).getD adminFallback
  if caller = protocol then do
    requireAuth env caller
    pure .admin
  else if caller = emergency then do
    requireAuth env caller
    pure .emergency
  else fail .unauthorized

abbrev requireCreatorOrAdmin (caller creator : Address) : Tx C Unit := do
  let config ← view fun w => w.config
  failIf (caller ≠ creator ∧ config.admin ≠ some caller) .unauthorized

/-! ### Circuit breakers and moderation -/

abbrev requireNotPaused : Tx C Unit := do
  let config ← view fun w => w.config
  failIf (config.isPaused = true) .contractPaused

abbrev requireNotPausedCtx (collection : Option Address) (func : Option Symbol) : Tx C Unit := do
  let config ← view fun w => w.config
  failIf (isPausedFor config collection func = true) .contractPaused

abbrev requireNotRevoked (artist : Address) : Tx C Unit := do
  let config ← view fun w => w.config
  failIf (config.revokedArtist artist = true) .artistRevoked

/-! ### Validation -/

/-- `validate_token_asset`: not the marketplace itself and not the collection. -/
abbrev validateTokenAsset (token : Address) (collection : Option Address) : Tx C Unit := do
  failIf (token = host.self) .tokenNotWhitelisted
  failIf (collection = some token) .tokenNotWhitelisted

/-- The recipient loop shared by `validate_recipients` and `preflight_recipients`: `prior` are the
recipients already seen, `total` their basis points. -/
def recipientsFault (prior : List Recipient) (total : Nat) :
    List Recipient → Option MarketplaceError
  | [] => if total > 10000 then some .royaltyExceedsLimit else none
  | r :: rs =>
    if r.percentage = 0 then some .zeroRecipientBps
    else if prior.any (fun q => q.address = r.address) then some .duplicateRecipient
    else if total + r.percentage > u32Max then some .royaltyExceedsLimit
    else recipientsFault (prior ++ [r]) (total + r.percentage) rs

def validateRecipients (recipients : List Recipient) : Tx C Unit :=
  match recipientsFault [] 0 recipients with
  | some e => fail e
  | none => pure ()

/-- The length check that precedes `validate_recipients` everywhere. -/
abbrev requireRecipientCount (recipients : List Recipient) : Tx C Unit := do
  failIf (recipients.length = 0) .invalidSplit
  failIf (recipients.length > 4) .tooManyRecipients

/-- `preflight_collection_compatibility(..).is_ok()`. The `contract_type` invocation is a
`try_invoke_contract`, so a trap in it only means that no type is declared. -/
def preflightCollectionCompatibility (collection : Address) (quantity : Nat) : Tx C Bool :=
  attempt fun w =>
    match host.contractType w.collections collection with
    | some (kind, c) =>
      .ok (!((kind = "ERC721" || kind = "LazyMint721") && quantity ≠ 1) && quantity ≠ 0,
        { w with collections := c })
    | none => .ok (quantity ≠ 0, w)

abbrev requireCollectionCompatible (collection : Address) (quantity : Nat) : Tx C Unit := do
  let compatible ← preflightCollectionCompatibility host collection quantity
  failIf (compatible = false) .collectionIncompatible

/-- Report the failing item of a batch and end the call. -/
abbrev batchItemInvalid {α : Type} (itemIndex : Nat) (error : MarketplaceError) : Tx C α := do
  emit (.batchItemInvalid itemIndex error.code env.sequence)
  fail .batchItemInvalid

/-- `if c { BatchItemInvalidEvent { .. }.publish(..); panic_with_error!(..) }`. -/
abbrev batchItemInvalidIf (c : Prop) [Decidable c] (itemIndex : Nat) (error : MarketplaceError) :
    Tx C Unit :=
  if c then batchItemInvalid env itemIndex error else pure ()

end ElcareHub.Marketplace
