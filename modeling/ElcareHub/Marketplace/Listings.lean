import ElcareHub.Marketplace.Escrow
import ElcareHub.Marketplace.Settlement

/-!
# Listings

The listing entry points of `contract.rs`: creation (single and batch), updates, reservation,
purchase, cancellation (by the artist, in batch, by a moderation sweep), expiry and owner
reconciliation. The eight arguments of `create_listing` after the artist are the fields of
`BatchCreateListingInput`, as in the batch form.
-/

namespace ElcareHub.Marketplace

open Call

variable {C : Type} (host : Host C) (env : Env)

def maxBatchCreate : Nat := 50
def maxBatchCancel : Nat := 50

/-- `load_listing(..).unwrap_or_else(|| panic_with_error!(ListingNotFound))`. -/
abbrev requireListing (listingId : Nat) : Tx C Listing := do
  let stored ← loadListing listingId
  orFail stored .listingNotFound

/-- `exp`, when the ledger time has reached it. -/
def reachedExpiry (expiresAt : Option Nat) : Option Nat :=
  expiresAt.filter fun exp => decide (exp ≤ env.timestamp)

/-! ### Refunds of pending offers -/

/-- Reject one offer of a listing's pending set and return its funds, if it is still pending. -/
abbrev rejectAndRefund (offerId : Nat) : Tx C Unit := do
  let stored ← loadOffer offerId
  onSome stored fun offer =>
    when (offer.status = .pending) do
      saveOffer { offer with status := .rejected }
      payTo host env (.offer offerId) offer.token offer.offerer offer.amount

/-- The refund sweep: reject and refund every pending offer, then drop the pending set. -/
abbrev refundPendingOffers (listingId : Nat) : Tx C Unit := do
  let ids ← loadPendingOfferIds listingId
  each (rejectAndRefund host env) ids
  clearPendingOffers listingId

/-- The state half of the sweep a settlement makes: mark the pending offers among `ids` rejected,
except `skip`, and return them. `announce` publishes `OfferRejectedEvent`s. -/
def markRejected (announce : Bool) (skip : Option Nat) (listingId : Nat) :
    List Nat → Tx C (List Offer)
  | [] => pure []
  | offerId :: rest => do
    let stored ← loadOffer offerId
    match stored with
    | some offer =>
      if skip ≠ some offerId ∧ offer.status = .pending then do
        saveOffer { offer with status := .rejected }
        when (announce = true) (emit (.offerRejected offerId listingId offer.offerer))
        let rejected ← markRejected announce skip listingId rest
        pure (offer :: rejected)
      else markRejected announce skip listingId rest
    | none => markRejected announce skip listingId rest

/-- The token half: return the funds of the offers that were marked. -/
abbrev refundOffers (offers : List Offer) : Tx C Unit :=
  each (fun o => payTo host env (.offer o.offerId) o.token o.offerer o.amount) offers

/-! ### Creation -/

abbrev createListingInner (artist : Address) (request : BatchCreateListingInput) : Tx C Nat := do
  failIf (request.price ≤ 0) .invalidPrice
  assertPricePolicy request.price
  failIf ((reachedExpiry env request.expiresAt).isSome = true) .invalidPrice
  assertListingDurationPolicy env request.expiresAt
  requireRecipientCount request.recipients
  let protocolFeeBps ← view fun w => w.config.protocolFeeBps.getD 0
  validateRecipients request.recipients
  validateTokenAsset host request.token (some request.collection)
  assertTokenPolicyActive request.token
  requireCollectionCompatible host request.collection request.quantity
  let listingId ← incrementListingCount
  let listing : Listing :=
    { listingId, artist, price := request.price, currency := request.currency,
      token := request.token, collection := request.collection, tokenId := request.tokenId,
      quantity := request.quantity, recipients := request.recipients, status := .active,
      owner := none, createdAt := env.sequence, protocolFeeBps, expiresAt := request.expiresAt,
      reservedFor := none, reservationStart := none, reservationEnd := none }
  saveListing listing
  indexAppend (.artistListings artist) listingId
  addToActiveListings listingId
  emit (.listingCreated listingId artist request.price request.currency request.collection
    request.tokenId env.sequence 1)
  escrowNft host artist request.collection request.tokenId true listingId
  emitNftEscrowed env listingId request.collection request.tokenId artist
  pure listingId

abbrev createListing (artist : Address) (request : BatchCreateListingInput) : Tx C Nat := do
  requireNotPausedCtx (some request.collection) (some "create_listing")
  requireAuth env artist
  requireNotRevoked artist
  createListingInner host env artist request

/-- The preflight of one `create_listings` item. -/
abbrev preflightCreate (itemIndex : Nat) (request : BatchCreateListingInput) : Tx C Unit := do
  let config ← view fun w => w.config
  batchItemInvalidIf env
    (isPausedFor config (some request.collection) (some "create_listing") = true)
    itemIndex .contractPaused
  batchItemInvalidIf env (request.price ≤ 0) itemIndex .invalidPrice
  batchItemInvalidIf env (priceOutOfBounds config request.price = true) itemIndex .priceOutOfBounds
  batchItemInvalidIf env ((reachedExpiry env request.expiresAt).isSome = true) itemIndex
    .invalidListingDuration
  batchItemInvalidIf env (durationOutOfBounds config env.timestamp request.expiresAt = true)
    itemIndex .invalidListingDuration
  batchItemInvalidIf env (request.recipients.length = 0) itemIndex .invalidSplit
  batchItemInvalidIf env (request.recipients.length > 4) itemIndex .tooManyRecipients
  batchItemInvalidIf env ((recipientsFault [] 0 request.recipients).isSome = true) itemIndex
    .invalidSplit
  validateTokenAsset host request.token (some request.collection)
  batchItemInvalidIf env (tokenAccepted config request.token = false) itemIndex
    .tokenNotWhitelisted
  let compatible ← preflightCollectionCompatibility host request.collection request.quantity
  batchItemInvalidIf env (compatible = false) itemIndex .collectionIncompatible

/-- `create_listings`: preflight every item, then create them in order. -/
abbrev createListings (artist : Address) (requests : List BatchCreateListingInput) :
    Tx C (List Nat) := do
  requireAuth env artist
  requireNotRevoked artist
  failIf (requests.length > maxBatchCreate) .batchTooLarge
  each (fun p => preflightCreate host env p.2 p.1) requests.zipIdx
  collect (createListingInner host env artist) requests

/-! ### Updates -/

abbrev updateListingInner (artist : Address) (request : BatchUpdateListingInput) : Tx C Bool := do
  let listing ← requireListing request.listingId
  failIf (listing.artist ≠ artist) .unauthorized
  failIf (listing.status ≠ .active) .listingNotActive
  let pending ← loadPendingOfferIds request.listingId
  failIf (pending.length > 0) .unauthorized
  failIf (request.newPrice ≤ 0) .invalidPrice
  assertPricePolicy request.newPrice
  validateTokenAsset host request.newToken (some listing.collection)
  assertTokenPolicyActive request.newToken
  requireRecipientCount request.newRecipients
  validateRecipients request.newRecipients
  saveListing { listing with
    price := request.newPrice, token := request.newToken, recipients := request.newRecipients }
  emit (.listingUpdated request.listingId artist request.newPrice listing.collection
    listing.tokenId env.sequence)
  when (listing.price ≠ request.newPrice)
    (emit (.listingPriceUpdated request.listingId listing.price request.newPrice artist))
  pure true

abbrev updateListing (artist : Address) (request : BatchUpdateListingInput) : Tx C Bool := do
  requireNotPaused
  requireAuth env artist
  updateListingInner host env artist request

/-- `load_listing` in a batch preflight, where a missing listing is reported as a failing item. -/
def requireBatchListing (itemIndex listingId : Nat) : Tx C Listing := do
  let stored ← loadListing listingId
  match stored with
  | some listing => pure listing
  | none => batchItemInvalid env itemIndex .listingNotFound

/-- The preflight of one `update_listings` item. -/
abbrev preflightUpdate (artist : Address) (itemIndex : Nat) (request : BatchUpdateListingInput) :
    Tx C Unit := do
  let listing ← requireBatchListing env itemIndex request.listingId
  batchItemInvalidIf env (listing.status ≠ .active) itemIndex .listingNotActive
  batchItemInvalidIf env (listing.artist ≠ artist) itemIndex .unauthorized
  let pending ← loadPendingOfferIds request.listingId
  batchItemInvalidIf env (pending.length > 0) itemIndex .unauthorized
  batchItemInvalidIf env (request.newPrice ≤ 0) itemIndex .invalidPrice
  let config ← view fun w => w.config
  batchItemInvalidIf env (priceOutOfBounds config request.newPrice = true) itemIndex
    .priceOutOfBounds
  validateTokenAsset host request.newToken (some listing.collection)
  batchItemInvalidIf env (tokenAccepted config request.newToken = false) itemIndex
    .tokenNotWhitelisted
  batchItemInvalidIf env (request.newRecipients.length = 0) itemIndex .invalidSplit
  batchItemInvalidIf env (request.newRecipients.length > 4) itemIndex .tooManyRecipients
  batchItemInvalidIf env ((recipientsFault [] 0 request.newRecipients).isSome = true) itemIndex
    .invalidSplit

abbrev updateListings (artist : Address) (requests : List BatchUpdateListingInput) :
    Tx C (List Bool) := do
  requireNotPaused
  requireAuth env artist
  failIf (requests.length > maxBatchCreate) .batchTooLarge
  each (fun p => preflightUpdate host env artist p.2 p.1) requests.zipIdx
  collect (updateListingInner host env artist) requests

abbrev updateListingPrice (seller : Address) (listingId : Nat) (newPrice : Int) : Tx C Bool := do
  requireNotPaused
  requireAuth env seller
  let listing ← requireListing listingId
  failIf (listing.artist ≠ seller) .unauthorized
  failIf (listing.status ≠ .active) .listingNotActive
  failIf (newPrice ≤ 0) .invalidPrice
  failIf (newPrice > i128Max.tdiv 10000) .invalidPrice
  assertPricePolicy newPrice
  saveListing { listing with price := newPrice }
  emit (.listingPriceUpdated listingId listing.price newPrice seller)
  pure true

abbrev setListingReservation (seller : Address) (listingId : Nat) (reservedFor : Option Address)
    (reservationStart reservationEnd : Option Nat) : Tx C Unit := do
  requireAuth env seller
  let listing ← requireListing listingId
  failIf (listing.artist ≠ seller) .unauthorized
  failIf (listing.status ≠ .active) .listingNotActive
  onSome reservationEnd fun stop => do
    failIf (stop ≤ env.timestamp) .invalidReservationWindow
    failIf (reservationStart.any (fun start => decide (stop ≤ start)) = true)
      .invalidReservationWindow
  saveListing { listing with reservedFor, reservationStart, reservationEnd }
  emit (.listingReservationSet listingId listing.artist reservedFor reservationStart reservationEnd
    env.sequence)

abbrev reconcileListingOwner (caller : Address) (listingId : Nat)
    (expectedOwner newOwner : Address) : Tx C Unit := do
  requireRole env caller .collectionAdmin
  let listing ← requireListing listingId
  let currentEffective := listing.owner.getD listing.artist
  failIf (currentEffective ≠ expectedOwner) .ownershipMismatch
  if currentEffective = newOwner then pure ()
  else do
    saveListing { listing with owner := some newOwner }
    emit (.listingOwnershipReconciled listingId listing.owner newOwner caller env.sequence)

/-! ### Purchase -/

/-- The reservation window of `listing` is open and excludes `buyer`. -/
def reservedAgainst (listing : Listing) (buyer : Address) : Bool :=
  listing.reservationStart.all (fun s => decide (s ≤ env.timestamp)) &&
    listing.reservationEnd.any (fun e => decide (env.timestamp < e)) &&
      listing.reservedFor.any (fun rf => decide (rf ≠ buyer))

/-- The expiry branch of `buy_artwork`. -/
abbrev buyExpired (listing : Listing) (listingId exp : Nat) : Tx C Unit := do
  saveListing { listing with status := .cancelled }
  removeFromActiveListings listingId
  refundPendingOffers host env listingId
  emit (.listingCancelled listingId listing.artist .expired env.sequence)
  emit (.listingExpired listingId exp env.sequence)
  releaseListing host env listing listing.artist listingId

/-- The settlement branch of `buy_artwork`. -/
abbrev buySettle (buyer : Address) (listing : Listing) (listingId : Nat) : Tx C Unit := do
  saveListing { listing with status := .sold, owner := some buyer }
  removeFromActiveListings listingId
  let ids ← loadPendingOfferIds listingId
  let rejected ← markRejected false none listingId ids
  clearPendingOffers listingId
  emit (.artworkSold listingId listing.artist buyer listing.price listing.currency env.sequence
    eventSchemaVersion)
  let (fee, payouts) ←
    distributePayoutTracked host env (.sale listingId) listing.token listing.collection
      listing.price listing.artist listing.recipients buyer true listing.protocolFeeBps listingId
      true
  recordSettlement env listingId (some listingId) none listing.recipients listing.token
    listing.price fee payouts
  releaseListing host env listing buyer listingId
  refundOffers host env rejected

/-- `buy_artwork`. Lock releases on the failing paths are not modelled: those paths abort. -/
abbrev buyArtwork (buyer : Address) (listingId : Nat) : Tx C Bool := do
  requireNotPausedCtx none (some "buy_artwork")
  requireAuth env buyer
  acquireListingLock listingId
  let listing ← requireListing listingId
  let config ← view fun w => w.config
  failIf (config.collectionPaused listing.collection = true) .contractPaused
  failIf (listing.status = .sold) .listingSold
  failIf (listing.status = .cancelled) .listingCancelled
  failIf (listing.status ≠ .active) .listingNotActive
  failIf (listing.artist = buyer) .selfPurchaseNotAllowed
  failIf (listing.owner = some buyer) .selfPurchaseNotAllowed
  match reachedExpiry env listing.expiresAt with
  | some exp => do
    buyExpired host env listing listingId exp
    releaseListingLock listingId
    pure false
  | none => do
    failIf (reservedAgainst env listing buyer = true) .reservationWindowActive
    failIf (tokenAccepted config listing.token = false) .tokenNotWhitelisted
    buySettle host env buyer listing listingId
    releaseListingLock listingId
    pure true

/-! ### Cancellation and expiry -/

abbrev transitionListingToCancelled (listing : Listing) (listingId : Nat) (cancelledBy : Address)
    (reason : CancelReason) (refundPending : Bool) : Tx C Unit := do
  failIf (listing.status ≠ .active) .listingNotActive
  when (refundPending = true) (refundPendingOffers host env listingId)
  saveListing { listing with status := .cancelled }
  removeFromActiveListings listingId
  emit (.listingCancelled listingId cancelledBy reason env.sequence)
  releaseListing host env listing listing.artist listingId

abbrev cancelListingInner (artist : Address) (listingId : Nat) : Tx C Unit := do
  let listing ← requireListing listingId
  failIf (listing.artist ≠ artist) .unauthorized
  failIf (listing.status ≠ .active) .listingNotActive
  refundPendingOffers host env listingId
  transitionListingToCancelled host env listing listingId artist .owner false

abbrev cancelListing (artist : Address) (listingId : Nat) : Tx C Bool := do
  requireAuth env artist
  cancelListingInner host env artist listingId
  pure true

/-- The preflight of one `cancel_listings` item. -/
abbrev preflightCancel (owner : Address) (itemIndex listingId : Nat) : Tx C Unit := do
  let listing ← requireBatchListing env itemIndex listingId
  batchItemInvalidIf env (listing.status ≠ .active) itemIndex .listingNotActive
  batchItemInvalidIf env (listing.artist ≠ owner) itemIndex .unauthorized

abbrev cancelListings (owner : Address) (listingIds : List Nat) : Tx C Nat := do
  requireAuth env owner
  failIf (listingIds.length > maxBatchCancel) .batchTooLarge
  each (fun p => preflightCancel env owner p.2 p.1) listingIds.zipIdx
  each (cancelListingInner host env owner) listingIds
  pure listingIds.length

/-- One step of the `cancel_artist_listings` sweep: the listing at position `pos` of the artist's
index, if it is still active. -/
abbrev cancelArtistListingAt (admin artist : Address) (pos : Nat) : Tx C Unit := do
  let entry ← indexGet (.artistListings artist) pos
  let listingId ← expect entry "called `Option::unwrap()` on a `None` value"
  let stored ← loadListing listingId
  onSome stored fun listing =>
    when (listing.status = .active)
      (transitionListingToCancelled host env listing listingId admin .adminRevoked true)

/-- `cancel_artist_listings`: a resumable sweep over a revoked artist's listings. -/
abbrev cancelArtistListings (admin artist : Address) (maxItems : Nat) : Tx C Nat := do
  requireRole env admin .collectionAdmin
  let config ← view fun w => w.config
  if config.revokedArtist artist then do
    let total ← indexLen (.artistListings artist)
    let cursor ← view fun w => (w.upkeep.artistCancelCursor artist).getD 0
    let stop := min (saturatingAddU32 cursor maxItems) total
    each (cancelArtistListingAt host env admin artist) (List.range' cursor (stop - cursor))
    let cursor' := max cursor stop
    modifyUpkeep fun u =>
      { u with artistCancelCursor := Function.update u.artistCancelCursor artist (some cursor') }
    subNat total cursor'
  else do
    modifyUpkeep fun u =>
      { u with artistCancelCursor := Function.update u.artistCancelCursor artist none }
    pure 0

/-- `expire_listing`: permissionless, and without a refund sweep. -/
abbrev expireListing (listingId : Nat) : Tx C Unit := do
  let listing ← requireListing listingId
  failIf (listing.status ≠ .active) .listingNotActive
  let exp ← orFail listing.expiresAt .listingNotExpired
  failIf (env.timestamp < exp) .listingNotExpired
  saveListing { listing with status := .cancelled }
  removeFromActiveListings listingId
  emit (.listingCancelled listingId listing.artist .expired env.sequence)
  emit (.listingExpired listingId exp env.sequence)
  releaseListing host env listing listing.artist listingId

end ElcareHub.Marketplace
