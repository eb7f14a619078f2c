import ElcareHub.Marketplace.Listings

/-!
# Offers

The offer entry points of `contract.rs`: making, withdrawing, rejecting, accepting, reclaiming and
sweeping offers, and counter-offers.
-/

namespace ElcareHub.Marketplace

open Call

variable {C : Type} (host : Host C) (env : Env)

def maxOffersPerListing : Nat := 50
def maxSweepBatchSize : Nat := 20

/-- `load_offer(..).unwrap_or_else(|| panic_with_error!(OfferNotFound))`. -/
abbrev requireOffer (offerId : Nat) : Tx C Offer := do
  let stored ← loadOffer offerId
  orFail stored .offerNotFound

/-- Save a new pending offer and enter it into the three indexes. -/
abbrev openOffer (listingId : Nat) (offerer : Address) (amount : Int) (token : Address)
    (expiresAt : Option Nat) : Tx C Nat := do
  let offerId ← incrementOfferCount
  saveOffer
    { offerId, listingId, offerer, amount, token, status := .pending, createdAt := env.sequence,
      expiresAt }
  indexAppend (.listingOffers listingId) offerId
  indexAppend (.offererOffers offerer) offerId
  addPendingOffer listingId offerId
  pure offerId

/-- `make_offer`. The deposit is taken before the offer id is assigned; it is logged on the account
of the id the counter gives next. -/
abbrev makeOffer (offerer : Address) (listingId : Nat) (amount : Int) (token : Address)
    (expiresAt : Option Nat) : Tx C Nat := do
  requireNotPausedCtx none (some "make_offer")
  requireAuth env offerer
  let listing ← requireListing listingId
  requireNotPausedCtx (some listing.collection) none
  failIf (listing.status ≠ .active) .listingNotActive
  failIf (listing.artist = offerer) .cannotOfferOwnListing
  failIf (amount ≤ 0) .insufficientOfferAmount
  validateTokenAsset host token (some listing.collection)
  assertTokenPolicyActive token
  let pending ← loadPendingOfferIds listingId
  failIf (pending.length ≥ maxOffersPerListing) .offerLimitReached
  let count ← view fun w => w.offerCount
  depositFrom host env (.offer (count + 1)) token offerer amount
  let offerId ← openOffer env listingId offerer amount token expiresAt
  emit (.offerMade offerId listingId offerer amount token expiresAt eventSchemaVersion)
  pure offerId

/-- The refund that closes a single offer: return the funds, save the final status and leave the
pending set. -/
abbrev closeOffer (offer : Offer) (offerId : Nat) (status : OfferStatus) : Tx C Unit := do
  payTo host env (.offer offerId) offer.token offer.offerer offer.amount
  saveOffer { offer with status }
  removePendingOffer offer.listingId offerId

abbrev withdrawOffer (offerer : Address) (offerId : Nat) : Tx C Unit := do
  requireAuth env offerer
  let offer ← requireOffer offerId
  failIf (offer.offerer ≠ offerer) .unauthorized
  failIf (offer.status ≠ .pending) .invalidOfferState
  closeOffer host env offer offerId .withdrawn
  emit (.offerWithdrawn offerId offer.listingId offerer)

abbrev rejectOffer (artist : Address) (offerId : Nat) : Tx C Unit := do
  requireAuth env artist
  let offer ← requireOffer offerId
  let listing ← requireListing offer.listingId
  failIf (listing.artist ≠ artist) .unauthorized
  failIf (offer.status ≠ .pending) .invalidOfferState
  closeOffer host env offer offerId .rejected
  emit (.offerRejected offerId offer.listingId offer.offerer)

/-- `reclaim_offer`: permissionless, once the offer has expired. -/
abbrev reclaimOffer (offerId : Nat) : Tx C Unit := do
  let offer ← requireOffer offerId
  failIf (offer.status ≠ .pending) .invalidOfferState
  let exp ← orFail offer.expiresAt .invalidOfferState
  failIf (env.timestamp < exp) .offerExpired
  closeOffer host env offer offerId .withdrawn
  emit (.offerReclaimed offerId offer.listingId offer.offerer offer.amount)

/-- One item of `sweep_expired_offers`: whether the offer was swept. -/
def sweepOffer (offerId : Nat) : Tx C Bool := do
  let stored ← loadOffer offerId
  match stored with
  | some offer =>
    if offer.status = .pending ∧ (reachedExpiry env offer.expiresAt).isSome then do
      saveOffer { offer with status := .expired }
      removePendingOffer offer.listingId offerId
      payTo host env (.offer offerId) offer.token offer.offerer offer.amount
      emit (.offerExpiredSweep offerId offer.listingId offer.offerer offer.amount offer.token
        env.sequence)
      pure true
    else pure false
  | none => pure false

/-- `sweep_expired_offers`: the number of offers swept. -/
abbrev sweepExpiredOffers (offerIds : List Nat) : Tx C Nat := do
  failIf (offerIds.length > maxSweepBatchSize) .batchTooLarge
  let swept ← collect (sweepOffer host env) offerIds
  pure (swept.count true)

/-! ### Acceptance -/

/-- The settlement of `accept_offer`, after its checks. -/
def acceptSettle (artist : Address) (offer : Offer) (offerId : Nat) (listing : Listing)
    (listingId : Nat) : Tx C Unit := do
  saveOffer { offer with status := .accepted }
  saveListing { listing with status := .sold, owner := some offer.offerer }
  removeFromActiveListings listingId
  let siblings ← loadPendingOfferIds listing.listingId
  let rejected ← markRejected true (some offerId) listingId siblings
  clearPendingOffers listing.listingId
  emit (.offerAccepted offerId listingId offer.offerer offer.amount eventSchemaVersion)
  let (fee, payouts) ←
    distributePayoutTracked host env (.offer offerId) offer.token listing.collection offer.amount
      artist listing.recipients offer.offerer false listing.protocolFeeBps listingId true
  recordSettlement env listingId (some listingId) none listing.recipients offer.token offer.amount
    fee payouts
  releaseListing host env listing offer.offerer listingId
  refundOffers host env rejected

abbrev acceptOffer (artist : Address) (offerId : Nat) : Tx C Unit := do
  requireNotPausedCtx none (some "accept_offer")
  requireAuth env artist
  let offer ← requireOffer offerId
  let listingId := offer.listingId
  acquireListingLock listingId
  let listing ← requireListing listingId
  requireNotPausedCtx (some listing.collection) none
  failIf (listing.artist ≠ artist) .unauthorized
  failIf (offer.status ≠ .pending ∨ listing.status ≠ .active) .invalidOfferState
  failIf ((reachedExpiry env offer.expiresAt).isSome = true) .offerExpired
  failIf ((reachedExpiry env listing.expiresAt).isSome = true) .listingExpired
  assertTokenPolicyActive offer.token
  acceptSettle host env artist offer offerId listing listingId
  releaseListingLock listingId

/-! ### Counter-offers -/

/-- `counter_offer`: close the parent offer with a refund and open a new pending offer in the name
of the artist. -/
abbrev counterOffer (artist : Address) (parentOfferId : Nat) (amount : Int) (token : Address)
    (expiresAt : Option Nat) : Tx C Nat := do
  requireAuth env artist
  failIf (amount ≤ 0) .insufficientOfferAmount
  let parent ← requireOffer parentOfferId
  failIf (parent.status ≠ .pending) .offerNotPending
  let listing ← requireListing parent.listingId
  failIf (listing.artist ≠ artist) .unauthorized
  failIf (listing.status ≠ .active) .listingNotActive
  validateTokenAsset host token (some listing.collection)
  assertTokenPolicyActive token
  saveOffer { parent with status := .rejected }
  removePendingOffer parent.listingId parentOfferId
  payTo host env (.offer parentOfferId) parent.token parent.offerer parent.amount
  emit (.offerRejected parentOfferId parent.listingId parent.offerer)
  let counterId ← openOffer env parent.listingId artist amount token expiresAt
  setCounterOfferParent counterId parentOfferId
  setOfferSupersededBy parentOfferId counterId
  emit (.counterOfferMade counterId parentOfferId parent.listingId artist amount token expiresAt
    env.sequence)
  pure counterId

/-- The settlement of `accept_counter_offer`, after its checks. -/
def acceptCounterSettle (buyer : Address) (counter : Offer) (counterOfferId : Nat)
    (listing : Listing) (listingId : Nat) : Tx C Unit := do
  saveOffer { counter with status := .accepted }
  saveListing { listing with status := .sold, owner := some buyer }
  removeFromActiveListings listingId
  removePendingOffer listingId counterOfferId
  let siblings ← loadPendingOfferIds listingId
  let rejected ← markRejected true (some counterOfferId) listingId siblings
  clearPendingOffers listingId
  emit (.offerAccepted counterOfferId listingId buyer counter.amount eventSchemaVersion)
  depositFrom host env (.offer counterOfferId) counter.token buyer counter.amount
  let (fee, payouts) ←
    distributePayoutTracked host env (.offer counterOfferId) counter.token listing.collection
      counter.amount listing.artist listing.recipients buyer false listing.protocolFeeBps listingId
      true
  recordSettlement env listingId (some listingId) none listing.recipients counter.token
    counter.amount fee payouts
  releaseListing host env listing buyer listingId
  refundOffers host env rejected

abbrev acceptCounterOffer (buyer : Address) (counterOfferId : Nat) : Tx C Unit := do
  requireNotPausedCtx none (some "accept_counter_offer")
  requireAuth env buyer
  let counter ← requireOffer counterOfferId
  let parent ← getCounterOfferParent counterOfferId
  failIf (parent.isNone = true) .notCounterOffer
  failIf (counter.status ≠ .pending) .invalidOfferState
  failIf ((reachedExpiry env counter.expiresAt).isSome = true) .offerExpired
  let listingId := counter.listingId
  acquireListingLock listingId
  let listing ← requireListing listingId
  requireNotPausedCtx (some listing.collection) none
  failIf (listing.status ≠ .active) .listingNotActive
  failIf ((reachedExpiry env listing.expiresAt).isSome = true) .listingExpired
  assertTokenPolicyActive counter.token
  acceptCounterSettle host env buyer counter counterOfferId listing listingId
  releaseListingLock listingId

/-! ### Royalty claims -/

abbrev claimRoyalty (recipient : Address) (settlementId : Nat) (isListing : Bool) : Tx C Bool := do
  requireAuth env recipient
  let stored ← view fun w => w.accounting.royaltyClaim (settlementId, isListing, recipient)
  let claim ← orFail stored .royaltyClaimNotFound
  failIf (claim.claimed = true) .royaltyAlreadyClaimed
  payTo host env (.royaltyClaim settlementId isListing) claim.token recipient claim.amount
  setRoyaltyClaim settlementId isListing recipient
    { claim with claimed := true, claimedAt := some env.sequence }
  emit (.royaltyClaimed settlementId isListing recipient claim.token claim.amount env.sequence)
  pure true

end ElcareHub.Marketplace
