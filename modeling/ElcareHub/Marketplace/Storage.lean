import ElcareHub.Marketplace.World

/-!
# Storage access

The accessors of `storage.rs`, one definition per function and under its name. Reads are
`Call.view`s of the world, writes are `Call.update`s of the one entry they touch.
-/

namespace ElcareHub.Marketplace

open Call

/-! ### Paged index engine -/

def indexPageSize : Nat := 100

namespace PagedIndex

def storePage (ix : PagedIndex) (page : Nat) (entries : List Nat) : PagedIndex :=
  { ix with pages := Function.update ix.pages page entries }

/-- `index_append`; `none` when the length leaves `u32`. -/
def append (ix : PagedIndex) (value : Nat) : Option PagedIndex :=
  let page := ix.len / indexPageSize
  let entries := ix.pages page ++ [value]
  if ix.len + 1 ≤ u32Max then
    some { ix.storePage page entries with len := ix.len + 1 }
  else
    none

/-- `index_get`. -/
def get (ix : PagedIndex) (pos : Nat) : Option Nat :=
  if pos ≥ ix.len then none
  else (ix.pages (pos / indexPageSize))[pos % indexPageSize]?

/-- `Vec::set`, which traps when the slot is out of range. -/
def setSlot (entries : List Nat) (slot value : Nat) : Option (List Nat) :=
  if slot < entries.length then some (entries.set slot value) else none

/-- `index_swap_remove`: the new index and the value that was moved into `pos`, if any; `none` when
a page does not hold the slot the length says it has. -/
def swapRemove (ix : PagedIndex) (pos : Nat) : Option (PagedIndex × Option Nat) :=
  if pos ≥ ix.len then some (ix, none)
  else do
    let last := ix.len - 1
    let lastPageNo := last / indexPageSize
    let lastOff := last % indexPageSize
    let lastPage := ix.pages lastPageNo
    let lastVal ← lastPage[lastOff]?
    if pos = last then
      let ix := ix.storePage lastPageNo (lastPage.eraseIdx lastOff)
      some ({ ix with len := last }, none)
    else
      let posPageNo := pos / indexPageSize
      let posOff := pos % indexPageSize
      if posPageNo = lastPageNo then
        let lastPage ← setSlot lastPage posOff lastVal
        let ix := ix.storePage lastPageNo (lastPage.eraseIdx lastOff)
        some ({ ix with len := last }, some lastVal)
      else
        let ix := ix.storePage lastPageNo (lastPage.eraseIdx lastOff)
        let posPage ← setSlot (ix.pages posPageNo) posOff lastVal
        let ix := ix.storePage posPageNo posPage
        some ({ ix with len := last }, some lastVal)

/-- `index_range`: up to `limit` elements from position `start`; `none` when a page lacks a slot. -/
def range (ix : PagedIndex) (start limit : Nat) : Option (List Nat) :=
  if start ≥ ix.len ∨ limit = 0 then some []
  else
    let stop := min (saturatingAddU32 start limit) ix.len
    (List.range' start (stop - start)).mapM fun pos =>
      (ix.pages (pos / indexPageSize))[pos % indexPageSize]?

/-- `index_all`. -/
def all (ix : PagedIndex) : Option (List Nat) := ix.range 0 ix.len

/-- `index_page_count`; `none` when rounding up leaves `u32`. -/
def pageCount (ix : PagedIndex) : Option Nat :=
  if ix.len = 0 then some 0
  else if ix.len + indexPageSize ≤ u32Max then
    some ((ix.len + indexPageSize - 1) / indexPageSize)
  else
    none

/-- `index_contains`; `none` when counting the pages leaves `u32`. -/
def contains (ix : PagedIndex) (value : Nat) : Option Bool :=
  ix.pageCount.map fun count => (List.range count).any fun p => (ix.pages p).contains value

end PagedIndex

section Storage

variable {C : Type}

def setIndex (id : IndexId) (ix : PagedIndex) : Tx C Unit :=
  update fun w => { w with index := Function.update w.index id ix }

abbrev indexAppend (id : IndexId) (value : Nat) : Tx C Unit := do
  let ix ← view fun w => w.index id
  let ix' ← expect (ix.append value) "attempt to add with overflow"
  setIndex id ix'

abbrev indexLen (id : IndexId) : Tx C Nat := view fun w => (w.index id).len

abbrev indexGet (id : IndexId) (pos : Nat) : Tx C (Option Nat) :=
  view fun w => (w.index id).get pos

abbrev indexContains (id : IndexId) (value : Nat) : Tx C Bool := do
  let ix ← view fun w => w.index id
  expect (ix.contains value) "attempt to add with overflow"

/-! ### Counters -/

def incrementListingCount : Tx C Nat := do
  let count ← view fun w => w.listingCount
  let count ← addU64 count 1
  update fun w => { w with listingCount := count }
  pure count

def incrementAuctionCount : Tx C Nat := do
  let count ← view fun w => w.auctionCount
  let count ← addU64 count 1
  update fun w => { w with auctionCount := count }
  pure count

def incrementOfferCount : Tx C Nat := do
  let count ← view fun w => w.offerCount
  let count ← addU64 count 1
  update fun w => { w with offerCount := count }
  pure count

/-! ### Accounting counters -/

abbrev addProtocolFeeTotal (token : Address) (amount : Int) : Tx C Unit :=
  if amount ≤ 0 then pure ()
  else do
    let current ← view fun w => w.accounting.protocolFeeTotal token
    let updated ← orFail (checkedI128 (current + amount)) .arithmeticOverflow
    modifyAccounting fun a =>
      { a with protocolFeeTotal := Function.update a.protocolFeeTotal token updated }

abbrev addRoyaltyTotal (token : Address) (amount : Int) : Tx C Unit :=
  if amount ≤ 0 then pure ()
  else do
    let current ← view fun w => w.accounting.royaltyTotal token
    let updated ← orFail (checkedI128 (current + amount)) .arithmeticOverflow
    modifyAccounting fun a =>
      { a with royaltyTotal := Function.update a.royaltyTotal token updated }

abbrev incrementSettlementCount (token : Address) : Tx C Unit := do
  let current ← view fun w => w.accounting.settlementCount token
  failIf (u64Max < current + 1) .arithmeticOverflow
  modifyAccounting fun a =>
    { a with settlementCount := Function.update a.settlementCount token (current + 1) }

/-! ### Records -/

def saveListing (listing : Listing) : Tx C Unit :=
  update fun w =>
    { w with listing := Function.update w.listing listing.listingId (some listing) }

abbrev loadListing (listingId : Nat) : Tx C (Option Listing) := view fun w => w.listing listingId

def saveAuction (auction : Auction) : Tx C Unit :=
  update fun w =>
    { w with auction := Function.update w.auction auction.auctionId (some auction) }

abbrev loadAuction (auctionId : Nat) : Tx C (Option Auction) := view fun w => w.auction auctionId

def saveOffer (offer : Offer) : Tx C Unit :=
  update fun w => { w with offer := Function.update w.offer offer.offerId (some offer) }

abbrev loadOffer (offerId : Nat) : Tx C (Option Offer) := view fun w => w.offer offerId

/-! ### Active listings index -/

/-- `add_to_active_listings`: idempotent by the position key. -/
abbrev addToActiveListings (listingId : Nat) : Tx C Unit := do
  let present ← view fun w => w.activeListingPos listingId
  if present.isSome then pure ()
  else
    let pos ← indexLen .activeListings
    indexAppend .activeListings listingId
    update fun w =>
      { w with activeListingPos := Function.update w.activeListingPos listingId (some pos) }

/-- `remove_from_active_listings`: look up the position key, check that the slot holds the id, swap
the last id into the slot and fix the position key of the id that moved. -/
def removeFromActiveListings (listingId : Nat) : Tx C Unit := do
  let present ← view fun w => w.activeListingPos listingId
  match present with
  | none => pure ()
  | some pos =>
    let held ← indexGet .activeListings pos
    if held ≠ some listingId then
      -- the defensive early return
      update fun w => { w with staleSlots := w.staleSlots + 1 }
    else
      let ix ← view fun w => w.index .activeListings
      let (ix', moved) ← expect (ix.swapRemove pos) "called `Option::unwrap()` on a `None` value"
      setIndex .activeListings ix'
      onSome moved fun m =>
        update fun w =>
          { w with activeListingPos := Function.update w.activeListingPos m (some pos) }
      update fun w =>
        { w with activeListingPos := Function.update w.activeListingPos listingId none }

/-! ### Pending-offer sets -/

abbrev loadPendingOfferIds (listingId : Nat) : Tx C (List Nat) :=
  view fun w => w.listingPendingOffers listingId

def setPendingOffers (listingId : Nat) (ids : List Nat) : Tx C Unit :=
  update fun w =>
    { w with listingPendingOffers := Function.update w.listingPendingOffers listingId ids }

abbrev addPendingOffer (listingId offerId : Nat) : Tx C Unit := do
  let ids ← loadPendingOfferIds listingId
  setPendingOffers listingId (ids ++ [offerId])

/-- `remove_pending_offer`: drops the first occurrence, and nothing when there is none. -/
abbrev removePendingOffer (listingId offerId : Nat) : Tx C Unit := do
  let ids ← loadPendingOfferIds listingId
  setPendingOffers listingId (ids.erase offerId)

abbrev clearPendingOffers (listingId : Nat) : Tx C Unit := setPendingOffers listingId []

/-! ### Escrow records -/

abbrev getEscrowRecord (collection : Address) (tokenId : Nat) : Tx C (Option EscrowRecord) :=
  view fun w => w.escrowedToken (collection, tokenId)

def setEscrowRecord (collection : Address) (tokenId : Nat) (record : EscrowRecord) : Tx C Unit :=
  update fun w =>
    { w with escrowedToken := Function.update w.escrowedToken (collection, tokenId) (some record) }

def clearEscrowRecord (collection : Address) (tokenId : Nat) : Tx C Unit :=
  update fun w =>
    { w with escrowedToken := Function.update w.escrowedToken (collection, tokenId) none }

/-! ### Token and price policy -/

/-- `evaluate_token_policy(..).is_accepted`: an active entry is accepted, a removed one is not, and
a token that was never added is accepted only while nothing was ever registered. -/
def tokenAccepted (config : Config) (token : Address) : Bool :=
  match config.tokenWhitelistEntry token with
  | some e => e.active
  | none => config.tokenWhitelistCount = 0

abbrev assertTokenPolicyActive (token : Address) : Tx C Unit := do
  let config ← view fun w => w.config
  failIf (tokenAccepted config token = false) .tokenNotWhitelisted

/-- `price` violates one of the configured bounds. -/
def priceOutOfBounds (config : Config) (price : Int) : Bool :=
  config.minPrice.any (fun min => decide (price < min)) ||
    config.maxPrice.any (fun max => decide (max < price))

abbrev assertPricePolicy (price : Int) : Tx C Unit := do
  let config ← view fun w => w.config
  failIf (priceOutOfBounds config price) .priceOutOfBounds

/-- `expires_at` violates one of the configured duration bounds at time `now`. -/
def durationOutOfBounds (config : Config) (now : Nat) (expiresAt : Option Nat) : Bool :=
  expiresAt.any fun exp =>
    config.minListingDuration.any (fun secs => decide (exp < saturatingAddU64 now secs)) ||
      config.maxListingDuration.any (fun secs => decide (saturatingAddU64 now secs < exp))

abbrev assertListingDurationPolicy (env : Env) (expiresAt : Option Nat) : Tx C Unit := do
  let config ← view fun w => w.config
  failIf (durationOutOfBounds config env.timestamp expiresAt) .invalidListingDuration

/-! ### Re-entrancy locks -/

def setListingLock (listingId : Nat) (held : Bool) : Tx C Unit :=
  update fun w =>
    { w with locks := { w.locks with listing := Function.update w.locks.listing listingId held } }

def setAuctionLock (auctionId : Nat) (held : Bool) : Tx C Unit :=
  update fun w =>
    { w with locks := { w.locks with auction := Function.update w.locks.auction auctionId held } }

/-- `acquire_listing_lock`, with the error its callers raise when the lock is held. -/
abbrev acquireListingLock (listingId : Nat) : Tx C Unit := do
  let held ← view fun w => w.locks.listing listingId
  failIf (held = true) .reentrancyGuard
  setListingLock listingId true

abbrev releaseListingLock (listingId : Nat) : Tx C Unit := setListingLock listingId false

/-- `acquire_auction_lock`, with the error its callers raise when the lock is held. -/
abbrev acquireAuctionLock (auctionId : Nat) : Tx C Unit := do
  let held ← view fun w => w.locks.auction auctionId
  failIf (held = true) .reentrancyGuard
  setAuctionLock auctionId true

abbrev releaseAuctionLock (auctionId : Nat) : Tx C Unit := setAuctionLock auctionId false

/-! ### Bid history and refunds -/

/-- The ring buffer after one more record: a full buffer drops its oldest entry first. -/
def pushBid (history : List BidRecord) (record : BidRecord) (cap : Nat) : List BidRecord :=
  (if history.length ≥ cap then history.drop 1 else history) ++ [record]

def appendBidRecord (auctionId : Nat) (record : BidRecord) (cap : Nat) : Tx C Unit :=
  update fun w =>
    { w with
      auctionBids :=
        Function.update w.auctionBids auctionId (pushBid (w.auctionBids auctionId) record cap) }

abbrev loadAuctionBids (auctionId : Nat) : Tx C (List BidRecord) :=
  view fun w => w.auctionBids auctionId

def markBidRefunded (auctionId : Nat) (bidder : Address) : Tx C Unit :=
  update fun w =>
    { w with bidRefundRecord := Function.update w.bidRefundRecord (auctionId, bidder) true }

abbrev isBidRefunded (auctionId : Nat) (bidder : Address) : Tx C Bool :=
  view fun w => w.bidRefundRecord (auctionId, bidder)

abbrev loadBlockedBidders (auctionId : Nat) : Tx C (List Address) :=
  view fun w => w.auctionBlockedBidders auctionId

def saveBlockedBidders (auctionId : Nat) (list : List Address) : Tx C Unit :=
  update fun w =>
    { w with auctionBlockedBidders := Function.update w.auctionBlockedBidders auctionId list }

/-! ### Circuit breakers -/

/-- `is_paused_for`: any of the three pause axes fires. -/
def isPausedFor (config : Config) (collection : Option Address) (func : Option Symbol) : Bool :=
  config.isPaused || func.any config.functionPaused || collection.any config.collectionPaused

/-! ### Royalty claim records -/

/-- `set_royalty_claim`: a new claim is also appended to the recipient's index. -/
abbrev setRoyaltyClaim (settlementId : Nat) (isListing : Bool) (recipient : Address)
    (record : RoyaltyClaimRecord) : Tx C Unit :=
  modifyAccounting fun a =>
    { a with
      royaltyClaim :=
        Function.update a.royaltyClaim (settlementId, isListing, recipient) (some record)
      recipientRoyaltyIndex :=
        if (a.royaltyClaim (settlementId, isListing, recipient)).isSome then a.recipientRoyaltyIndex
        else Function.update a.recipientRoyaltyIndex recipient
          (a.recipientRoyaltyIndex recipient ++ [⟨settlementId, isListing⟩]) }

/-- `get_unclaimed_royalties`: the open claims among the entries of the recipient's index from `start`
on, `limit` of them. -/
def getUnclaimedRoyalties (recipient : Address) (start limit : Nat) :
    Tx C (List RoyaltyClaimRecord) :=
  view fun w =>
    let index := w.accounting.recipientRoyaltyIndex recipient
    let stop := min (min (start + limit) u32Max) index.length
    ((index.take stop).drop start).filterMap fun r =>
      (w.accounting.royaltyClaim (r.settlementId, r.isListing, recipient)).filter fun claim =>
        !claim.claimed

/-! ### Counter-offer links -/

def setCounterOfferParent (counterOfferId parentOfferId : Nat) : Tx C Unit :=
  update fun w =>
    { w with
      counterOfferParent :=
        Function.update w.counterOfferParent counterOfferId (some parentOfferId) }

abbrev getCounterOfferParent (counterOfferId : Nat) : Tx C (Option Nat) :=
  view fun w => w.counterOfferParent counterOfferId

def setOfferSupersededBy (parentOfferId counterOfferId : Nat) : Tx C Unit :=
  update fun w =>
    { w with
      offerSupersededBy :=
        Function.update w.offerSupersededBy parentOfferId (some counterOfferId) }

end Storage

end ElcareHub.Marketplace
