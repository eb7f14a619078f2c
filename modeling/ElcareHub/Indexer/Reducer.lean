import ElcareHub.Indexer.Schema

/-!
# Reducing events to rows

`applyDecodedEvents` and `processEvent` of `poller.ts`, and the idempotent event writer of
`event-idempotency.ts`. A window of events is stored first, in one transaction with everything that
follows; then every event that was new is reduced to the rows it is about.

Two things are taken from outside. `Chain` is what the chain answers to the look-ups made while an
event is processed. `Scope` says which of the names that `poller.ts` uses without a declaration mean
something where the code runs; `pollerScope` is the file as it stands, where they mean nothing and the
code that reaches one throws.

Metrics, caches, live subscribers and the background fetch of metadata are left out. The cases for
whitelisted tokens, revoked artists and the auction configuration stand behind a guard that their
events, which have no id, do not pass.
-/

namespace ElcareHub.Indexer

open Query Call

/-! ### What the reduction is given -/

/-- Names that `poller.ts` uses and nothing declares: three identifiers, and the column
`ledgerSequence` of the table `PriceHistory`. -/
inductive FreeName
  | invalidatePattern | invalidateKey | contractAddr | priceHistoryLedgerSequence

/-- Which of these names are bound where the code runs. -/
abbrev Scope : Type := FreeName → Bool

/-- The scope of the file as it stands. -/
def pollerScope : Scope := fun _ => false

/-- What the chain answers to look-ups. -/
structure Chain where
  listing : Nat → Option Marketplace.Listing
  auction : Nat → Option Marketplace.Auction

/-- A decoded event, and the chain as it is looked up while the event is processed. -/
structure Arrival extends DecodedEvent where
  chain : Chain

/-- A use of a name that is not bound. -/
inductive Thrown
  | referenceError (name : FreeName)

abbrev Reduce (α : Type) : Type := Query Thrown Db α

/-- Use a name. -/
abbrev use (scope : Scope) (name : FreeName) : Reduce Unit :=
  abortIf (scope name = false) (.thrown (.referenceError name))

/-- `txHash || null`. -/
def orNull (txHash : String) : Option String := if txHash = "" then none else some txHash

/-! ### Storing events -/

def DecodedEvent.row (event : DecodedEvent) : EventRow where
  listingId := event.listingId
  eventType := event.eventType
  data := event.data
  ledgerSequence := event.ledgerSequence
  eventHash := event.eventHash
  contractId := event.contractId

/-- The rows agree in id, type and ledger, and have an id. -/
def EventRow.sameKey (row row' : EventRow) : Bool :=
  row.listingId.isSome && decide (row.listingId = row'.listingId) &&
    decide (row.eventType = row'.eventType) && decide (row.ledgerSequence = row'.ledgerSequence)

/-- The rows violate a unique index: that of the event hash, or that of id, type and ledger. -/
def EventRow.clashes (row row' : EventRow) : Bool :=
  decide (row.eventHash = row'.eventHash) || row.sameKey row'

/-- `upsertEvent`: whether the event was new. A violated unique index is caught and taken for a
replay. -/
def upsertEvent (event : DecodedEvent) : Reduce Bool := do
  let inserted ← statement fun db =>
    if event.row.fits then
      if db.events.any event.row.clashes then .ok (false, db)
      else .ok (true, { db with events := db.events ++ [event.row] })
    else .error (.refused "MarketplaceEvent")
  if inserted then pure true
  else do
    spoil
    pure false

/-- `upsertEvents`: the events that were new. -/
def upsertEvents : List Arrival → Reduce (List Arrival)
  | [] => pure []
  | event :: events => do
    let inserted ← upsertEvent event.toDecodedEvent
    let newEvents ← upsertEvents events
    pure (if inserted then event :: newEvents else newEvents)

/-! ### Listings -/

/-- The row of a new listing: as the chain has it, or as the event tells it when the chain does not
answer. -/
def newListing (event : Arrival) (listingId : Nat) (artist : Address) (price : Int)
    (currency : Symbol) (collection : Address) (tokenId : Nat) : ListingRow :=
  match event.chain.listing listingId with
  | some l =>
    { listingId, artist := l.artist, owner := none, price := l.price, currency := l.currency,
      collection := l.collection, nftTokenId := l.tokenId, token := some l.token, status := .active,
      recipients := l.recipients, createdAtLedger := event.ledgerSequence,
      updatedAtLedger := event.ledgerSequence }
  | none =>
    { listingId, artist, owner := none, price, currency, collection, nftTokenId := tokenId,
      token := none, status := .active, recipients := [], createdAtLedger := event.ledgerSequence,
      updatedAtLedger := event.ledgerSequence }

/-- The trigger on new listings: offers that were waiting for the listing move to the live table. -/
abbrev promotePendingOffers (listingId : Nat) : Reduce Unit :=
  statement fun db => .ok ((), { db with
    offers := fun i =>
      (db.offers i).or (((db.pendingOffers i).filter fun o => decide (o.listingId = listingId)).map
        fun o =>
          { offerId := o.offerId, listingId := o.listingId, offerer := o.offerer,
            amount := o.amount, token := o.token, status := .pending, expiresAt := o.expiresAt,
            escrowTxHash := o.escrowTxHash, refundTxHash := none,
            createdAtLedger := o.createdAtLedger, updatedAtLedger := o.updatedAtLedger })
    pendingOffers := fun i =>
      (db.pendingOffers i).filter fun o => decide (o.listingId ≠ listingId) })

/-- What `LISTING_CREATED` writes over a row that is there. -/
def ListingRow.renew (row old : ListingRow) : ListingRow :=
  { old with
    artist := row.artist, price := row.price, collection := row.collection,
    nftTokenId := row.nftTokenId, status := .active, recipients := row.recipients,
    updatedAtLedger := row.updatedAtLedger }

abbrev listingCreated (listingId : Nat) (row : ListingRow) : Reduce Unit := do
  let known ← find fun db => db.listings listingId
  listing.upsert listingId row row.renew
  when (known.isNone = true) (promotePendingOffers listingId)

/-- `LISTING_PRICE_UPDATED`: the price trail, then the listing. -/
def listingPriceUpdated (row : PriceHistoryRow) : Reduce Unit := do
  statement fun db =>
    if row.fits then .ok ((), { db with priceHistory := db.priceHistory ++ [row] })
    else .error (.refused "PriceHistory")
  Call.discard (listing.updateMany row.listingId (fun _ => true) fun l =>
    { l with price := row.newPrice, updatedAtLedger := row.changedAtLedger })

/-- Change the row of a listing, if it is there. -/
def touchListing (listingId : Nat) (change : ListingRow → ListingRow) : Reduce Unit :=
  Call.discard (listing.updateMany listingId (fun _ => true) change)

/-! ### Auctions -/

/-- The row of a new auction. -/
def newAuction (event : Arrival) (auctionId : Nat) (creator : Address) (reservePrice : Int)
    (token collection : Address) (tokenId endTime : Nat) : AuctionRow :=
  match event.chain.auction auctionId with
  | some a =>
    { auctionId, creator := a.creator, collection := a.collection, nftTokenId := a.tokenId,
      token := a.token, reservePrice := a.reservePrice, highestBid := 0, highestBidder := none,
      endTime := a.endTime, status := .active, recipients := a.recipients,
      createdAtLedger := event.ledgerSequence, updatedAtLedger := event.ledgerSequence,
      extensionCount := 0, originalEndTime := a.endTime, maxExtensions := a.maxExtensions }
  | none =>
    { auctionId, creator, collection, nftTokenId := tokenId, token, reservePrice, highestBid := 0,
      highestBidder := none, endTime, status := .active, recipients := [],
      createdAtLedger := event.ledgerSequence, updatedAtLedger := event.ledgerSequence,
      extensionCount := 0, originalEndTime := endTime, maxExtensions := 0 }

/-- What `AUCTION_CREATED` writes over a row that is there. -/
def AuctionRow.renew (row old : AuctionRow) : AuctionRow :=
  { old with
    creator := row.creator, collection := row.collection, nftTokenId := row.nftTokenId,
    token := row.token, reservePrice := row.reservePrice, endTime := row.endTime,
    status := .active, recipients := row.recipients, updatedAtLedger := row.updatedAtLedger,
    maxExtensions := row.maxExtensions }

def auctionCreated (auctionId : Nat) (row : AuctionRow) : Reduce Unit :=
  auction.upsert auctionId row row.renew

/-- Change the row of an auction, if it is there. -/
def touchAuction (auctionId : Nat) (change : AuctionRow → AuctionRow) : Reduce Unit :=
  Call.discard (auction.updateMany auctionId (fun _ => true) change)

/-- The two bids stand for the same auction, ledger and bidder. -/
def BidRow.sameKey (row row' : BidRow) : Bool :=
  decide (row.auctionId = row'.auctionId) && decide (row.ledgerSequence = row'.ledgerSequence) &&
    decide (row.bidder = row'.bidder)

/-- `bid.upsert`: a bid that is already there only gets the new amount. -/
def upsertBid (row : BidRow) : Reduce Unit :=
  statement fun db =>
    if row.fits then
      .ok ((), { db with
        bids :=
          if db.bids.any row.sameKey then
            db.bids.map fun b => if row.sameKey b then { b with amount := row.amount } else b
          else db.bids ++ [row] })
    else .error (.refused "Bid")

/-- When an auction is resolved the bids that did not win become refundable. -/
def markRefundable (auctionId : Nat) (winner : Option Address) : Reduce Unit :=
  statement fun db => .ok ((), { db with
    bids := db.bids.map fun b =>
      if b.auctionId = auctionId ∧ winner ≠ some b.bidder ∧ b.refundStatus = .none then
        { b with refundStatus := .refundable }
      else b })

/-- The ledger of the latest bid of `bidder`. -/
def latestBidLedger (bids : List BidRow) (auctionId : Nat) (bidder : Address) : Nat :=
  ((bids.filter fun b => b.auctionId = auctionId ∧ b.bidder = bidder).map
    BidRow.ledgerSequence).foldl max 0

/-- The latest bid of a bidder is marked claimed. -/
def markClaimed (auctionId : Nat) (bidder : Address) : Reduce Unit :=
  statement fun db => .ok ((), { db with
    bids := db.bids.map fun b =>
      if b.auctionId = auctionId ∧ b.bidder = bidder ∧
          b.ledgerSequence = latestBidLedger db.bids auctionId bidder then
        { b with refundStatus := .claimed }
      else b })

/-- `AUCTION_RESOLVED`, guarded against older events. -/
def auctionResolved (event : Arrival) (auctionId : Nat) (winner : Option Address) (amount : Int) :
    Reduce Unit := do
  Call.discard (auction.updateMany auctionId
    (fun row => decide (row.updatedAtLedger ≤ event.ledgerSequence)) fun row =>
      { row with
        status := .finalized, highestBid := amount, highestBidder := winner,
        updatedAtLedger := event.ledgerSequence })
  markRefundable auctionId winner

/-! ### Offers -/

/-- What `OFFER_MADE` writes over a row that is not newer. -/
def OfferRow.renew (row old : OfferRow) : OfferRow :=
  { old with
    listingId := row.listingId, offerer := row.offerer, amount := row.amount, token := row.token,
    status := .pending, expiresAt := row.expiresAt, escrowTxHash := row.escrowTxHash,
    updatedAtLedger := row.updatedAtLedger }

/-- `OFFER_MADE`: an offer on a listing that is not there yet is staged. -/
abbrev offerMade (row : OfferRow) : Reduce Unit := do
  let known ← find fun db => db.listings row.listingId
  if known.isNone then
    pendingOffer.upsert row.offerId
      { offerId := row.offerId, listingId := row.listingId, offerer := row.offerer,
        amount := row.amount, token := row.token, expiresAt := row.expiresAt,
        escrowTxHash := row.escrowTxHash, createdAtLedger := row.createdAtLedger,
        updatedAtLedger := row.updatedAtLedger } id
  else do
    offer.upsert row.offerId row id
    Call.discard (offer.updateMany row.offerId
      (fun old => decide (old.updatedAtLedger ≤ row.updatedAtLedger)) row.renew)

/-- The row of a new offer. -/
def newOffer (event : Arrival) (offerId listingId : Nat) (offerer : Address) (amount : Int)
    (token : Address) (expiresAt : Option Nat) : OfferRow :=
  { offerId, listingId, offerer, amount, token, expiresAt
    status := .pending
    escrowTxHash := orNull event.txHash
    refundTxHash := none
    createdAtLedger := event.ledgerSequence
    updatedAtLedger := event.ledgerSequence }

/-- The row of an offer that has come to its end. -/
def closedOffer (event : Arrival) (status : OfferStatus) (row : OfferRow) : OfferRow :=
  { row with
    status, refundTxHash := orNull event.txHash, updatedAtLedger := event.ledgerSequence }

/-! ### Settlements -/

/-- `ROYALTY_PAID`: one row for every entry of the breakdown, written at once. -/
def royaltyPaid (rows : List RoyaltyPaymentRow) : Reduce Unit :=
  when (rows ≠ []) (statement fun db =>
    if rows.all RoyaltyPaymentRow.fits then
      .ok ((), { db with royaltyPayments := db.royaltyPayments ++ rows })
    else .error (.refused "RoyaltyPayment"))

/-- The rows of a breakdown. -/
def royaltyRows (event : Arrival) (listingId auctionId : Option Nat) (salePrice : Int)
    (recipients : List Marketplace.RecipientPayout) : List RoyaltyPaymentRow :=
  recipients.map fun r =>
    { listingId, auctionId, recipient := r.address, amount := r.amount, salePrice,
      ledgerSequence := event.ledgerSequence }

/-! ### Collections -/

/-- A launchpad deployment. -/
def deployed (event : Arrival) (kind : CollectionKind) (creator contractAddr : Address) :
    Reduce Unit :=
  statement fun db =>
    let row := match db.collections contractAddr with
      | some old => { old with creator, deployedAtLedger := event.ledgerSequence }
      | none => ⟨kind, creator, event.ledgerSequence, none⟩
    if row.fits then
      .ok ((), { db with collections := Function.update db.collections contractAddr (some row) })
    else .error (.refused "Collection")

/-- `COLLECTION_FEE_SET` and `COLLECTION_FEE_CLEARED`. -/
def collectionFee (scope : Scope) (collection : Address) (bps : Option Nat) : Reduce Unit := do
  statement fun db =>
    match db.collections collection with
    | some old =>
      let row := { old with feeBpsOverride := bps }
      if row.fits then
        .ok ((), { db with collections := Function.update db.collections collection (some row) })
      else .error (.refused "Collection")
    | none => .ok ((), db)
  use scope .contractAddr

/-! ### The switch -/

/-- The cases of `processEvent` that need an id. -/
def reduce (scope : Scope) (event : Arrival) (id : Nat) : Marketplace.Event → Reduce Unit
  | .listingCreated _ artist price currency collection tokenId _ _ =>
    listingCreated id (newListing event id artist price currency collection tokenId)
  | .listingUpdated _ _ newPrice collection tokenId _ => do
    Call.discard (listing.updateMany id
      (fun row => decide (row.updatedAtLedger ≤ event.ledgerSequence)) fun row =>
        { row with
          price := newPrice, collection, nftTokenId := tokenId,
          updatedAtLedger := event.ledgerSequence })
    use scope .invalidatePattern
    use scope .invalidateKey
  | .listingPriceUpdated _ oldPrice newPrice updatedBy =>
    listingPriceUpdated ⟨id, oldPrice, newPrice, updatedBy, event.ledgerSequence⟩
  | .artworkSold _ _ buyer .. =>
    touchListing id fun row =>
      { row with status := .sold, owner := some buyer, updatedAtLedger := event.ledgerSequence }
  | .royaltyPaid listingId auctionId salePrice _ _ recipients _ =>
    royaltyPaid (royaltyRows event listingId auctionId salePrice recipients)
  | .listingCancelled .. => do
    touchListing id fun row =>
      { row with status := .cancelled, updatedAtLedger := event.ledgerSequence }
    use scope .invalidatePattern
    use scope .invalidateKey
  | .auctionCreated _ creator reservePrice token collection tokenId endTime _ =>
    auctionCreated id (newAuction event id creator reservePrice token collection tokenId endTime)
  | .bidPlaced _ bidder amount _ => do
    upsertBid ⟨id, bidder, amount, event.ledgerSequence, .none⟩
    touchAuction id fun row =>
      { row with
        highestBid := amount, highestBidder := some bidder,
        updatedAtLedger := event.ledgerSequence }
    use scope .invalidatePattern
    use scope .invalidateKey
  | .auctionFinalized _ winner amount _ => auctionResolved event id winner amount
  | .auctionCancelled .. =>
    touchAuction id fun row =>
      { row with status := .cancelled, updatedAtLedger := event.ledgerSequence }
  | .auctionExtended _ _ newEndTime extensionCount =>
    touchAuction id fun row =>
      { row with
        endTime := newEndTime, extensionCount, updatedAtLedger := event.ledgerSequence }
  | .auctionBidRefunded _ bidder .. => markClaimed id bidder
  | .auctionReservePriceUpdated _ _ _ newReservePrice _ =>
    touchAuction id fun row =>
      { row with reservePrice := newReservePrice, updatedAtLedger := event.ledgerSequence }
  | .offerMade offerId listingId offerer amount token expiresAt _ =>
    offerMade (newOffer event offerId listingId offerer amount token expiresAt)
  | .offerAccepted offerId listingId offerer _ _ => do
    offer.update offerId (closedOffer event .accepted)
    touchListing listingId fun row =>
      { row with status := .sold, owner := some offerer, updatedAtLedger := event.ledgerSequence }
  | .offerRejected offerId .. => offer.update offerId (closedOffer event .rejected)
  | .offerWithdrawn offerId .. => offer.update offerId (closedOffer event .withdrawn)
  | .offerReclaimed offerId .. =>
    Call.discard (offer.updateMany offerId
      (fun row => decide (row.updatedAtLedger ≤ event.ledgerSequence)) (closedOffer event .reclaimed))
  | .listingOwnershipReconciled _ _ newOwner .. =>
    touchListing id fun row =>
      { row with owner := some newOwner, updatedAtLedger := event.ledgerSequence }
  | _ => pure ()

/-- `processEvent` for an event that is already stored. The number zero counts as no id. -/
def processEvent (scope : Scope) (event : Arrival) : Reduce Unit :=
  match event.data with
  | .deploy kind creator contractAddr => deployed event kind creator contractAddr
  | .marketplace (.collectionFeeSet collection bps) => collectionFee scope collection (some bps)
  | .marketplace (.collectionFeeCleared collection) => collectionFee scope collection none
  | .marketplace e =>
    if event.listingId.getD 0 = 0 then pure () else reduce scope event (event.listingId.getD 0) e

def applyDecodedEvents (scope : Scope) (events : List Arrival) : Reduce (List Arrival) := do
  let newEvents ← upsertEvents events
  each (processEvent scope) newEvents
  pure newEvents

end ElcareHub.Indexer
