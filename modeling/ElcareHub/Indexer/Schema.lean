import ElcareHub.Lib.Session
import ElcareHub.Marketplace.Contract

/-!
# Events and tables of the indexer

The events the indexer decodes (`parser.ts`) and the tables it writes (`schema.prisma` and the
migrations), as far as the reduction of events reads and writes them.

A decoded event carries the payload the contract published. Its type is the one its topic names, and
the id it is filed under is the first of `listing_id`, `auction_id` and `id` the payload has. The hash
that identifies an event is taken over four fields; hashes of different fields are different here.

Columns that nothing below reads are left out: the actor of an event, time stamps, search vectors, the
metadata version of a token, the quantities and royalty fields that keep their defaults.
-/

namespace ElcareHub.Indexer

/-! ### Decoded events -/

/-- The types of events, named as their topics in `events.rs` are, and the deployments of the
launchpad. -/
inductive EventType
  | listingCreated | artworkSold | listingCancelled | listingUpdated | listingPriceUpdated
  | listingExpired | listingReservationSet | listingOwnershipReconciled | batchItemInvalid
  | nftEscrowed | nftReleased | royaltySettlement | royaltyPaid | feeAttribution
  | protocolFeeCollected | royaltyClaimQueued | royaltyClaimed | auctionCreated | bidPlaced
  | auctionResolved | auctionExtended | auctionCancelled | auctionBidRefunded
  | auctionAdminCancelled | auctionReserveUpdated | bidderBlocked | bidderUnblocked | offerMade
  | offerAccepted | offerRejected | offerWithdrawn | offerReclaimed | offerExpiredSweep
  | counterOfferMade | adminTransferProposed | adminTransferred | adminProposalCancelled
  | roleTransferProposed | roleTransferred | roleProposalCancelled | roleProposalOverwritten
  | roleMigrated | treasuryProposed | treasuryAccepted | treasuryProposalCancelled
  | collectionFeeSet | collectionFeeCleared | listingDurationConfigUpdated | auctionConfigUpdated
  | contractPaused | contractUnpaused | collectionPaused | collectionUnpaused | functionPaused
  | functionUnpaused | artistRevoked | artistReinstated | tokenWhitelisted | tokenRemoved
  | governanceProposed | governanceApproved | governanceExecuted | governanceCancelled
  | ttlAnomaly | cleanupSummary | terminalCleaned | migrationPhaseComplete
  | deployNormal721 | deployNormal1155 | deployLazy721 | deployLazy1155
  deriving DecidableEq

/-- The type the topic of a marketplace event names. -/
def typeOf : Marketplace.Event → EventType
  | .listingCreated .. => .listingCreated
  | .artworkSold .. => .artworkSold
  | .listingCancelled .. => .listingCancelled
  | .listingUpdated .. => .listingUpdated
  | .listingPriceUpdated .. => .listingPriceUpdated
  | .listingExpired .. => .listingExpired
  | .listingReservationSet .. => .listingReservationSet
  | .listingOwnershipReconciled .. => .listingOwnershipReconciled
  | .batchItemInvalid .. => .batchItemInvalid
  | .nftEscrowed .. => .nftEscrowed
  | .nftReleased .. => .nftReleased
  | .royaltySettlement .. => .royaltySettlement
  | .royaltyPaid .. => .royaltyPaid
  | .feeAttribution .. => .feeAttribution
  | .protocolFeeCollected .. => .protocolFeeCollected
  | .royaltyClaimQueued .. => .royaltyClaimQueued
  | .royaltyClaimed .. => .royaltyClaimed
  | .auctionCreated .. => .auctionCreated
  | .bidPlaced .. => .bidPlaced
  | .auctionFinalized .. => .auctionResolved
  | .auctionExtended .. => .auctionExtended
  | .auctionCancelled .. => .auctionCancelled
  | .auctionBidRefunded .. => .auctionBidRefunded
  | .auctionAdminCancelled .. => .auctionAdminCancelled
  | .auctionReservePriceUpdated .. => .auctionReserveUpdated
  | .auctionBidderBlocked .. => .bidderBlocked
  | .auctionBidderUnblocked .. => .bidderUnblocked
  | .offerMade .. => .offerMade
  | .offerAccepted .. => .offerAccepted
  | .offerRejected .. => .offerRejected
  | .offerWithdrawn .. => .offerWithdrawn
  | .offerReclaimed .. => .offerReclaimed
  | .offerExpiredSweep .. => .offerExpiredSweep
  | .counterOfferMade .. => .counterOfferMade
  | .adminTransferProposed .. => .adminTransferProposed
  | .adminTransferred .. => .adminTransferred
  | .adminProposalCancelled .. => .adminProposalCancelled
  | .roleTransferProposed .. => .roleTransferProposed
  | .roleTransferred .. => .roleTransferred
  | .roleProposalCancelled .. => .roleProposalCancelled
  | .roleProposalOverwritten .. => .roleProposalOverwritten
  | .roleMigrated .. => .roleMigrated
  | .treasuryProposed .. => .treasuryProposed
  | .treasuryAccepted .. => .treasuryAccepted
  | .treasuryProposalCancelled .. => .treasuryProposalCancelled
  | .collectionFeeSet .. => .collectionFeeSet
  | .collectionFeeCleared .. => .collectionFeeCleared
  | .listingDurationConfigUpdated .. => .listingDurationConfigUpdated
  | .auctionConfigUpdated .. => .auctionConfigUpdated
  | .contractPaused => .contractPaused
  | .contractUnpaused => .contractUnpaused
  | .collectionPaused .. => .collectionPaused
  | .collectionUnpaused .. => .collectionUnpaused
  | .functionPaused .. => .functionPaused
  | .functionUnpaused .. => .functionUnpaused
  | .artistRevoked .. => .artistRevoked
  | .artistReinstated .. => .artistReinstated
  | .tokenWhitelisted .. => .tokenWhitelisted
  | .tokenRemoved .. => .tokenRemoved
  | .governanceProposed .. => .governanceProposed
  | .governanceApproved .. => .governanceApproved
  | .governanceExecuted .. => .governanceExecuted
  | .governanceCancelled .. => .governanceCancelled
  | .ttlAnomaly .. => .ttlAnomaly
  | .cleanupSummary .. => .cleanupSummary
  | .terminalCleaned .. => .terminalCleaned
  | .migrationPhaseCompleted .. => .migrationPhaseComplete

/-- `listing_id`, else `auction_id`, else `id` of the payload. -/
def idOf : Marketplace.Event → Option Nat
  | .listingCreated k .. | .artworkSold k .. | .listingCancelled k .. | .listingUpdated k ..
  | .listingPriceUpdated k .. | .listingExpired k .. | .listingReservationSet k ..
  | .listingOwnershipReconciled k .. | .feeAttribution k .. | .protocolFeeCollected k .. => some k
  | .nftEscrowed id .. | .nftReleased id .. | .royaltySettlement id .. | .ttlAnomaly _ id _
  | .terminalCleaned _ id _ => some id
  | .royaltyPaid listingId auctionId .. => listingId.or auctionId
  | .auctionCreated k .. | .bidPlaced k .. | .auctionFinalized k .. | .auctionExtended k ..
  | .auctionCancelled k .. | .auctionBidRefunded k .. | .auctionAdminCancelled k ..
  | .auctionReservePriceUpdated k .. | .auctionBidderBlocked k .. | .auctionBidderUnblocked k .. =>
    some k
  | .offerMade _ k .. | .offerAccepted _ k .. | .offerRejected _ k .. | .offerWithdrawn _ k ..
  | .offerReclaimed _ k .. | .offerExpiredSweep _ k .. | .counterOfferMade _ _ k .. => some k
  | _ => none

/-- The kinds of collections the launchpad deploys. -/
inductive CollectionKind
  | normal721 | normal1155 | lazy721 | lazy1155

/-- The payload of an event. -/
inductive Payload
  | marketplace (e : Marketplace.Event)
  | deploy (kind : CollectionKind) (creator contractAddr : Address)

def Payload.eventType : Payload → EventType
  | .marketplace e => typeOf e
  | .deploy .normal721 _ _ => .deployNormal721
  | .deploy .normal1155 _ _ => .deployNormal1155
  | .deploy .lazy721 _ _ => .deployLazy721
  | .deploy .lazy1155 _ _ => .deployLazy1155

def Payload.listingId : Payload → Option Nat
  | .marketplace e => idOf e
  | .deploy .. => none

/-- What `computeEventHash` hashes. -/
structure EventHash where
  contractId : Address
  ledgerSequence : Nat
  txHash : String
  eventIndex : Nat
  deriving DecidableEq

structure DecodedEvent where
  data : Payload
  ledgerSequence : Nat
  contractId : Address
  txHash : String
  eventIndex : Nat

namespace DecodedEvent

variable (event : DecodedEvent)

abbrev eventType : EventType := event.data.eventType

abbrev listingId : Option Nat := event.data.listingId

def eventHash : EventHash :=
  ⟨event.contractId, event.ledgerSequence, event.txHash, event.eventIndex⟩

end DecodedEvent

/-! ### Columns -/

/-- The values of an `INTEGER` column that are not negative. -/
def isInt (n : Nat) : Bool := decide (n < 2 ^ 31)

/-- The values of a `BIGINT` column that are not negative. -/
def isBigInt (n : Nat) : Bool := decide (n < 2 ^ 63)

/-- The whole numbers of a `DECIMAL(32, 7)` column with the check that they are not negative. -/
def isAmount (x : Int) : Bool := decide (0 ≤ x) && decide (x < 10 ^ 25)

inductive ListingStatus
  | active | sold | cancelled | auction

inductive AuctionStatus
  | active | finalized | cancelled

inductive OfferStatus
  | pending | accepted | rejected | withdrawn | reclaimed

inductive BidRefundStatus
  | none | refundable | claimed
  deriving DecidableEq

/-! ### Rows -/

structure EventRow where
  listingId : Option Nat
  eventType : EventType
  data : Payload
  ledgerSequence : Nat
  eventHash : EventHash
  contractId : Address

def EventRow.fits (row : EventRow) : Bool :=
  row.listingId.all isBigInt && decide (0 < row.ledgerSequence) && isInt row.ledgerSequence

structure ListingRow where
  listingId : Nat
  artist : Address
  owner : Option Address
  price : Int
  currency : Symbol
  collection : Address
  nftTokenId : Nat
  token : Option Address
  status : ListingStatus
  recipients : List Marketplace.Recipient
  createdAtLedger : Nat
  updatedAtLedger : Nat

def ListingRow.fits (row : ListingRow) : Bool :=
  isBigInt row.listingId && isAmount row.price && isBigInt row.nftTokenId &&
    isInt row.createdAtLedger && isInt row.updatedAtLedger

structure AuctionRow where
  auctionId : Nat
  creator : Address
  collection : Address
  nftTokenId : Nat
  token : Address
  reservePrice : Int
  highestBid : Int
  highestBidder : Option Address
  endTime : Nat
  status : AuctionStatus
  recipients : List Marketplace.Recipient
  createdAtLedger : Nat
  updatedAtLedger : Nat
  extensionCount : Nat
  originalEndTime : Nat
  maxExtensions : Nat

def AuctionRow.fits (row : AuctionRow) : Bool :=
  isBigInt row.auctionId && isBigInt row.nftTokenId && isAmount row.reservePrice &&
    isAmount row.highestBid && isBigInt row.endTime && isInt row.createdAtLedger &&
    isInt row.updatedAtLedger && isInt row.extensionCount && isBigInt row.originalEndTime &&
    isInt row.maxExtensions

structure OfferRow where
  offerId : Nat
  listingId : Nat
  offerer : Address
  amount : Int
  token : Address
  status : OfferStatus
  expiresAt : Option Nat
  escrowTxHash : Option String
  refundTxHash : Option String
  createdAtLedger : Nat
  updatedAtLedger : Nat

def OfferRow.fits (row : OfferRow) : Bool :=
  isBigInt row.offerId && decide (0 < row.listingId) && isBigInt row.listingId &&
    isAmount row.amount && row.expiresAt.all isBigInt && isInt row.createdAtLedger &&
    isInt row.updatedAtLedger

/-- An offer whose listing has not been indexed yet. -/
structure PendingOfferRow where
  offerId : Nat
  listingId : Nat
  offerer : Address
  amount : Int
  token : Address
  expiresAt : Option Nat
  escrowTxHash : Option String
  createdAtLedger : Nat
  updatedAtLedger : Nat

def PendingOfferRow.fits (row : PendingOfferRow) : Bool :=
  isBigInt row.offerId && isBigInt row.listingId && isAmount row.amount &&
    row.expiresAt.all isBigInt && isInt row.createdAtLedger && isInt row.updatedAtLedger

structure BidRow where
  auctionId : Nat
  bidder : Address
  amount : Int
  ledgerSequence : Nat
  refundStatus : BidRefundStatus

def BidRow.fits (row : BidRow) : Bool :=
  isBigInt row.auctionId && isAmount row.amount && isInt row.ledgerSequence

structure PriceHistoryRow where
  listingId : Nat
  oldPrice : Int
  newPrice : Int
  changedBy : Address
  changedAtLedger : Nat

def PriceHistoryRow.fits (row : PriceHistoryRow) : Bool :=
  isBigInt row.listingId && isAmount row.oldPrice && isAmount row.newPrice &&
    isInt row.changedAtLedger

structure RoyaltyPaymentRow where
  listingId : Option Nat
  auctionId : Option Nat
  recipient : Address
  amount : Int
  salePrice : Int
  ledgerSequence : Nat

/-- A payment comes from a listing or from an auction, and not from both. -/
def RoyaltyPaymentRow.fits (row : RoyaltyPaymentRow) : Bool :=
  row.listingId.all isBigInt && row.auctionId.all isBigInt && isAmount row.amount &&
    isAmount row.salePrice && isInt row.ledgerSequence &&
    decide (row.listingId.isSome ≠ row.auctionId.isSome)

structure CollectionRow where
  kind : CollectionKind
  creator : Address
  deployedAtLedger : Nat
  feeBpsOverride : Option Nat

def CollectionRow.fits (row : CollectionRow) : Bool :=
  isInt row.deployedAtLedger && row.feeBpsOverride.all fun bps => decide (bps ≤ 10000)

/-! ### The database -/

structure Db where
  events : List EventRow
  listings : Nat → Option ListingRow
  auctions : Nat → Option AuctionRow
  offers : Nat → Option OfferRow
  pendingOffers : Nat → Option PendingOfferRow
  bids : List BidRow
  priceHistory : List PriceHistoryRow
  royaltyPayments : List RoyaltyPaymentRow
  collections : Address → Option CollectionRow

/-- A database after its migrations. -/
def Db.empty : Db where
  events := []
  listings _ := none
  auctions _ := none
  offers _ := none
  pendingOffers _ := none
  bids := []
  priceHistory := []
  royaltyPayments := []
  collections _ := none

def listing : Model Db ListingRow where
  name := "Listing"
  rows := Db.listings
  save t db := { db with listings := t }
  fits := ListingRow.fits
  save_rows _ := rfl

def auction : Model Db AuctionRow where
  name := "Auction"
  rows := Db.auctions
  save t db := { db with auctions := t }
  fits := AuctionRow.fits
  save_rows _ := rfl

def offer : Model Db OfferRow where
  name := "Offer"
  rows := Db.offers
  save t db := { db with offers := t }
  fits := OfferRow.fits
  save_rows _ := rfl

def pendingOffer : Model Db PendingOfferRow where
  name := "PendingOffer"
  rows := Db.pendingOffers
  save t db := { db with pendingOffers := t }
  fits := PendingOfferRow.fits
  save_rows _ := rfl

end ElcareHub.Indexer
