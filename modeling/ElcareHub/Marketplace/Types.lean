import ElcareHub.Ledger

/-!
# Marketplace data types

The records, enumerations and error codes of the marketplace contract (`types.rs`, and the storage
records of `storage.rs`). A `Vec` is a `List`, a symbol is its text.
-/

namespace ElcareHub

namespace Marketplace

/-- The four role axes that own the privileged entry points. -/
inductive RoleType
  | protocolConfig
  | emergencyPause
  | collectionAdmin
  | upgrade
  deriving DecidableEq

/-- The error codes of the contract, in the order of their discriminants. -/
inductive MarketplaceError
  | invalidCid | invalidPrice | listingNotFound | listingNotActive | unauthorized
  | cannotBuyOwnListing | invalidSplit | tooManyRecipients | auctionNotFound | auctionNotActive
  | bidTooLow | auctionExpired | auctionNotExpired | auctionAlreadyFinalized | artistRevoked
  | offerNotFound | cannotOfferOwnListing | offerNotPending | insufficientOfferAmount
  | listingSold | listingCancelled | reentrancyGuard | contractPaused | invalidRoyalty
  | tokenNotWhitelisted | royaltyExceedsLimit | listingExpired | listingNotExpired
  | auctionNotEnded | auctionHasBids | invalidAuctionDuration | selfBidNotAllowed
  | invalidOfferState | offerExpired | offerLimitReached | batchTooLarge | alreadyMigrated
  | selfPurchaseNotAllowed | priceOutOfBounds | arithmeticOverflow | adminProposalExpired
  | noAdminProposalPending | zeroRecipientBps | duplicateRecipient | invalidAuctionState
  | noBidToRefund | invalidExtensionWindow | maxExtensionsReached | notTokenOwner
  | tokenAlreadyEscrowed | auctionDurationLimitReached | noRoleProposalPending
  | roleProposalExpired | roleTransferToSelf | roleTransferToContract | treasuryProposalExpired
  | noTreasuryProposalPending | treasuryProposalSelf | invalidListingDuration
  | collectionIncompatible | batchItemInvalid | ownershipMismatch | royaltyAlreadyClaimed
  | royaltyClaimNotFound | reservationWindowActive | invalidReservationWindow
  | governanceProposalNotFound | governanceThresholdNotMet | governanceAlreadyApproved
  | governanceProposalExpired | governanceProposalAlreadyExecuted | governanceProposalCancelled
  | governanceSignerNotAuthorized | notCounterOffer | invalidStateTransition
  deriving DecidableEq

/-- The numeric code a client sees: the codes run from `InvalidCid = 1` without a gap. -/
def MarketplaceError.code (e : MarketplaceError) : Nat := e.ctorIdx + 1

example : MarketplaceError.code .reentrancyGuard = 22 := rfl
example : MarketplaceError.code .invalidStateTransition = 75 := rfl

/-- How a call ends without returning: a typed contract error, a missing authorisation, a trap of
the host (arithmetic overflow, `expect`, `unwrap`, an untyped panic), or a trap inside a token or
collection contract it invoked. -/
inductive Abort
  | contract (error : MarketplaceError)
  | unauthenticated (who : Address)
  | trap (message : String)
  | token (token : Address)
  | collection (collection : Address)
  deriving DecidableEq

/-! ### Listings -/

inductive ListingStatus
  | active
  | sold
  | cancelled
  deriving DecidableEq

/-- Why a listing was cancelled. -/
inductive CancelReason
  | owner
  | expired
  | adminRevoked

/-- A payout recipient and its share in basis points. -/
structure Recipient where
  address : Address
  percentage : Nat

structure Listing where
  listingId : Nat
  artist : Address
  price : Int
  currency : Symbol
  token : Address
  collection : Address
  tokenId : Nat
  quantity : Nat
  recipients : List Recipient
  status : ListingStatus
  owner : Option Address
  createdAt : Nat
  protocolFeeBps : Nat
  expiresAt : Option Nat
  reservedFor : Option Address
  reservationStart : Option Nat
  reservationEnd : Option Nat

structure BatchCreateListingInput where
  price : Int
  currency : Symbol
  token : Address
  collection : Address
  tokenId : Nat
  quantity : Nat
  recipients : List Recipient
  expiresAt : Option Nat

structure BatchUpdateListingInput where
  listingId : Nat
  newPrice : Int
  newToken : Address
  newRecipients : List Recipient

/-! ### Auctions -/

inductive AuctionStatus
  | active
  | finalized
  | cancelled
  deriving DecidableEq

/-- Why an auction was cancelled. -/
inductive AuctionCancelReason
  | owner
  | admin
  | emergency

structure Auction where
  auctionId : Nat
  creator : Address
  token : Address
  collection : Address
  tokenId : Nat
  reservePrice : Int
  highestBid : Int
  highestBidder : Option Address
  endTime : Nat
  status : AuctionStatus
  recipients : List Recipient
  minIncrement : Int
  extensionWindow : Nat
  extensionTrigger : Nat
  protocolFeeBps : Nat
  bidHistoryCap : Nat
  maxExtensions : Nat
  extensionCount : Nat
  originalEndTime : Nat

/-- One entry of an auction's bid-history ring buffer. -/
structure BidRecord where
  bidder : Address
  amount : Int
  ledger : Nat

/-! ### Offers -/

inductive OfferStatus
  | pending
  | accepted
  | rejected
  | withdrawn
  | expired
  deriving DecidableEq

structure Offer where
  offerId : Nat
  listingId : Nat
  offerer : Address
  amount : Int
  token : Address
  status : OfferStatus
  createdAt : Nat
  expiresAt : Option Nat

/-! ### Payouts -/

/-- One transfer made out of a sale price, as the settlement reports it. -/
structure RecipientPayout where
  address : Address
  amount : Int
  deriving DecidableEq

/-- The payout status of one recipient of one settlement. -/
structure RoyaltyClaimRecord where
  settlementId : Nat
  isListing : Bool
  recipient : Address
  token : Address
  amount : Int
  claimed : Bool
  createdAt : Nat
  claimedAt : Option Nat

/-- An entry of the per-recipient claim index. -/
structure RoyaltyClaimRef where
  settlementId : Nat
  isListing : Bool

/-! ### Governance -/

inductive GovernanceProposalType
  | treasuryRotation
  | feeIncrease
  | globalPause

structure GovernanceProposal where
  proposalId : Nat
  proposalType : GovernanceProposalType
  proposedBy : Address
  signers : List Address
  threshold : Nat
  expiresAt : Nat
  createdAt : Nat
  executed : Bool
  cancelled : Bool
  payloadAddress : Option Address
  payloadU32 : Option Nat
  payloadBool : Option Bool

/-! ### Storage records -/

structure PendingAdminProposal where
  candidate : Address
  expiresAt : Nat

structure PendingRoleProposal where
  candidate : Address
  expiresAt : Nat

structure PendingTreasuryProposal where
  candidate : Address
  proposedAt : Nat
  expiresAt : Nat

/-- Which listing (`isListing`) or auction an escrowed token is held for. -/
structure EscrowRecord where
  isListing : Bool
  id : Nat
  deriving DecidableEq

structure TokenWhitelistEntry where
  addedAt : Nat
  addedBy : Address
  active : Bool

structure MigrationProgress where
  phase : Nat
  cursor : Nat

structure TtlSweepProgress where
  phase : Nat
  cursor : Nat
  deriving DecidableEq

structure TerminalCleanupCursor where
  phase : Nat
  cursor : Nat

/-- The paged id indexes. -/
inductive IndexId
  | activeListings
  | artistListings (artist : Address)
  | artistAuctions (creator : Address)
  | offererOffers (offerer : Address)
  | listingOffers (listing : Nat)
  | tokenWhitelist
  deriving DecidableEq

end Marketplace

end ElcareHub
