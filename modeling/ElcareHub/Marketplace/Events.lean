import ElcareHub.Marketplace.Types

/-!
# Marketplace events

The events the contract publishes (`events.rs`), with their payloads in the source's field order.
`schemaVersion` is the constant the emitting site passes.
-/

namespace ElcareHub.Marketplace

def eventSchemaVersion : Nat := 1

inductive Event
  -- listings
  | listingCreated (listingId : Nat) (artist : Address) (price : Int) (currency : Symbol)
      (collection : Address) (tokenId ledgerSequence schemaVersion : Nat)
  | artworkSold (listingId : Nat) (artist buyer : Address) (price : Int) (currency : Symbol)
      (ledgerSequence schemaVersion : Nat)
  | listingCancelled (listingId : Nat) (cancelledBy : Address) (reason : CancelReason)
      (ledgerSequence : Nat)
  | listingUpdated (listingId : Nat) (artist : Address) (newPrice : Int) (collection : Address)
      (tokenId ledgerSequence : Nat)
  | listingPriceUpdated (listingId : Nat) (oldPrice newPrice : Int) (updatedBy : Address)
  | listingExpired (listingId expiredAt ledgerSequence : Nat)
  | listingReservationSet (listingId : Nat) (artist : Address) (reservedFor : Option Address)
      (reservationStart reservationEnd : Option Nat) (ledgerSequence : Nat)
  | listingOwnershipReconciled (listingId : Nat) (previousOwner : Option Address)
      (newOwner reconciledBy : Address) (ledgerSequence : Nat)
  | batchItemInvalid (itemIndex errorCode ledgerSequence : Nat)
  -- custody
  | nftEscrowed (id : Nat) (collection : Address) (tokenId : Nat) (seller : Address)
      (ledgerSequence : Nat)
  | nftReleased (id : Nat) (collection : Address) (tokenId : Nat) (recipient : Address)
      (ledgerSequence : Nat)
  -- settlement
  | royaltySettlement (id : Nat) (recipients : List Recipient) (totalAmount : Int)
      (token : Address) (ledgerSequence schemaVersion : Nat)
  | royaltyPaid (listingId auctionId : Option Nat) (salePrice protocolFeeAmount : Int)
      (token : Address) (recipients : List RecipientPayout) (ledgerSequence : Nat)
  | feeAttribution (listingId : Nat) (collection : Address) (appliedFeeBps : Nat)
      (isCollectionOverride : Bool) (schemaVersion : Nat)
  | protocolFeeCollected (listingId : Nat) (amount : Int) (token treasury : Address)
      (schemaVersion : Nat)
  | royaltyClaimQueued (settlementId : Nat) (isListing : Bool) (recipient token : Address)
      (amount : Int) (ledgerSequence : Nat)
  | royaltyClaimed (settlementId : Nat) (isListing : Bool) (recipient token : Address)
      (amount : Int) (ledgerSequence : Nat)
  -- auctions
  | auctionCreated (auctionId : Nat) (creator : Address) (reservePrice : Int)
      (token collection : Address) (tokenId endTime schemaVersion : Nat)
  | bidPlaced (auctionId : Nat) (bidder : Address) (bidAmount : Int) (effectiveEndTime : Nat)
  | auctionFinalized (auctionId : Nat) (winner : Option Address) (amount : Int)
      (schemaVersion : Nat)
  | auctionExtended (auctionId prevEndTime newEndTime extensionCount : Nat)
  | auctionCancelled (auctionId : Nat) (cancelledBy : Address) (reason : AuctionCancelReason)
      (escrowAmount : Int) (token : Address) (ledgerSequence schemaVersion : Nat)
  | auctionBidRefunded (auctionId : Nat) (bidder : Address) (amount : Int) (token : Address)
      (reason : Symbol) (ledgerSequence schemaVersion : Nat)
  | auctionAdminCancelled (auctionId : Nat) (cancelledBy : Address) (refundedAmount : Int)
      (token : Address) (ledgerSequence schemaVersion : Nat)
  | auctionReservePriceUpdated (auctionId : Nat) (updatedBy : Address)
      (oldReservePrice newReservePrice : Int) (ledgerSequence : Nat)
  | auctionBidderBlocked (auctionId : Nat) (bidder : Address)
  | auctionBidderUnblocked (auctionId : Nat) (bidder : Address)
  -- offers
  | offerMade (offerId listingId : Nat) (offerer : Address) (amount : Int) (token : Address)
      (expiresAt : Option Nat) (schemaVersion : Nat)
  | offerAccepted (offerId listingId : Nat) (offerer : Address) (amount : Int)
      (schemaVersion : Nat)
  | offerRejected (offerId listingId : Nat) (offerer : Address)
  | offerWithdrawn (offerId listingId : Nat) (offerer : Address)
  | offerReclaimed (offerId listingId : Nat) (offerer : Address) (amount : Int)
  | offerExpiredSweep (offerId listingId : Nat) (offerer : Address) (amount : Int)
      (token : Address) (ledgerSequence : Nat)
  | counterOfferMade (counterOfferId parentOfferId listingId : Nat) (counterparty : Address)
      (amount : Int) (token : Address) (expiresAt : Option Nat) (ledgerSequence : Nat)
  -- administration
  | adminTransferProposed (currentAdmin proposedAdmin : Address) (expiresAt : Nat)
  | adminTransferred (oldAdmin newAdmin : Address)
  | adminProposalCancelled (currentAdmin cancelledCandidate : Address)
  | roleTransferProposed (role : RoleType) (currentAuthority proposedAuthority : Address)
      (expiresAt : Nat)
  | roleTransferred (role : RoleType) (oldAuthority newAuthority : Address) (ledgerSequence : Nat)
  | roleProposalCancelled (role : RoleType) (currentAuthority cancelledCandidate : Address)
      (ledgerSequence : Nat)
  | roleProposalOverwritten (role : RoleType) (currentAuthority oldCandidate : Address)
      (oldExpiresAt : Nat) (newCandidate : Address) (newExpiresAt ledgerSequence : Nat)
  | roleMigrated (role : RoleType) (authority : Address)
  | treasuryProposed (currentTreasury : Option Address) (proposedTreasury : Address)
      (proposedAt expiresAt : Nat)
  | treasuryAccepted (oldTreasury : Option Address) (newTreasury : Address) (ledgerSequence : Nat)
  | treasuryProposalCancelled (cancelledBy cancelledCandidate : Address)
  | collectionFeeSet (collection : Address) (bps : Nat)
  | collectionFeeCleared (collection : Address)
  | listingDurationConfigUpdated (field : Symbol) (oldValue newValue : Option Nat)
  | auctionConfigUpdated (field : Symbol) (oldValue newValue : Option Int)
  | contractPaused
  | contractUnpaused
  | collectionPaused (collection : Address)
  | collectionUnpaused (collection : Address)
  | functionPaused (functionName : Symbol)
  | functionUnpaused (functionName : Symbol)
  | artistRevoked (artist : Address)
  | artistReinstated (artist : Address)
  | tokenWhitelisted (token addedBy : Address)
  | tokenRemoved (token removedBy : Address)
  | governanceProposed (proposalId : Nat) (proposalType : GovernanceProposalType)
      (proposedBy : Address) (threshold expiresAt ledgerSequence : Nat)
  | governanceApproved (proposalId : Nat) (approvedBy : Address)
      (approvalCount threshold ledgerSequence : Nat)
  | governanceExecuted (proposalId : Nat) (proposalType : GovernanceProposalType)
      (executedBy : Address) (ledgerSequence : Nat)
  | governanceCancelled (proposalId : Nat) (cancelledBy : Address) (ledgerSequence : Nat)
  -- maintenance
  | ttlAnomaly (subject : Symbol) (id ledgerSequence : Nat)
  | cleanupSummary (kind : Symbol) (itemsProcessed ledgerSequence : Nat)
  | terminalCleaned (kind : Symbol) (id ledgerSequence : Nat)
  | migrationPhaseCompleted (version : String) (phase recordsProcessed ledgerSequence : Nat)

end ElcareHub.Marketplace
