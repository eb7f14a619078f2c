import ElcareHub.Marketplace.Escrow
import ElcareHub.Marketplace.Settlement

/-!
# Auctions

The auction entry points of `contract.rs`: creation, the blocked-bidder registry, bidding with
outbid refunds and anti-sniping extension, finalisation, the refund claim of a losing bidder, and the
two cancellations.
-/

namespace ElcareHub.Marketplace

open Call

variable {C : Type} (host : Host C) (env : Env)

def defaultMinBidIncrement : Int := 1000000
def defaultExtensionWindow : Nat := 600
def defaultExtensionTrigger : Nat := 0
def defaultBidHistoryCap : Nat := 50
def defaultAuctionMaxExtensions : Nat := 0
def minAuctionDuration : Nat := 3600
def maxTotalAuctionDuration : Nat := 2592000
def maxBlockedBidders : Nat := 50

/-- `load_auction(..).unwrap_or_else(|| panic_with_error!(AuctionNotFound))`. -/
abbrev requireAuction (auctionId : Nat) : Tx C Auction := do
  let stored ← loadAuction auctionId
  orFail stored .auctionNotFound

abbrev createAuction (creator token collection : Address) (tokenId : Nat) (reservePrice : Int)
    (duration : Nat) (recipients : List Recipient) : Tx C Nat := do
  requireNotPausedCtx (some collection) (some "create_auction")
  requireAuth env creator
  requireNotRevoked creator
  let config ← view fun w => w.config
  let minIncrement := config.minBidIncrement.getD defaultMinBidIncrement
  failIf (reservePrice < minIncrement) .invalidPrice
  failIf (duration < minAuctionDuration) .invalidAuctionDuration
  validateTokenAsset host token (some collection)
  assertTokenPolicyActive token
  let protocolFeeBps := config.protocolFeeBps.getD 0
  requireRecipientCount recipients
  validateRecipients recipients
  let auctionId ← incrementAuctionCount
  let endTime ← addU64 env.timestamp duration
  let extensionWindow := config.auctionExtensionWindow.getD defaultExtensionWindow
  let extensionTrigger := config.auctionExtensionTrigger.getD defaultExtensionTrigger
  failIf (extensionTrigger > 0 ∧ extensionWindow = 0) .invalidExtensionWindow
  let auction : Auction :=
    { auctionId, creator, token, collection, tokenId, reservePrice, highestBid := 0,
      highestBidder := none, endTime, status := .active, recipients, minIncrement,
      extensionWindow, extensionTrigger, protocolFeeBps,
      bidHistoryCap := config.bidHistoryCap.getD defaultBidHistoryCap,
      maxExtensions := config.auctionMaxExtensions.getD defaultAuctionMaxExtensions,
      extensionCount := 0, originalEndTime := endTime }
  saveAuction auction
  indexAppend (.artistAuctions creator) auctionId
  emit (.auctionCreated auctionId creator reservePrice token collection tokenId endTime
    eventSchemaVersion)
  escrowNft host creator collection tokenId false auctionId
  emitNftEscrowed env auctionId collection tokenId creator
  pure auctionId

/-! ### Blocked bidders -/

abbrev blockBidder (caller : Address) (auctionId : Nat) (bidder : Address) : Tx C Unit := do
  requireAuth env caller
  let auction ← requireAuction auctionId
  failIf (auction.status ≠ .active) .auctionNotActive
  requireCreatorOrAdmin caller auction.creator
  let list ← loadBlockedBidders auctionId
  if bidder ∈ list then pure ()
  else do
    abortIf (list.length ≥ maxBlockedBidders) (.trap "blocked-bidder registry full")
    saveBlockedBidders auctionId (list ++ [bidder])
    emit (.auctionBidderBlocked auctionId bidder)

abbrev unblockBidder (caller : Address) (auctionId : Nat) (bidder : Address) : Tx C Unit := do
  requireAuth env caller
  let auction ← requireAuction auctionId
  requireCreatorOrAdmin caller auction.creator
  let list ← loadBlockedBidders auctionId
  if bidder ∈ list then do
    saveBlockedBidders auctionId (list.filter fun a => decide (a ≠ bidder))
    emit (.auctionBidderUnblocked auctionId bidder)
  else pure ()

/-! ### Bidding -/

/-- The anti-sniping analysis of `check_bid_invariants`: the new end time and extension count when
the bid extends the auction. -/
def bidExtension (auction : Auction) : Option (Nat × Nat) :=
  if auction.extensionTrigger > 0 ∧ auction.endTime - env.timestamp < auction.extensionTrigger then
    if auction.maxExtensions > 0 ∧ auction.extensionCount ≥ auction.maxExtensions then none
    else if auction.extensionWindow = 0 then none
    else
      let proposedEnd := if env.timestamp + auction.extensionWindow ≤ u64Max
        then env.timestamp + auction.extensionWindow else auction.endTime
      let maxAllowed := saturatingAddU64 auction.originalEndTime maxTotalAuctionDuration
      if proposedEnd ≤ maxAllowed then
        some (proposedEnd, saturatingAddU32 auction.extensionCount 1)
      else none
  else none

abbrev checkBidInvariants (auction : Auction) (bidder : Address) (amount : Int) :
    Tx C (Option (Nat × Nat)) := do
  failIf (auction.status ≠ .active) .auctionNotActive
  failIf (env.timestamp ≥ auction.endTime) .auctionExpired
  failIf (bidder = auction.creator) .selfBidNotAllowed
  let blocked ← loadBlockedBidders auction.auctionId
  failIf (bidder ∈ blocked) .unauthorized
  let requiredMin ←
    if auction.highestBid = 0 then pure auction.reservePrice
    else orFail (checkedI128 (auction.highestBid + auction.minIncrement)) .bidTooLow
  failIf (amount < requiredMin) .bidTooLow
  pure (bidExtension env auction)

/-- The auction record after an accepted bid. -/
def Auction.withBid (auction : Auction) (bidder : Address) (amount : Int)
    (extension : Option (Nat × Nat)) : Auction :=
  { auction with
    highestBid := amount
    highestBidder := some bidder
    endTime := (extension.map Prod.fst).getD auction.endTime
    extensionCount := (extension.map Prod.snd).getD auction.extensionCount }

/-- `place_bid`: record the bid, refund the bidder it outbids, and take the deposit. -/
abbrev placeBid (bidder : Address) (auctionId : Nat) (amount : Int) : Tx C Unit := do
  requireNotPausedCtx none (some "place_bid")
  requireAuth env bidder
  let auction ← requireAuction auctionId
  requireNotPausedCtx (some auction.collection) none
  let extension ← checkBidInvariants env auction bidder amount
  let auction' := auction.withBid bidder amount extension
  saveAuction auction'
  appendBidRecord auctionId ⟨bidder, amount, env.sequence⟩ auction.bidHistoryCap
  emit (.bidPlaced auctionId bidder amount auction'.endTime)
  onSome extension fun _ =>
    emit (.auctionExtended auctionId auction.endTime auction'.endTime auction'.extensionCount)
  onSome auction.highestBidder fun prev => do
    payTo host env (.auction auctionId) auction.token prev auction.highestBid
    emit (.auctionBidRefunded auctionId prev auction.highestBid auction.token "outbid" env.sequence
      eventSchemaVersion)
  depositFrom host env (.auction auctionId) auction.token bidder amount

/-! ### Closing -/

/-- The settlement of a finalised auction with winner `winner`. -/
abbrev finalizeWon (auction : Auction) (auctionId : Nat) (winner : Address) : Tx C Unit := do
  let (fee, payouts) ←
    distributePayoutTracked host env (.auction auctionId) auction.token auction.collection
      auction.highestBid auction.creator auction.recipients winner false auction.protocolFeeBps
      auctionId false
  recordSettlement env auctionId none (some auctionId) auction.recipients auction.token
    auction.highestBid fee payouts
  releaseNft host env auction.collection auction.tokenId winner auctionId

/-- A finalised auction without bids: the token goes back to the creator. -/
def finalizeUnsold (auction : Auction) (auctionId : Nat) : Tx C Unit := do
  emit (.auctionCancelled auctionId auction.creator .owner 0 auction.token env.sequence
    eventSchemaVersion)
  releaseNft host env auction.collection auction.tokenId auction.creator auctionId

/-- The two outcomes of `finalize_auction`. -/
def finalizeOutcome (auction : Auction) (auctionId : Nat) : Tx C Unit :=
  match auction.highestBidder with
  | some winner => do
    assertTokenPolicyActive auction.token
    saveAuction { auction with status := .finalized }
    emit (.auctionFinalized auctionId (some winner) auction.highestBid eventSchemaVersion)
    finalizeWon host env auction auctionId winner
  | none => do
    saveAuction { auction with status := .cancelled }
    emit (.auctionFinalized auctionId none auction.highestBid eventSchemaVersion)
    finalizeUnsold host env auction auctionId

abbrev finalizeAuction (caller : Address) (auctionId : Nat) : Tx C Unit := do
  requireAuth env caller
  acquireAuctionLock auctionId
  let auction ← requireAuction auctionId
  failIf (auction.status ≠ .active) .auctionAlreadyFinalized
  failIf (env.timestamp < auction.endTime) .auctionNotEnded
  finalizeOutcome host env auction auctionId
  releaseAuctionLock auctionId

/-- The caller's most recent bid in the history, newest first; zero when there is none. -/
def latestBid (bids : List BidRecord) (bidder : Address) : Int :=
  ((bids.reverse.find? fun r => decide (r.bidder = bidder)).map BidRecord.amount).getD 0

abbrev refundLosingBid (bidder : Address) (auctionId : Nat) : Tx C Unit := do
  requireAuth env bidder
  let auction ← requireAuction auctionId
  failIf (auction.status = .active) .invalidAuctionState
  failIf (auction.status = .finalized ∧ auction.highestBidder = some bidder) .noBidToRefund
  let refunded ← isBidRefunded auctionId bidder
  failIf (refunded = true) .noBidToRefund
  let bids ← loadAuctionBids auctionId
  failIf (latestBid bids bidder ≤ 0) .noBidToRefund
  markBidRefunded auctionId bidder
  payTo host env (.auction auctionId) auction.token bidder (latestBid bids bidder)
  emit (.auctionBidRefunded auctionId bidder (latestBid bids bidder) auction.token
    "losing_bid_reclaim" env.sequence eventSchemaVersion)

/-- `cancel_auction`: by the creator, without bids only. -/
abbrev cancelAuction (creator : Address) (auctionId : Nat) : Tx C Unit := do
  requireAuth env creator
  let auction ← requireAuction auctionId
  failIf (auction.creator ≠ creator) .unauthorized
  failIf (auction.status ≠ .active) .auctionAlreadyFinalized
  failIf (auction.highestBidder.isSome = true) .auctionHasBids
  saveAuction { auction with status := .cancelled }
  emit (.auctionCancelled auctionId creator .owner 0 auction.token env.sequence eventSchemaVersion)
  releaseNft host env auction.collection auction.tokenId creator auctionId

/-- The refund of the highest bidder in `admin_cancel_auction`. -/
abbrev adminRefundBidder (auction : Auction) (auctionId : Nat) : Tx C Unit :=
  onSome auction.highestBidder fun bidder => do
    markBidRefunded auctionId bidder
    payTo host env (.auction auctionId) auction.token bidder auction.highestBid
    emit (.auctionBidRefunded auctionId bidder auction.highestBid auction.token "admin_cancel"
      env.sequence eventSchemaVersion)

abbrev adminCancelAuction (admin : Address) (auctionId : Nat) : Tx C Unit := do
  let reason ← resolveAuctionCancelReason env admin
  acquireAuctionLock auctionId
  let auction ← requireAuction auctionId
  failIf (auction.status ≠ .active) .invalidAuctionState
  adminRefundBidder host env auction auctionId
  saveAuction { auction with status := .cancelled }
  emit (.auctionCancelled auctionId admin reason auction.highestBid auction.token env.sequence
    eventSchemaVersion)
  emit (.auctionAdminCancelled auctionId admin auction.highestBid auction.token env.sequence
    eventSchemaVersion)
  releaseNft host env auction.collection auction.tokenId auction.creator auctionId
  releaseAuctionLock auctionId

abbrev updateAuctionReservePrice (creator : Address) (auctionId : Nat) (newPrice : Int) :
    Tx C Unit := do
  requireAuth env creator
  acquireAuctionLock auctionId
  let auction ← requireAuction auctionId
  failIf (auction.creator ≠ creator) .unauthorized
  failIf (auction.status ≠ .active) .auctionNotActive
  failIf (auction.highestBidder.isSome = true ∨ auction.highestBid > 0) .auctionHasBids
  let minIncrement ← view fun w => w.config.minBidIncrement.getD defaultMinBidIncrement
  failIf (newPrice < minIncrement) .invalidPrice
  assertPricePolicy newPrice
  saveAuction { auction with reservePrice := newPrice }
  releaseAuctionLock auctionId
  emit (.auctionReservePriceUpdated auctionId creator auction.reservePrice newPrice env.sequence)

end ElcareHub.Marketplace
