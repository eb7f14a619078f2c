import ElcareHub.Lib.Call
import ElcareHub.Lib.Tally
import ElcareHub.Marketplace.Events

/-!
# The state of the marketplace and its surroundings

`World C` is everything a call of the contract can read or change: the contract's storage, the
events published so far, the balances of the payment tokens, and the state `C` of the collection
contracts, which the marketplace only reaches through the interface `Host`. Storage entries that a
key may lack are options or empty lists; the counters default to zero, as in `storage.rs`.

Two fields are not storage. `transfers` records every token movement of the contract together with
what it is made on account of (an auction, an offer, a sale): the contract itself keeps one pooled
balance, so statements about what was paid in and out for one auction or offer are statements about
this log. `staleSlots` counts how often `remove_from_active_listings` leaves through its defensive
early return.
-/

namespace ElcareHub.Marketplace

open Call

/-! ### Paged indexes -/

/-- A paged id index: its length and its pages. A missing page is an empty one. -/
structure PagedIndex where
  len : Nat
  pages : Nat → List Nat

def PagedIndex.empty : PagedIndex := ⟨0, fun _ => []⟩

/-! ### The transfer log -/

/-- What a token movement of the contract is made on account of. -/
inductive Account
  /-- the payment of a buyer in `buy_artwork`, and what is paid out of it -/
  | sale (listingId : Nat)
  /-- a bid, its refund, or the distribution of the winning bid -/
  | auction (auctionId : Nat)
  /-- the deposit of an offer, its refund, or the settlement paid out of it -/
  | offer (offerId : Nat)
  /-- a payment of `claim_royalty` -/
  | royaltyClaim (settlementId : Nat) (isListing : Bool)
  deriving DecidableEq

inductive Direction
  | deposit
  | payout
  deriving DecidableEq

/-- One movement of `amount` units of `token` between the contract and `counterparty`. -/
structure Transfer where
  direction : Direction
  account : Account
  token : Address
  counterparty : Address
  amount : Int
  deriving DecidableEq

/-! ### Storage -/

/-- Configuration, roles, circuit breakers, moderation and governance. -/
structure Config where
  admin : Option Address
  pendingAdmin : Option PendingAdminProposal
  role : RoleType → Option Address
  pendingRole : RoleType → Option PendingRoleProposal
  treasury : Option Address
  pendingTreasury : Option PendingTreasuryProposal
  protocolFeeBps : Option Nat
  collectionFeeBps : Address → Option Nat
  minPrice : Option Int
  maxPrice : Option Int
  minListingDuration : Option Nat
  maxListingDuration : Option Nat
  minBidIncrement : Option Int
  bidHistoryCap : Option Nat
  auctionExtensionWindow : Option Nat
  auctionExtensionTrigger : Option Nat
  auctionMaxExtensions : Option Nat
  isPaused : Bool
  collectionPaused : Address → Bool
  functionPaused : Symbol → Bool
  revokedArtist : Address → Bool
  tokenWhitelistEntry : Address → Option TokenWhitelistEntry
  tokenWhitelistCount : Nat
  tokenWhitelistId : Nat → Option Address
  governanceProposalCount : Nat
  governanceProposal : Nat → Option GovernanceProposal
  governanceApprovals : Nat → List Address

/-- Cursors and markers of the maintenance and migration entry points. -/
structure Upkeep where
  artistCancelCursor : Address → Option Nat
  artistAuctionCancelCursor : Address → Option Nat
  ttlSweepState : Option TtlSweepProgress
  terminalCleanupCursor : Option TerminalCleanupCursor
  migrationDone : String → Bool
  migrationCursor : String → Option MigrationProgress
  migrationStuck : String → Bool

/-- The monolithic index vectors of contract versions before 1.1.0. -/
structure LegacyIndexes where
  artistListings : Address → Option (List Nat)
  artistAuctions : Address → Option (List Nat)
  offererOffers : Address → Option (List Nat)
  listingOffers : Nat → Option (List Nat)
  activeListings : Option (List Nat)

/-- Per-token lifetime totals and the per-recipient payout records. -/
structure Accounting where
  protocolFeeTotal : Address → Int
  royaltyTotal : Address → Int
  settlementCount : Address → Nat
  royaltyClaim : Nat × Bool × Address → Option RoyaltyClaimRecord
  recipientRoyaltyIndex : Address → List RoyaltyClaimRef

/-- The re-entrancy locks, kept in temporary storage. -/
structure Locks where
  listing : Nat → Bool
  auction : Nat → Bool

structure World (C : Type) where
  config : Config
  upkeep : Upkeep
  legacy : LegacyIndexes
  accounting : Accounting
  locks : Locks
  listingCount : Nat
  listing : Nat → Option Listing
  auctionCount : Nat
  auction : Nat → Option Auction
  auctionBids : Nat → List BidRecord
  bidRefundRecord : Nat × Address → Bool
  auctionBlockedBidders : Nat → List Address
  offerCount : Nat
  offer : Nat → Option Offer
  listingPendingOffers : Nat → List Nat
  counterOfferParent : Nat → Option Nat
  offerSupersededBy : Nat → Option Nat
  escrowedToken : Address × Nat → Option EscrowRecord
  index : IndexId → PagedIndex
  activeListingPos : Nat → Option Nat
  events : List Event
  balances : Address × Address → Int
  collections : C
  transfers : List Transfer
  staleSlots : Nat

def Config.fresh : Config where
  admin := none
  pendingAdmin := none
  role := fun _ => none
  pendingRole := fun _ => none
  treasury := none
  pendingTreasury := none
  protocolFeeBps := none
  collectionFeeBps := fun _ => none
  minPrice := none
  maxPrice := none
  minListingDuration := none
  maxListingDuration := none
  minBidIncrement := none
  bidHistoryCap := none
  auctionExtensionWindow := none
  auctionExtensionTrigger := none
  auctionMaxExtensions := none
  isPaused := false
  collectionPaused := fun _ => false
  functionPaused := fun _ => false
  revokedArtist := fun _ => false
  tokenWhitelistEntry := fun _ => none
  tokenWhitelistCount := 0
  tokenWhitelistId := fun _ => none
  governanceProposalCount := 0
  governanceProposal := fun _ => none
  governanceApprovals := fun _ => []

def Upkeep.fresh : Upkeep where
  artistCancelCursor := fun _ => none
  artistAuctionCancelCursor := fun _ => none
  ttlSweepState := none
  terminalCleanupCursor := none
  migrationDone := fun _ => false
  migrationCursor := fun _ => none
  migrationStuck := fun _ => false

def LegacyIndexes.empty : LegacyIndexes where
  artistListings := fun _ => none
  artistAuctions := fun _ => none
  offererOffers := fun _ => none
  listingOffers := fun _ => none
  activeListings := none

def Accounting.fresh : Accounting where
  protocolFeeTotal := fun _ => 0
  royaltyTotal := fun _ => 0
  settlementCount := fun _ => 0
  royaltyClaim := fun _ => none
  recipientRoyaltyIndex := fun _ => []

/-- A newly deployed contract in surroundings where tokens have been issued and collections
deployed: nothing stored, nothing published, nothing moved. -/
def World.fresh {C : Type} (balances : Address × Address → Int) (collections : C) : World C where
  config := .fresh
  upkeep := .fresh
  legacy := .empty
  accounting := .fresh
  locks := ⟨fun _ => false, fun _ => false⟩
  listingCount := 0
  listing := fun _ => none
  auctionCount := 0
  auction := fun _ => none
  auctionBids := fun _ => []
  bidRefundRecord := fun _ => false
  auctionBlockedBidders := fun _ => []
  offerCount := 0
  offer := fun _ => none
  listingPendingOffers := fun _ => []
  counterOfferParent := fun _ => none
  offerSupersededBy := fun _ => none
  escrowedToken := fun _ => none
  index := fun _ => .empty
  activeListingPos := fun _ => none
  events := []
  balances := balances
  collections := collections
  transfers := []
  staleSlots := 0

/-! ### What a call runs in -/

/-- The fixed surroundings of the deployed contract: its own address, and the entry points of the
collection contracts it invokes. Every invocation either returns, with a new state of the
collections, or traps (`none`); no assumption is made on what it answers. -/
structure Host (C : Type) where
  self : Address
  ownerOf : C → (collection : Address) → (tokenId : Nat) → Option (Address × C)
  transferFrom : C → (collection spender src dst : Address) → (tokenId : Nat) → Option C
  batchTransferFrom : C → (collection operator src dst : Address) → (tokenId amount : Nat) → Option C
  royaltyInfo : C → (collection : Address) → Option ((Address × Nat) × C)
  contractType : C → (collection : Address) → Option (Symbol × C)

/-- A call of the marketplace. -/
abbrev Tx (C α : Type) := Call Abort (World C) α

section Primitives

variable {C α : Type}

/-- `panic_with_error!`. -/
abbrev fail (e : MarketplaceError) : Tx C α := Call.abort (.contract e)

/-- `if c { panic_with_error! }`. -/
abbrev failIf (c : Prop) [Decidable c] (e : MarketplaceError) : Tx C Unit :=
  abortIf c (.contract e)

/-- `unwrap_or_else(|| panic_with_error!)`. -/
abbrev orFail (o : Option α) (e : MarketplaceError) : Tx C α := orAbort o (.contract e)

abbrev expect (o : Option α) (message : String) : Tx C α := orAbort o (.trap message)

abbrev requireAuth (env : Env) (who : Address) : Tx C Unit :=
  abortIf (env.auth who = false) (.unauthenticated who)

/-- Unchecked `+` on `u64`, which traps on overflow (`overflow-checks = true`). -/
abbrev addU64 (a b : Nat) : Tx C Nat := expect (if a + b ≤ u64Max then some (a + b) else none)
  "attempt to add with overflow"

/-- Unchecked `+` on `u32`. -/
abbrev addU32 (a b : Nat) : Tx C Nat := expect (if a + b ≤ u32Max then some (a + b) else none)
  "attempt to add with overflow"

/-- Unchecked `-` on unsigned integers. -/
abbrev subNat (a b : Nat) : Tx C Nat := expect (if b ≤ a then some (a - b) else none)
  "attempt to subtract with overflow"

/-- Publish an event. -/
abbrev emit (e : Event) : Tx C Unit := update fun w => { w with events := w.events ++ [e] }

/-- Change the configuration only. -/
def modifyConfig (f : Config → Config) : Tx C Unit :=
  update fun w => { w with config := f w.config }

/-- Change the maintenance cursors only. -/
def modifyUpkeep (f : Upkeep → Upkeep) : Tx C Unit :=
  update fun w => { w with upkeep := f w.upkeep }

/-- Change the accounting totals and payout records only. -/
abbrev modifyAccounting (f : Accounting → Accounting) : Tx C Unit :=
  update fun w => { w with accounting := f w.accounting }

/-! ### Token movements -/

/-- `TokenClient::transfer`: moves exactly `amount` or traps. Negative amounts and amounts above the
balance of the source are refused. -/
def tokenTransfer (env : Env) (token src dst : Address) (amount : Int) : Tx C Unit :=
  attempt fun w =>
    if TransferRefused env w.balances token src dst amount then
      .error (.token token)
    else
      .ok ((), { w with balances := moveBalance w.balances token src dst amount })

/-- Record a token movement in the transfer log. -/
abbrev logTransfer (t : Transfer) : Tx C Unit :=
  update fun w => { w with transfers := w.transfers ++ [t] }

/-- A transfer from `src` to the contract, made on account of `account`. -/
abbrev depositFrom (host : Host C) (env : Env) (account : Account) (token src : Address)
    (amount : Int) : Tx C Unit := do
  tokenTransfer env token src host.self amount
  logTransfer ⟨.deposit, account, token, src, amount⟩

/-- A transfer from the contract to `dst`, made on account of `account`. -/
abbrev payTo (host : Host C) (env : Env) (account : Account) (token dst : Address) (amount : Int) :
    Tx C Unit := do
  tokenTransfer env token host.self dst amount
  logTransfer ⟨.payout, account, token, dst, amount⟩

end Primitives

/-! ### Flows per account -/

/-- An account in one token: the unit in which deposits back payouts. -/
structure Purse where
  account : Account
  token : Address
  deriving DecidableEq

/-- The movements of one direction that belong to a purse. -/
def Purse.holds (p : Purse) (d : Direction) (t : Transfer) : Bool :=
  t.direction = d ∧ t.account = p.account ∧ t.token = p.token

variable {C : Type}

/-- Everything deposited into the contract on account of `p`. -/
def World.deposited (w : World C) (p : Purse) : Int :=
  Tally.tally (p.holds .deposit) Transfer.amount w.transfers

/-- Everything paid out by the contract on account of `p`. -/
def World.paidOut (w : World C) (p : Purse) : Int :=
  Tally.tally (p.holds .payout) Transfer.amount w.transfers

end ElcareHub.Marketplace
