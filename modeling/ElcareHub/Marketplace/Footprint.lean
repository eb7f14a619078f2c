import ElcareHub.Lib.Footprint
import ElcareHub.Marketplace.Contract

/-!
# What each entry point may write

The components of the contract's state, and for every entry point the list of those it may write
(`Op.footprint`). The footprints are inferred from the storage helpers an entry point is built from,
so `op_writes` is the place where a new write in the source shows up.

What is outside the footprint of a call is unchanged by it (`op_frame`): the configuration outside the
administrative calls, the accounting totals outside the settlements, the bid histories outside
`place_bid`.
-/

namespace ElcareHub.Marketplace

open Call

-- the size of a footprint counts double for every further statement of a program
set_option synthInstance.maxSize 100000000

variable {C : Type} {host : Host C} {env : Env}
variable {α : Type}
  {id k cap i j value tokenId listings auctions fuel processed budget offers : Nat} {held : Bool}
  {l : Listing} {a : Auction} {o : Offer} {ids : List Nat}
  {c artist token src dst collection buyer : Address} {amount : Int} {account : Account}
  {p : MigrationProgress} {op : AdminOp}

/-! ### Components -/

/-- The components of the state. The paged indexes are two of them: the active-listing index, and the
history indexes. -/
inductive Field
  | config | upkeep | legacy | accounting | locks
  | listingCount | listing | auctionCount | auction | auctionBids | bidRefundRecord
  | auctionBlockedBidders | offerCount | offer | listingPendingOffers | counterOfferParent
  | offerSupersededBy | escrowedToken | activeIndex | history | activeListingPos
  | events | balances | collections | transfers | staleSlots
  deriving DecidableEq

/-- The records of listings, auctions and offers. -/
abbrev Field.tables : List Field :=
  [.listingCount, .listing, .auctionCount, .auction, .auctionBids, .offerCount, .offer]

/-- What is only kept beside the records: few observations look at it. -/
abbrev Field.background : List Field :=
  [.locks, .bidRefundRecord, .auctionBlockedBidders, .listingPendingOffers, .counterOfferParent,
    .offerSupersededBy, .activeIndex, .activeListingPos, .balances, .staleSlots]

/-- The type of a component. -/
def Field.Val (C : Type) : Field → Type
  | .config => Config
  | .upkeep => Upkeep
  | .legacy => LegacyIndexes
  | .accounting => Accounting
  | .locks => Locks
  | .listingCount | .auctionCount | .offerCount | .staleSlots => Nat
  | .listing => Nat → Option Listing
  | .auction => Nat → Option Auction
  | .auctionBids => Nat → List BidRecord
  | .bidRefundRecord => Nat × Address → Bool
  | .auctionBlockedBidders => Nat → List Address
  | .offer => Nat → Option Offer
  | .listingPendingOffers => Nat → List Nat
  | .counterOfferParent | .offerSupersededBy | .activeListingPos => Nat → Option Nat
  | .escrowedToken => Address × Nat → Option EscrowRecord
  | .activeIndex => PagedIndex
  | .history => IndexId → PagedIndex
  | .events => List Event
  | .balances => Address × Address → Int
  | .collections => C
  | .transfers => List Transfer

/-- The value of a component. -/
def World.field : (F : Field) → World C → F.Val C
  | .config, w => w.config
  | .upkeep, w => w.upkeep
  | .legacy, w => w.legacy
  | .accounting, w => w.accounting
  | .locks, w => w.locks
  | .listingCount, w => w.listingCount
  | .listing, w => w.listing
  | .auctionCount, w => w.auctionCount
  | .auction, w => w.auction
  | .auctionBids, w => w.auctionBids
  | .bidRefundRecord, w => w.bidRefundRecord
  | .auctionBlockedBidders, w => w.auctionBlockedBidders
  | .offerCount, w => w.offerCount
  | .offer, w => w.offer
  | .listingPendingOffers, w => w.listingPendingOffers
  | .counterOfferParent, w => w.counterOfferParent
  | .offerSupersededBy, w => w.offerSupersededBy
  | .escrowedToken, w => w.escrowedToken
  | .activeIndex, w => w.index .activeListings
  | .history, w => fun id => if id = .activeListings then .empty else w.index id
  | .activeListingPos, w => w.activeListingPos
  | .events, w => w.events
  | .balances, w => w.balances
  | .collections, w => w.collections
  | .transfers, w => w.transfers
  | .staleSlots, w => w.staleSlots

/-- `c` writes no component outside `S`. -/
abbrev Writes {α : Type} (S : List Field) (c : Tx C α) : Prop := Within World.field S c

/-- States that agree outside `S` agree in components that are none of `S`. -/
theorem fields_eq {S : List Field} {w w' : World C} (h : ∀ F, F ∉ S → w'.field F = w.field F)
    (Fs : List Field) (hFs : ∀ F ∈ Fs, F ∉ S := by decide) : ∀ F ∈ Fs, w'.field F = w.field F :=
  fun F hF => h F (hFs F hF)

/-- The history indexes: all of them but the active-listing index. -/
def IndexId.IsHistory (id : IndexId) : Prop := id ≠ .activeListings

/-! ### Checks

Checks read and refuse: they write nothing at all, and preserve every observation. -/

section Checks

variable {τ : Type} {f : World C → τ}

instance (recipients : List Recipient) : Preserves f (validateRecipients recipients : Tx C Unit) := by
  unfold validateRecipients
  split <;> infer_instance

/-- A computation on the side reads nothing and writes nothing. -/
instance (x : Except Abort α) : Preserves f (attempt fun w => x.map (·, w) : Tx C α) where
  eq h := by
    cases x <;> cases h
    rfl

end Checks

/-! ### Storage -/

section Storage

variable {S : List Field}

/-- A write of the component `F` alone. -/
theorem Writes.put (F : Field) [Lists S F] (hg : ∀ F' w, F' ≠ F → (g w).field F' = w.field F' := by
      intro F' _ hF'; cases F' <;> first | rfl | exact absurd rfl hF') :
    Writes S (update g : Tx C Unit) :=
  .update F hg

/-- The invocation of a collection. -/
theorem Writes.invoke [Lists S .collections]
    (hg : ∀ w a w', g w = .ok (a, w') → ∃ c, w' = { w with collections := c }) :
    Writes S (attempt g : Tx C α) :=
  .attempt .collections fun F w _ w' h hF => by
    obtain ⟨c, rfl⟩ := hg w _ w' h
    cases F <;> first | rfl | exact absurd rfl hF

instance [Lists S .events] (e : Event) : Writes S (emit e : Tx C Unit) :=
  .put .events

instance [Lists S .config] (g : Config → Config) : Writes S (modifyConfig g : Tx C Unit) :=
  .put .config

instance [Lists S .upkeep] (g : Upkeep → Upkeep) : Writes S (modifyUpkeep g : Tx C Unit) :=
  .put .upkeep

instance [Lists S .accounting] (g : Accounting → Accounting) :
    Writes S (modifyAccounting g : Tx C Unit) :=
  .put .accounting

instance [Lists S .legacy] (g : LegacyIndexes → LegacyIndexes) :
    Writes S (modifyLegacy g : Tx C Unit) :=
  .put .legacy

instance [Lists S .locks] : Writes S (setListingLock id held : Tx C Unit) :=
  .put .locks

instance [Lists S .locks] : Writes S (setAuctionLock id held : Tx C Unit) :=
  .put .locks

instance [Lists S .listing] : Writes S (saveListing l : Tx C Unit) :=
  .put .listing

instance [Lists S .auction] : Writes S (saveAuction a : Tx C Unit) :=
  .put .auction

instance [Lists S .offer] : Writes S (saveOffer o : Tx C Unit) :=
  .put .offer

instance [Lists S .listingPendingOffers] : Writes S (setPendingOffers k ids : Tx C Unit) :=
  .put .listingPendingOffers

instance [Lists S .escrowedToken] (t : Nat) (r : EscrowRecord) :
    Writes S (setEscrowRecord c t r : Tx C Unit) :=
  .put .escrowedToken

instance [Lists S .escrowedToken] (t : Nat) : Writes S (clearEscrowRecord c t : Tx C Unit) :=
  .put .escrowedToken

instance [Lists S .auctionBids] (r : BidRecord) : Writes S (appendBidRecord id r cap : Tx C Unit) :=
  .put .auctionBids

instance [Lists S .bidRefundRecord] (bidder : Address) :
    Writes S (markBidRefunded id bidder : Tx C Unit) :=
  .put .bidRefundRecord

instance [Lists S .auctionBlockedBidders] (list : List Address) :
    Writes S (saveBlockedBidders id list : Tx C Unit) :=
  .put .auctionBlockedBidders

instance [Lists S .counterOfferParent] : Writes S (setCounterOfferParent i j : Tx C Unit) :=
  .put .counterOfferParent

instance [Lists S .offerSupersededBy] : Writes S (setOfferSupersededBy i j : Tx C Unit) :=
  .put .offerSupersededBy

instance [Lists S .activeListingPos] (g : World C → Nat → Option Nat) :
    Writes S (update fun w => { w with activeListingPos := g w } : Tx C Unit) :=
  .put .activeListingPos

instance [Lists S .staleSlots] (g : World C → Nat) :
    Writes S (update fun w => { w with staleSlots := g w } : Tx C Unit) :=
  .put .staleSlots

instance [Lists S .listingCount] : Writes S (incrementListingCount : Tx C Nat) := by
  have hwrite (n : Nat) : Writes S (update fun w => { w with listingCount := n } : Tx C Unit) :=
    .put .listingCount
  unfold incrementListingCount
  infer_instance

instance [Lists S .auctionCount] : Writes S (incrementAuctionCount : Tx C Nat) := by
  have hwrite (n : Nat) : Writes S (update fun w => { w with auctionCount := n } : Tx C Unit) :=
    .put .auctionCount
  unfold incrementAuctionCount
  infer_instance

instance [Lists S .offerCount] : Writes S (incrementOfferCount : Tx C Nat) := by
  have hwrite (n : Nat) : Writes S (update fun w => { w with offerCount := n } : Tx C Unit) :=
    .put .offerCount
  unfold incrementOfferCount
  infer_instance

/-! ### Indexes -/

instance [Lists S .activeIndex] (ix : PagedIndex) :
    Writes S (setIndex .activeListings ix : Tx C Unit) :=
  .update .activeIndex fun F w hF => by
    cases F
    case history =>
      funext id
      by_cases hid : id = .activeListings <;> simp [World.field, hid]
    all_goals first | rfl | exact absurd rfl hF

theorem writes_setIndex [Lists S .history] {id : IndexId} (hid : id.IsHistory) (ix : PagedIndex) :
    Writes S (setIndex id ix : Tx C Unit) :=
  .update .history fun F w hF => by
    cases F
    case activeIndex => exact Function.update_of_ne (Ne.symm hid) ..
    all_goals first | rfl | exact absurd rfl hF

theorem writes_indexAppend [Lists S .history] {id : IndexId} (hid : id.IsHistory) (value : Nat) :
    Writes S (indexAppend id value : Tx C Unit) := by
  have hset (ix : PagedIndex) := writes_setIndex (C := C) (S := S) hid ix
  infer_instance

instance [Lists S .history] : Writes S (indexAppend (.artistListings artist) value : Tx C Unit) :=
  writes_indexAppend (by simp [IndexId.IsHistory]) value

instance [Lists S .history] (creator : Address) :
    Writes S (indexAppend (.artistAuctions creator) value : Tx C Unit) :=
  writes_indexAppend (by simp [IndexId.IsHistory]) value

instance [Lists S .history] (offerer : Address) :
    Writes S (indexAppend (.offererOffers offerer) value : Tx C Unit) :=
  writes_indexAppend (by simp [IndexId.IsHistory]) value

instance [Lists S .history] (listing : Nat) :
    Writes S (indexAppend (.listingOffers listing) value : Tx C Unit) :=
  writes_indexAppend (by simp [IndexId.IsHistory]) value

instance [Lists S .history] : Writes S (indexAppend .tokenWhitelist value : Tx C Unit) :=
  writes_indexAppend (by simp [IndexId.IsHistory]) value

instance [Lists S .activeIndex] [Lists S .activeListingPos]
    [Lists S .staleSlots] : Writes S (removeFromActiveListings k : Tx C Unit) := by
  refine .next fun present => ?_
  split <;> infer_instance

/-! ### Token movements and invocations of a collection -/

instance [Lists S .balances] : Writes S (tokenTransfer env token src dst amount : Tx C Unit) :=
  .attempt .balances fun F w _ w' h hF => by
    split at h
    · cases h
    · cases h
      cases F <;> first | rfl | exact absurd rfl hF

instance [Lists S .transfers] (t : Transfer) : Writes S (logTransfer t : Tx C Unit) :=
  .put .transfers

instance [Lists S .collections] : Writes S (ownerOf host collection tokenId) :=
  .invoke fun w _ w' h => by
    split at h <;> cases h
    exact ⟨_, rfl⟩

instance [Lists S .collections] (spender : Address) :
    Writes S (transferNft host collection spender src dst tokenId) :=
  .invoke fun w _ w' h => by
    split at h <;> cases h
    exact ⟨_, rfl⟩

instance [Lists S .collections] (operator : Address) (amount : Nat) :
    Writes S (batchTransferNft host collection operator src dst tokenId amount) :=
  .invoke fun w _ w' h => by
    split at h <;> cases h
    exact ⟨_, rfl⟩

instance [Lists S .collections] : Writes S (invokeRoyaltyInfo host collection) :=
  .invoke fun w _ w' h => by
    split at h <;> cases h
    exact ⟨_, rfl⟩

instance [Lists S .collections] (quantity : Nat) :
    Writes S (preflightCollectionCompatibility host collection quantity) :=
  .invoke fun w _ w' h => by
    split at h <;> cases h <;> exact ⟨_, rfl⟩

/-! ### Settlements -/

section Settlement

variable [Lists S .accounting] [Lists S .events] [Lists S .balances] [Lists S .transfers]

instance (treasury : Option Address) (fee : Int) :
    Writes S (payFee host env account token treasury fee) := by
  unfold payFee
  split <;> infer_instance

variable [Lists S .collections]

instance (seller : Address) (rs : List Recipient) (fromBuyer : Bool) (feeBps : Nat)
    (isListing : Bool) :
    Writes S (distributePayoutTracked host env account token collection amount seller rs buyer
      fromBuyer feeBps id isListing) := by
  refine .next fun _ => .next ?_
  rintro ⟨receiver, bps⟩
  refine .next ?_
  rintro ⟨payout, royaltyPayouts⟩
  infer_instance

end Settlement

/-! ### Listings -/

instance [Lists S .offer] [Lists S .events] (announce : Bool) (skip : Option Nat) :
    Writes S (markRejected announce skip k ids : Tx C (List Offer)) := by
  induction ids with
  | nil => exact Within.of_preserves (c := pure [])
  | cons i ids ih =>
    refine .next fun stored => ?_
    split <;> infer_instance

instance [Lists S .events] (itemIndex : Nat) :
    Writes S (requireBatchListing env itemIndex k : Tx C Listing) := by
  refine .next fun stored => ?_
  split <;> infer_instance

/-! ### Offers -/

section Listings

variable [Lists S .listing] [Lists S .events] [Lists S .collections] [Lists S .escrowedToken]
  [Lists S .activeIndex] [Lists S .activeListingPos] [Lists S .staleSlots] [Lists S .offer]
  [Lists S .listingPendingOffers] [Lists S .balances] [Lists S .transfers]

instance [Lists S .accounting] : Writes S (acceptSettle host env artist o i l k) := by
  unfold acceptSettle
  infer_instance

instance [Lists S .accounting] : Writes S (acceptCounterSettle host env buyer o i l k) := by
  unfold acceptCounterSettle
  infer_instance

end Listings

instance [Lists S .offer] [Lists S .listingPendingOffers] [Lists S .balances] [Lists S .transfers]
    [Lists S .events] : Writes S (sweepOffer host env i) := by
  refine .next fun stored => ?_
  split <;> infer_instance

/-! ### Auctions -/

instance [Lists S .auction] [Lists S .events] [Lists S .accounting] [Lists S .balances]
    [Lists S .transfers] [Lists S .collections] [Lists S .escrowedToken] :
    Writes S (finalizeOutcome host env a k) := by
  unfold finalizeOutcome finalizeUnsold
  split <;> infer_instance

/-! ### Administration -/

instance [Lists S .config] (p : GovernanceProposal) : Writes S (applyGovernanceAction p : Tx C Unit) := by
  unfold applyGovernanceAction
  split <;> infer_instance

/-! ### Maintenance -/

section Sweeps

variable [Lists S .events]

instance (progress : TtlSweepProgress) (toggles : Nat) : Writes S
      (ttlSweep env cap listings auctions fuel progress processed toggles :
        Tx C (TtlSweepProgress × Nat)) := by
  have hlisting (pos : Nat) : Writes S (ttlVisitListing env pos : Tx C Unit) := by
    unfold ttlVisitListing
    infer_instance
  have hauction (id : Nat) : Writes S (ttlVisitAuction env id : Tx C Unit) := by
    unfold ttlVisitAuction
    infer_instance
  induction fuel generalizing progress processed toggles with
  | zero => exact Within.of_preserves (c := pure (progress, processed))
  | succ fuel ih =>
    unfold ttlSweep
    infer_instance

instance (kind : Symbol) (isTerminal : World C → Nat → Bool) (cursor : Nat) :
    Writes S (cleanupWalk env kind isTerminal budget ids processed cursor) := by
  induction ids generalizing processed cursor with
  | nil => exact Within.of_preserves (c := pure (processed, cursor))
  | cons id ids ih =>
    unfold cleanupWalk
    infer_instance

instance : Writes S (checkActivePos env k : Tx C Bool) := by
  refine .next fun stored => .next fun pos => ?_
  split <;> infer_instance

/-! ### Migration -/

instance : Writes S (migrationRemaining p listings auctions offers : Tx C Nat) := by
  unfold migrationRemaining
  split <;> infer_instance

end Sweeps

section Migration

variable [Lists S .legacy] [Lists S .activeIndex] [Lists S .history]

instance [Lists S .activeListingPos] : Writes S (migrateActiveListings : Tx C Nat) := by
  refine .next fun ids => ?_
  split <;> infer_instance

instance [Lists S .listingPendingOffers] [Lists S .activeListingPos] [Lists S .events]
    (version : String) : Writes S (migrationLoop env version listings auctions offers fuel budget p :
        Tx C MigrationProgress) := by
  induction fuel generalizing budget p with
  | zero => exact Within.of_preserves (c := pure p)
  | succ fuel ih =>
    refine @Within.ite _ _ _ _ _ _ _ _ _ _ _ _ ?_
    split <;> infer_instance

end Migration

end Storage

/-! ### Entry points -/

/-- What the listing entry points may write. -/
def ListingOp.footprint : ListingOp → List Field
  | .createListing .. | .createListings .. =>
    [.listingCount, .listing, .history, .activeIndex, .activeListingPos, .escrowedToken,
      .collections, .events]
  | .updateListing .. | .updateListings .. | .updateListingPrice .. | .setListingReservation ..
  | .reconcileListingOwner .. => [.listing, .events]
  | .buyArtwork .. =>
    [.listing, .offer, .listingPendingOffers, .activeIndex, .activeListingPos, .staleSlots,
      .escrowedToken, .collections, .accounting, .locks, .balances, .transfers, .events]
  | .cancelListing .. | .cancelListings .. =>
    [.listing, .offer, .listingPendingOffers, .activeIndex, .activeListingPos, .staleSlots,
      .escrowedToken, .collections, .balances, .transfers, .events]
  | .cancelArtistListings .. =>
    [.listing, .offer, .listingPendingOffers, .activeIndex, .activeListingPos, .staleSlots,
      .escrowedToken, .collections, .upkeep, .balances, .transfers, .events]
  | .expireListing .. =>
    [.listing, .activeIndex, .activeListingPos, .staleSlots, .escrowedToken, .collections, .events]

/-- What the auction entry points may write. -/
def AuctionOp.footprint : AuctionOp → List Field
  | .createAuction .. => [.auctionCount, .auction, .history, .escrowedToken, .collections, .events]
  | .blockBidder .. | .unblockBidder .. => [.auctionBlockedBidders, .events]
  | .placeBid .. => [.auction, .auctionBids, .balances, .transfers, .events]
  | .finalizeAuction .. =>
    [.auction, .accounting, .locks, .balances, .transfers, .escrowedToken, .collections, .events]
  | .refundLosingBid .. => [.bidRefundRecord, .balances, .transfers, .events]
  | .cancelAuction .. => [.auction, .escrowedToken, .collections, .events]
  | .adminCancelAuction .. =>
    [.auction, .bidRefundRecord, .locks, .balances, .transfers, .escrowedToken, .collections, .events]
  | .updateAuctionReservePrice .. => [.auction, .locks, .events]

/-- What the offer entry points may write. -/
def OfferOp.footprint : OfferOp → List Field
  | .makeOffer .. =>
    [.offerCount, .offer, .listingPendingOffers, .history, .balances, .transfers, .events]
  | .withdrawOffer .. | .rejectOffer .. | .reclaimOffer .. | .sweepExpiredOffers .. =>
    [.offer, .listingPendingOffers, .balances, .transfers, .events]
  | .acceptOffer .. | .acceptCounterOffer .. =>
    [.listing, .offer, .listingPendingOffers, .activeIndex, .activeListingPos, .staleSlots,
      .escrowedToken, .collections, .accounting, .locks, .balances, .transfers, .events]
  | .counterOffer .. =>
    [.offerCount, .offer, .listingPendingOffers, .counterOfferParent, .offerSupersededBy, .history,
      .balances, .transfers, .events]
  | .claimRoyalty .. => [.accounting, .balances, .transfers, .events]

/-- What an entry point may write. -/
def Op.footprint : Op → List Field
  | .admin _ => [.config, .upkeep, .history, .events]
  | .maintenance _ =>
    [.upkeep, .legacy, .locks, .listingPendingOffers, .activeIndex, .history, .activeListingPos,
      .events]
  | .listing op => op.footprint
  | .auction op => op.footprint
  | .offer op => op.footprint

/-- The administrative calls that write nothing but the configuration: all but the two that also
restart a sweep or enter a token in the whitelist index. -/
def AdminOp.OnlyConfigures : AdminOp → Prop
  | .reinstateArtist .. => False
  | .addTokenToWhitelist .. => False
  | _ => True

theorem configuring_writes [Lists S .config] [Lists S .events] (hop : op.OnlyConfigures) :
    Writes S (op.exec host env) := by
  cases op <;> unfold AdminOp.exec
  case reinstateArtist => exact hop.elim
  case addTokenToWhitelist => exact hop.elim
  all_goals infer_instance

/-- What they do not write, they leave as it was. -/
theorem configuring_frame [Ignores f World.field S] [Lists S .config]
    [Lists S .events] (hop : op.OnlyConfigures) : Preserves f (op.exec host env) := by
  have hwrites : Writes S (op.exec host env) := configuring_writes hop
  infer_instance

instance adminOp_writes [Lists S .config] [Lists S .upkeep] [Lists S .history] [Lists S .events]
    (op : AdminOp) : Writes S (op.exec host env) := by
  cases op with
  | reinstateArtist admin artist =>
    unfold AdminOp.exec
    infer_instance
  | addTokenToWhitelist admin token =>
    refine .next fun _ => .next fun _ => .next fun config => ?_
    split <;> infer_instance
  | _ => exact configuring_writes trivial

/-- The sweeps: the maintenance entry points other than the migration. -/
def MaintenanceOp.IsSweep : MaintenanceOp → Prop
  | .migrate _ => False
  | .migrateStep _ _ => False
  | _ => True

theorem sweep_writes [Lists S .upkeep] [Lists S .locks] [Lists S .events] {op : MaintenanceOp}
    (hop : op.IsSweep) : Writes S (op.exec env : Tx C Unit) := by
  cases op <;> unfold MaintenanceOp.exec
  case migrate => exact hop.elim
  case migrateStep => exact hop.elim
  all_goals infer_instance

instance maintenanceOp_writes [Lists S .upkeep] [Lists S .legacy] [Lists S .locks]
    [Lists S .listingPendingOffers] [Lists S .activeIndex] [Lists S .history]
    [Lists S .activeListingPos] [Lists S .events] (op : MaintenanceOp) :
    Writes S (op.exec env : Tx C Unit) := by
  cases op with
  | migrate admin =>
    unfold MaintenanceOp.exec Marketplace.migrate runMigration
    infer_instance
  | migrateStep admin maxItems =>
    unfold MaintenanceOp.exec Marketplace.migrateStep runMigration
    infer_instance
  | _ => exact sweep_writes trivial

theorem listingOp_writes (op : ListingOp) : Writes op.footprint (op.exec host env) := by
  cases op <;> unfold ListingOp.exec ListingOp.footprint
  case buyArtwork =>
    dsimp only
    refine @Within.discard _ _ _ _ _ _ _ _ ?_
    -- the checks, up to the test whether the listing has expired
    iterate 11 refine .next fun _ => ?_
    split <;> infer_instance
  all_goals infer_instance

theorem auctionOp_writes (op : AuctionOp) : Writes op.footprint (op.exec host env) := by
  cases op <;> unfold AuctionOp.exec AuctionOp.footprint
  all_goals infer_instance

theorem offerOp_writes (op : OfferOp) : Writes op.footprint (op.exec host env) := by
  cases op <;> unfold OfferOp.exec OfferOp.footprint
  all_goals infer_instance

/-- **Footprints.** A call writes no component outside the footprint of its entry point. -/
theorem op_writes (op : Op) : Writes op.footprint (op.exec host env) := by
  cases op with
  | admin op => exact adminOp_writes (S := [.config, .upkeep, .history, .events]) op
  | maintenance op =>
    exact maintenanceOp_writes (S := [.upkeep, .legacy, .locks, .listingPendingOffers,
      .activeIndex, .history, .activeListingPos, .events]) op
  | listing op => exact listingOp_writes op
  | auction op => exact auctionOp_writes op
  | offer op => exact offerOp_writes op

/-- A component outside the footprint of a call is unchanged by it. -/
theorem op_frame {op : Op} (h : Returns (op.exec host env) w () w')
    (hF : F ∉ op.footprint) : w'.field F = w.field F :=
  (op_writes op).get_eq h hF

end ElcareHub.Marketplace
