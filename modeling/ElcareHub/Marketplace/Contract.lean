import ElcareHub.Lib.Run
import ElcareHub.Marketplace.Offers
import ElcareHub.Marketplace.Admin
import ElcareHub.Marketplace.Governance
import ElcareHub.Marketplace.Migration

/-!
# The contract as a transition system

Every state-changing entry point of `contract.rs` is an `Op`. A run is a sequence of steps: calls of
entry points, each in its own ledger environment, and changes of the surroundings the marketplace
has no part in. A call that aborts leaves the state as it was.
-/

namespace ElcareHub.Marketplace

open Call

/-! ### Entry points -/

/-- Entry points that change the configuration. -/
inductive AdminOp
  | setAdmin (admin : Address)
  | transferAdmin (currentAdmin newAdmin : Address)
  | acceptAdmin (newAdmin : Address)
  | cancelAdminProposal (currentAdmin : Address)
  | proposeRoleTransfer (currentAuthority : Address) (role : RoleType) (candidate : Address)
  | acceptRoleTransfer (role : RoleType) (candidate : Address)
  | cancelRoleProposal (currentAuthority : Address) (role : RoleType)
  | migrateRoles (admin : Address)
  | setRoleDirect (admin : Address) (role : RoleType) (authority : Address)
  | proposeTreasury (admin candidate : Address)
  | acceptTreasury (candidate : Address)
  | cancelTreasuryProposal (admin : Address)
  | setTreasury (admin treasury : Address)
  | setProtocolFee (admin : Address) (bps : Nat)
  | setCollectionFeeBps (admin collection : Address) (bps : Nat)
  | clearCollectionFeeBps (admin collection : Address)
  | setPriceBounds (admin : Address) (min max : Int)
  | setMinListingDuration (admin : Address) (secs : Option Nat)
  | setMaxListingDuration (admin : Address) (secs : Option Nat)
  | setMinBidIncrement (admin : Address) (increment : Int)
  | setBidHistoryCap (admin : Address) (cap : Nat)
  | setAuctionExtensionWindow (admin : Address) (window : Nat)
  | setAuctionExtensionTrigger (admin : Address) (trigger : Nat)
  | setAuctionMaxExtensions (admin : Address) (max : Nat)
  | adminSetPaused (admin : Address) (paused : Bool)
  | setCollectionPaused (admin collection : Address) (paused : Bool)
  | setFunctionPaused (admin : Address) (functionName : Symbol) (paused : Bool)
  | revokeArtist (caller artist : Address)
  | reinstateArtist (caller artist : Address)
  | addTokenToWhitelist (admin token : Address)
  | removeTokenFromWhitelist (caller token : Address)
  | proposeGovernanceAction (proposer : Address) (proposalType : GovernanceProposalType)
      (signers : List Address) (threshold expiresAt : Nat) (payloadAddress : Option Address)
      (payloadU32 : Option Nat) (payloadBool : Option Bool)
  | approveGovernanceAction (approver : Address) (proposalId : Nat)
  | executeGovernanceAction (executor : Address) (proposalId : Nat)
  | cancelGovernanceAction (canceller : Address) (proposalId : Nat)

/-- Sweeps, checks and the migration. -/
inductive MaintenanceOp
  | extendActiveTtls (admin : Address) (maxItems : Nat)
  | cleanupExpiredLocks (admin : Address) (listingIds auctionIds : List Nat)
  | renewStorage (listingIds auctionIds offerIds : List Nat)
  | cleanupTerminalRecords (batchSize : Nat)
  | migrate (admin : Address)
  | migrateStep (admin : Address) (maxItems : Nat)
  | validateMigrationConsistency (operator : Address) (cursor maxItems : Nat)

inductive ListingOp
  | createListing (artist : Address) (request : BatchCreateListingInput)
  | createListings (artist : Address) (requests : List BatchCreateListingInput)
  | updateListing (artist : Address) (request : BatchUpdateListingInput)
  | updateListings (artist : Address) (requests : List BatchUpdateListingInput)
  | updateListingPrice (seller : Address) (listingId : Nat) (newPrice : Int)
  | setListingReservation (seller : Address) (listingId : Nat) (reservedFor : Option Address)
      (reservationStart reservationEnd : Option Nat)
  | reconcileListingOwner (caller : Address) (listingId : Nat) (expectedOwner newOwner : Address)
  | buyArtwork (buyer : Address) (listingId : Nat)
  | cancelListing (artist : Address) (listingId : Nat)
  | cancelListings (owner : Address) (listingIds : List Nat)
  | cancelArtistListings (admin artist : Address) (maxItems : Nat)
  | expireListing (listingId : Nat)

inductive AuctionOp
  | createAuction (creator token collection : Address) (tokenId : Nat) (reservePrice : Int)
      (duration : Nat) (recipients : List Recipient)
  | blockBidder (caller : Address) (auctionId : Nat) (bidder : Address)
  | unblockBidder (caller : Address) (auctionId : Nat) (bidder : Address)
  | placeBid (bidder : Address) (auctionId : Nat) (amount : Int)
  | finalizeAuction (caller : Address) (auctionId : Nat)
  | refundLosingBid (bidder : Address) (auctionId : Nat)
  | cancelAuction (creator : Address) (auctionId : Nat)
  | adminCancelAuction (admin : Address) (auctionId : Nat)
  | updateAuctionReservePrice (creator : Address) (auctionId : Nat) (newPrice : Int)

inductive OfferOp
  | makeOffer (offerer : Address) (listingId : Nat) (amount : Int) (token : Address)
      (expiresAt : Option Nat)
  | withdrawOffer (offerer : Address) (offerId : Nat)
  | rejectOffer (artist : Address) (offerId : Nat)
  | acceptOffer (artist : Address) (offerId : Nat)
  | reclaimOffer (offerId : Nat)
  | sweepExpiredOffers (offerIds : List Nat)
  | counterOffer (artist : Address) (parentOfferId : Nat) (amount : Int) (token : Address)
      (expiresAt : Option Nat)
  | acceptCounterOffer (buyer : Address) (counterOfferId : Nat)
  | claimRoyalty (recipient : Address) (settlementId : Nat) (isListing : Bool)

inductive Op
  | admin (op : AdminOp)
  | maintenance (op : MaintenanceOp)
  | listing (op : ListingOp)
  | auction (op : AuctionOp)
  | offer (op : OfferOp)

/-! ### Execution -/

section Exec

variable {C : Type} (host : Host C) (env : Env)

def AdminOp.exec : AdminOp → Tx C Unit
  | .setAdmin a => Marketplace.setAdmin env a
  | .transferAdmin a b => Marketplace.transferAdmin env a b
  | .acceptAdmin a => Marketplace.acceptAdmin env a
  | .cancelAdminProposal a => Marketplace.cancelAdminProposal env a
  | .proposeRoleTransfer a r c => Marketplace.proposeRoleTransfer host env a r c
  | .acceptRoleTransfer r c => Marketplace.acceptRoleTransfer env r c
  | .cancelRoleProposal a r => Marketplace.cancelRoleProposal env a r
  | .migrateRoles a => Marketplace.migrateRoles env a
  | .setRoleDirect a r b => Marketplace.setRoleDirect env a r b
  | .proposeTreasury a c => Marketplace.proposeTreasury env a c
  | .acceptTreasury c => Marketplace.acceptTreasury env c
  | .cancelTreasuryProposal a => Marketplace.cancelTreasuryProposal env a
  | .setTreasury a t => Marketplace.setTreasury env a t
  | .setProtocolFee a bps => Marketplace.setProtocolFee env a bps
  | .setCollectionFeeBps a c bps => Marketplace.setCollectionFeeBps env a c bps
  | .clearCollectionFeeBps a c => Marketplace.clearCollectionFeeBps env a c
  | .setPriceBounds a lo hi => Marketplace.setPriceBounds env a lo hi
  | .setMinListingDuration a s => Marketplace.setMinListingDuration env a s
  | .setMaxListingDuration a s => Marketplace.setMaxListingDuration env a s
  | .setMinBidIncrement a i => Marketplace.setMinBidIncrement env a i
  | .setBidHistoryCap a c => Marketplace.setBidHistoryCap env a c
  | .setAuctionExtensionWindow a s => Marketplace.setAuctionExtensionWindow env a s
  | .setAuctionExtensionTrigger a s => Marketplace.setAuctionExtensionTrigger env a s
  | .setAuctionMaxExtensions a m => Marketplace.setAuctionMaxExtensions env a m
  | .adminSetPaused a p => Marketplace.adminSetPaused env a p
  | .setCollectionPaused a c p => Marketplace.setCollectionPaused env a c p
  | .setFunctionPaused a f p => Marketplace.setFunctionPaused env a f p
  | .revokeArtist a b => Marketplace.revokeArtist env a b
  | .reinstateArtist a b => Marketplace.reinstateArtist env a b
  | .addTokenToWhitelist a t => Marketplace.addTokenToWhitelist host env a t
  | .removeTokenFromWhitelist a t => Marketplace.removeTokenFromWhitelist env a t
  | .proposeGovernanceAction a k s t e pa pn pb =>
    (Marketplace.proposeGovernanceAction env a k s t e pa pn pb).discard
  | .approveGovernanceAction a i => Marketplace.approveGovernanceAction env a i
  | .executeGovernanceAction a i => Marketplace.executeGovernanceAction env a i
  | .cancelGovernanceAction a i => Marketplace.cancelGovernanceAction env a i

def MaintenanceOp.exec : MaintenanceOp → Tx C Unit
  | .extendActiveTtls a n => (Marketplace.extendActiveTtls env a n).discard
  | .cleanupExpiredLocks a ls as => (Marketplace.cleanupExpiredLocks env a ls as).discard
  | .renewStorage ls as os => (Marketplace.renewStorage env ls as os).discard
  | .cleanupTerminalRecords n => (Marketplace.cleanupTerminalRecords env n).discard
  | .migrate a => Marketplace.migrate env a
  | .migrateStep a n => (Marketplace.migrateStep env a n).discard
  | .validateMigrationConsistency a c n =>
    (Marketplace.validateMigrationConsistency env a c n).discard

def ListingOp.exec : ListingOp → Tx C Unit
  | .createListing a r => (Marketplace.createListing host env a r).discard
  | .createListings a rs => (Marketplace.createListings host env a rs).discard
  | .updateListing a r => (Marketplace.updateListing host env a r).discard
  | .updateListings a rs => (Marketplace.updateListings host env a rs).discard
  | .updateListingPrice a l p => (Marketplace.updateListingPrice env a l p).discard
  | .setListingReservation a l r s e => Marketplace.setListingReservation env a l r s e
  | .reconcileListingOwner a l x y => Marketplace.reconcileListingOwner env a l x y
  | .buyArtwork a l => (Marketplace.buyArtwork host env a l).discard
  | .cancelListing a l => (Marketplace.cancelListing host env a l).discard
  | .cancelListings a ls => (Marketplace.cancelListings host env a ls).discard
  | .cancelArtistListings a b n => (Marketplace.cancelArtistListings host env a b n).discard
  | .expireListing l => Marketplace.expireListing host env l

def AuctionOp.exec : AuctionOp → Tx C Unit
  | .createAuction a t c i p d rs => (Marketplace.createAuction host env a t c i p d rs).discard
  | .blockBidder a i b => Marketplace.blockBidder env a i b
  | .unblockBidder a i b => Marketplace.unblockBidder env a i b
  | .placeBid a i x => Marketplace.placeBid host env a i x
  | .finalizeAuction a i => Marketplace.finalizeAuction host env a i
  | .refundLosingBid a i => Marketplace.refundLosingBid host env a i
  | .cancelAuction a i => Marketplace.cancelAuction host env a i
  | .adminCancelAuction a i => Marketplace.adminCancelAuction host env a i
  | .updateAuctionReservePrice a i p => Marketplace.updateAuctionReservePrice env a i p

def OfferOp.exec : OfferOp → Tx C Unit
  | .makeOffer a l x t e => (Marketplace.makeOffer host env a l x t e).discard
  | .withdrawOffer a o => Marketplace.withdrawOffer host env a o
  | .rejectOffer a o => Marketplace.rejectOffer host env a o
  | .acceptOffer a o => Marketplace.acceptOffer host env a o
  | .reclaimOffer o => Marketplace.reclaimOffer host env o
  | .sweepExpiredOffers os => (Marketplace.sweepExpiredOffers host env os).discard
  | .counterOffer a o x t e => (Marketplace.counterOffer host env a o x t e).discard
  | .acceptCounterOffer a o => Marketplace.acceptCounterOffer host env a o
  | .claimRoyalty a s b => (Marketplace.claimRoyalty host env a s b).discard

/-- One call of the contract. -/
def Op.exec : Op → Tx C Unit
  | .admin op => op.exec host env
  | .maintenance op => op.exec env
  | .listing op => op.exec host env
  | .auction op => op.exec host env
  | .offer op => op.exec host env

end Exec

/-! ### A deployment to run -/

/-- A deployment at `self` whose collections accept every call, name `owner` as the owner of every
token and ask for no royalty. -/
def Host.accepting (self owner : Address) : Host Unit where
  self := self
  ownerOf _ _ _ := some (owner, ())
  transferFrom _ _ _ _ _ _ := some ()
  batchTransferFrom _ _ _ _ _ _ _ := some ()
  royaltyInfo _ _ := some ((owner, 0), ())
  contractType _ _ := none

/-- Everybody but the contract at `self` holds ten million of every token. -/
def fundedBidders (self : Address) : Address × Address → Int :=
  fun p => if p.2 = self then 0 else 10000000

/-! ### Runs -/

/-- One step of the system: a call, or a change of collections and token balances made by others
between two calls. -/
inductive Step (C : Type)
  | call (env : Env) (op : Op)
  | external (collections : C) (balances : Address × Address → Int)

variable {C : Type} {host : Host C} {w w' : World C} {balances : Address × Address → Int}
  {collections : C} {P : World C → Step C → Prop} {I : World C → Prop} {steps : List (Step C)}

/-- The state after one step; an aborted call is rolled back. -/
def step (host : Host C) (w : World C) : Step C → World C
  | .call env op =>
    match op.exec host env w with
    | .ok (_, w') => w'
    | .error _ => w
  | .external collections balances => { w with collections, balances }

/-- The state after a run. -/
abbrev run (host : Host C) (w : World C) (steps : List (Step C)) : World C :=
  Run.exec (step host) w steps

/-- `w` is reached by some run of a newly deployed contract. -/
def Reachable (host : Host C) (w : World C) : Prop :=
  ∃ balances collections steps, w = run host (.fresh balances collections) steps

theorem reachable_run (host : Host C) (balances : Address × Address → Int) (collections : C)
    (steps : List (Step C)) : Reachable host (run host (.fresh balances collections) steps) :=
  ⟨balances, collections, steps, rfl⟩

/-- What is reached by a step is reachable. -/
theorem Reachable.step (h : Reachable host w) (s : Step C) :
    Reachable host (Marketplace.step host w s) := by
  obtain ⟨balances, collections, steps, rfl⟩ := h
  refine ⟨balances, collections, steps ++ [s], ?_⟩
  simp only [Run.exec_append, Run.exec_cons, Run.exec_nil]

theorem Reachable.after (h : Reachable host w) (steps : List (Step C)) :
    Reachable host (run host w steps) :=
  Run.invariant h fun _ s hw => hw.step s

/-- A call either returns, and the step goes to the state it leaves, or the step changes nothing. -/
theorem step_call (host : Host C) (w : World C) (env : Env) (op : Op) :
    (∃ w', Returns (op.exec host env) w () w' ∧ step host w (.call env op) = w') ∨
      step host w (.call env op) = w := by
  cases h : op.exec host env w with
  | ok r =>
    obtain ⟨⟨⟩, w'⟩ := r
    exact .inl ⟨w', h, by simp [step, h]⟩
  | error e => exact .inr (by simp [step, h])

theorem step_of_returns (h : Returns (op.exec host env) w () w') :
    step host w (.call env op) = w' := by
  unfold Returns at h
  simp [step, h]

/-- What a call leaves when it returns is reachable. -/
theorem Reachable.of_returns {op : Op} (hreach : Reachable host w)
    (h : Returns (op.exec host env) w () w') : Reachable host w' := by
  rw [← step_of_returns h]
  exact hreach.step _

/-- What follows a call that returns is a run from the state it leaves. -/
theorem run_of_returns
    (h : Returns (op.exec host env) (run host w before) () w') (after : List (Step C)) :
    run host w' after = run host w (before ++ .call env op :: after) := by
  rw [run, run, Run.exec_append, Run.exec_cons, step_of_returns h]

/-- **Calls of a run.** What every call that returns keeps, and does not depend on tokens and
collections, holds after every run whose steps meet the condition. -/
theorem along_calls (hrun : Run.Along (step host) P w steps) (hI : I w)
    (hcall : ∀ env op w w', P w (.call env op) → Returns (op.exec host env) w () w' → I w → I w')
    (hexternal : ∀ w collections balances, I w → I { w with collections, balances }) :
    I (run host w steps) := by
  refine hrun.invariant hI fun w s hw hP => ?_
  cases s with
  | call env op =>
    rcases step_call host w env op with ⟨w', h, heq⟩ | heq
    · exact heq ▸ hcall env op w w' hP h hw
    · exact heq.symm ▸ hw
  | external collections balances => exact hexternal w collections balances hw

/-- The rule for a run that goes on from a reachable state. -/
theorem Reachable.along_calls (hreach : Reachable host w) (hrun : Run.Along (Marketplace.step host) P w steps)
    (hI : I w)
    (hcall : ∀ env op w w', Reachable host w → P w (.call env op) →
      Returns (op.exec host env) w () w' → I w → I w')
    (hexternal : ∀ w collections balances, I w → I { w with collections, balances }) :
    I (run host w steps) :=
  (Marketplace.along_calls (I := fun w => Reachable host w ∧ I w) hrun ⟨hreach, hI⟩
    (fun env op w w' hP h hw => ⟨hw.1.of_returns h, hcall env op w w' hw.1 hP h hw.2⟩)
    fun w collections balances hw => ⟨hw.1.step (.external collections balances), hexternal _ _ _ hw.2⟩).2

/-! ### What the calls of a run put on record -/

section Record

variable {ω : Type}

/-- What a step puts on record when the record of a call that returns is `out`; an aborted call puts
nothing on record. -/
def Step.record (host : Host C) (out : Env → Op → World C → World C → List ω) (w : World C) :
    Step C → List ω
  | .call env op =>
    match op.exec host env w with
    | .ok (_, w') => out env op w w'
    | .error _ => []
  | .external _ _ => []

/-- What the calls of a run that return put on record, in order. -/
abbrev record (host : Host C) (out : Env → Op → World C → World C → List ω) (w : World C)
    (steps : List (Step C)) : List ω :=
  Run.transcript (step host) (Step.record host out) w steps

/-- **Runs with a record.** A relation between record and state that every call that returns keeps,
and that does not depend on tokens and collections, holds after every run from a reachable state. -/
theorem Reachable.recorded (out : Env → Op → World C → World C → List ω)
    {I : List ω → World C → Prop} (hreach : Reachable host w)
    (hrun : Run.Along (Marketplace.step host) P w steps) (hstart : I [] w) (hcall : ∀ log env op w w', Reachable host w → P w (.call env op) →
      Returns (op.exec host env) w () w' → I log w → I (log ++ out env op w w') w')
    (hexternal : ∀ log w collections balances, I log w → I log { w with collections, balances }) :
    I (record host out w steps) (run host w steps) := by
  refine hrun.transcript hreach.after hstart ?_
  intro log w s hreach hP hI
  cases s with
  | call env op =>
    cases h : op.exec host env w with
    | ok r =>
      obtain ⟨⟨⟩, w'⟩ := r
      simpa [Step.record, Marketplace.step, h] using hcall log env op w w' hreach hP h hI
    | error e => simpa [Step.record, Marketplace.step, h] using hI
  | external collections balances =>
    simpa [Step.record, Marketplace.step] using hexternal log w collections balances hI

/-- Runs with a record of a newly deployed contract. -/
theorem run_record (out : Env → Op → World C → World C → List ω) {I : List ω → World C → Prop}
    (hrun : Run.Along (step host) P (.fresh balances collections) steps)
    (hfresh : I [] (.fresh balances collections)) (hcall : ∀ log env op w w', Reachable host w → P w (.call env op) →
      Returns (op.exec host env) w () w' → I log w → I (log ++ out env op w w') w')
    (hexternal : ∀ log w collections balances, I log w → I log { w with collections, balances }) :
    I (record host out (.fresh balances collections) steps)
      (run host (.fresh balances collections) steps) :=
  (reachable_run host balances collections []).recorded out hrun hfresh hcall hexternal

/-- **Runs under a condition.** What every call that returns keeps, and does not depend on tokens and
collections, holds after every run whose steps meet the condition. -/
theorem run_calls (hrun : Run.Along (step host) P (.fresh balances collections) steps)
    (hfresh : I (.fresh balances collections)) (hcall : ∀ env op w w', Reachable host w → P w (.call env op) →
      Returns (op.exec host env) w () w' → I w → I w')
    (hexternal : ∀ w collections balances, I w → I { w with collections, balances }) :
    I (run host (.fresh balances collections) steps) :=
  (reachable_run host balances collections []).along_calls hrun hfresh hcall hexternal

/-- **Reachable states.** What every call that returns keeps, and does not depend on tokens and
collections, holds in every reachable state. -/
theorem Reachable.induction (hreach : Reachable host w)
    (hfresh : ∀ balances collections, I (.fresh balances collections)) (hcall : ∀ env (op : Op) w w', Reachable host w → Returns (op.exec host env) w () w' →
      I w → I w') (hexternal : ∀ w collections balances, I w → I { w with collections, balances }) :
    I w := by
  obtain ⟨balances, collections, steps, rfl⟩ := hreach
  exact run_calls (Run.along_of_forall fun _ _ => trivial)
    (hfresh balances collections) (fun env op w w' hreach _ => hcall env op w w' hreach) hexternal

end Record

end ElcareHub.Marketplace
