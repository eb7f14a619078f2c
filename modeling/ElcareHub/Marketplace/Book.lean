import ElcareHub.Marketplace.ActiveIndex
import ElcareHub.Marketplace.Contract
import Mathlib.Logic.Relation

/-!
# The book: what the marketplace is for

The abstract state of the marketplace. It forgets configuration, events, locks, accounting totals
and history indexes, and keeps what the contract promises something about: the listings, auctions
and offers, which token is in custody for whom, which offers are open, which listings are on sale,
and how much was paid in and out on account of what.

A `Move` is one atomic change of the book. The entry points make sequences of moves (a batch makes
one per item, most calls exactly one). Every invariant is proved once per move; `Refine` shows that
the calls of the contract make no other changes.

Three moves are kept apart from the ordinary ones by a `Kind`, since they are the ones that spoil an
invariant: a listing closed over its open offers, an offer opened without a deposit, and a refund
claimed from an auction that is already settled.
-/

namespace ElcareHub.Marketplace

open Function

/-! ### State -/

structure Book where
  legacy : LegacyIndexes
  listingCount : Nat
  listing : Nat → Option Listing
  auctionCount : Nat
  auction : Nat → Option Auction
  offerCount : Nat
  offer : Nat → Option Offer
  pendingOffers : Nat → List Nat
  counterParent : Nat → Option Nat
  escrow : Address × Nat → Option EscrowRecord
  active : ActiveIndex
  deposited : Purse → Int
  paidOut : Purse → Int

/-- The book a state of the contract keeps. -/
def World.book {C : Type} (w : World C) : Book where
  legacy := w.legacy
  listingCount := w.listingCount
  listing := w.listing
  auctionCount := w.auctionCount
  auction := w.auction
  offerCount := w.offerCount
  offer := w.offer
  pendingOffers := w.listingPendingOffers
  counterParent := w.counterOfferParent
  escrow := w.escrowedToken
  active := ⟨w.index .activeListings, w.activeListingPos, w.staleSlots⟩
  deposited := w.deposited
  paidOut := w.paidOut

namespace Book

/-! ### Elementary changes -/

def setListing (b : Book) (k : Nat) (l : Listing) : Book :=
  { b with listing := update b.listing k (some l) }

def setAuction (b : Book) (k : Nat) (a : Auction) : Book :=
  { b with auction := update b.auction k (some a) }

def setOffer (b : Book) (k : Nat) (o : Offer) : Book :=
  { b with offer := update b.offer k (some o) }

def setPending (b : Book) (k : Nat) (ids : List Nat) : Book :=
  { b with pendingOffers := update b.pendingOffers k ids }

def setEscrow (b : Book) (asset : Address × Nat) (record : Option EscrowRecord) : Book :=
  { b with escrow := update b.escrow asset record }

def setActive (b : Book) (active : ActiveIndex) : Book := { b with active }

def setOffers (b : Book) (offer : Nat → Option Offer) : Book := { b with offer }

/-- `x` is paid into the contract on account of `p`. -/
def deposit (b : Book) (p : Purse) (x : Int) : Book :=
  { b with deposited := update b.deposited p (b.deposited p + x) }

/-- `x` is paid out by the contract on account of `p`. -/
def pay (b : Book) (p : Purse) (x : Int) : Book :=
  { b with paidOut := update b.paidOut p (b.paidOut p + x) }

/-! ### Refunds -/

/-- The offers after those among `ids` that were pending have been rejected. -/
def rejected (b : Book) (ids : List Nat) (i : Nat) : Option Offer :=
  if i ∈ ids then
    (b.offer i).map fun o => if o.status = .pending then { o with status := .rejected } else o
  else b.offer i

/-- What rejecting the pending offers among `ids` pays out of the purse `p`. -/
def refund (b : Book) (ids : List Nat) (p : Purse) : Int :=
  match p.account with
  | .offer i =>
    match b.offer i with
    | some o => if i ∈ ids ∧ o.status = .pending ∧ o.token = p.token then o.amount else 0
    | none => 0
  | _ => 0

/-- Reject and refund the pending offers among `ids`. -/
def refundAll (b : Book) (ids : List Nat) : Book :=
  { b with offer := b.rejected ids, paidOut := fun p => b.paidOut p + b.refund ids p }

/-- Reject and refund every offer of listing `k` that is still open. -/
def refundPending (b : Book) (k : Nat) : Book :=
  (b.refundAll (b.pendingOffers k)).setPending k []

/-! ### Openings and closings -/

/-- Enter a listing: it goes on sale and its token into custody. -/
def openListing (b : Book) (l : Listing) (active : ActiveIndex) : Book :=
  { b with
    listingCount := b.listingCount + 1
    listing := update b.listing l.listingId (some l)
    escrow := update b.escrow (l.collection, l.tokenId) (some ⟨true, l.listingId⟩)
    active := active }

/-- Take a listing off sale: its record becomes `l` and its token leaves custody. -/
def closeListing (b : Book) (k : Nat) (l : Listing) (active : ActiveIndex) : Book :=
  ((b.setListing k l).setEscrow (l.collection, l.tokenId) none).setActive active

/-- Enter an auction and take its token into custody. -/
def openAuction (b : Book) (a : Auction) : Book :=
  { b with
    auctionCount := b.auctionCount + 1
    auction := update b.auction a.auctionId (some a)
    escrow := update b.escrow (a.collection, a.tokenId) (some ⟨false, a.auctionId⟩) }

/-- Enter a pending offer. -/
def openOffer (b : Book) (o : Offer) : Book :=
  { b with
    offerCount := b.offerCount + 1
    offer := update b.offer o.offerId (some o)
    pendingOffers :=
      update b.pendingOffers o.listingId (b.pendingOffers o.listingId ++ [o.offerId]) }

/-- Close a single offer with a refund. -/
def closeOffer (b : Book) (i : Nat) (o : Offer) (status : OfferStatus) : Book :=
  ((b.setOffer i { o with status }).setPending o.listingId
    ((b.pendingOffers o.listingId).erase i)).pay ⟨.offer i, o.token⟩ o.amount

end Book

/-- The bid that stands: what the contract holds for an active auction. -/
def Auction.standing (a : Auction) : Int := if a.highestBidder.isSome then a.highestBid else 0

/-- Two versions of one listing that sell the same token. -/
structure Listing.SameAsset (l l' : Listing) : Prop where
  id : l'.listingId = l.listingId
  collection : l'.collection = l.collection
  tokenId : l'.tokenId = l.tokenId

/-- Two versions of one auction that sell the same token for the same currency. -/
structure Auction.SameAsset (a a' : Auction) : Prop where
  id : a'.auctionId = a.auctionId
  collection : a'.collection = a.collection
  tokenId : a'.tokenId = a.tokenId
  token : a'.token = a.token

/-! ### Moves -/

/-- The kinds of moves the invariants tell apart. -/
inductive Kind
  | ordinary
  /-- a listing is closed while offers on it are open -/
  | abandon (listingId : Nat)
  /-- an offer is opened without a deposit -/
  | counter (offerId : Nat)
  /-- a bid of a closed auction is refunded -/
  | losingRefund (auctionId : Nat)

/-- What a listing's exit settles before its open offers are refunded: nothing, a direct sale, one of
its offers, or a counter-offer that the buyer pays for on the spot. -/
inductive Payment (k : Nat) (b : Book) : Book → Prop
  | nothing : Payment k b b
  | sale (token : Address) (price : Int) :
      Payment k b ((b.deposit ⟨.sale k, token⟩ price).pay ⟨.sale k, token⟩ price)
  | offer (i : Nat) (o : Offer) (hoffer : b.offer i = some o) (hpending : o.status = .pending)
      (hlisting : o.listingId = k) :
      Payment k b ((b.setOffer i { o with status := .accepted }).pay ⟨.offer i, o.token⟩ o.amount)
  | counter (i : Nat) (o : Offer) (hoffer : b.offer i = some o) (hpending : o.status = .pending)
      (hlisting : o.listingId = k) (hcounter : (b.counterParent i).isSome) :
      Payment k b
        (((b.setOffer i { o with status := .accepted }).deposit ⟨.offer i, o.token⟩ o.amount).pay
          ⟨.offer i, o.token⟩ o.amount)

/-- One atomic change of the book. -/
inductive Move : Kind → Book → Book → Prop
  | openListing {b : Book} (l : Listing) (active : ActiveIndex)
      (hid : l.listingId = b.listingCount + 1) (hactive : l.status = .active)
      (hfree : b.escrow (l.collection, l.tokenId) = none)
      (hadd : b.active.add l.listingId = some active) :
      Move .ordinary b (b.openListing l active)
  | editListing {b : Book} (k : Nat) (l l' : Listing) (hlisting : b.listing k = some l)
      (hsame : l.SameAsset l') (hstatus : l'.status = l.status) :
      Move .ordinary b (b.setListing k l')
  /-- A listing leaves the market: something is settled, and every open offer is refunded. -/
  | retire {b : Book} (k : Nat) (l l' : Listing) (active : ActiveIndex) (b1 : Book)
      (hlisting : b.listing k = some l) (hactive : l.status = .active)
      (hsame : l.SameAsset l') (hclosed : l'.status ≠ .active)
      (hremove : b.active.remove k = some active) (hpayment : Payment k b b1) :
      Move .ordinary b ((b1.refundPending k).closeListing k l' active)
  /-- A listing leaves the market over its open offers. -/
  | abandon {b : Book} (k : Nat) (l l' : Listing) (active : ActiveIndex)
      (hlisting : b.listing k = some l) (hactive : l.status = .active)
      (hsame : l.SameAsset l') (hclosed : l'.status ≠ .active)
      (hremove : b.active.remove k = some active) (hopen : b.pendingOffers k ≠ []) :
      Move (.abandon k) b (b.closeListing k l' active)
  | openAuction {b : Book} (a : Auction) (hid : a.auctionId = b.auctionCount + 1)
      (hactive : a.status = .active) (hbid : a.highestBid = 0) (hbidder : a.highestBidder = none)
      (hfree : b.escrow (a.collection, a.tokenId) = none) :
      Move .ordinary b (b.openAuction a)
  | editAuction {b : Book} (k : Nat) (a a' : Auction) (hauction : b.auction k = some a)
      (hsame : a.SameAsset a') (hstatus : a'.status = a.status)
      (hbid : a'.highestBid = a.highestBid) (hbidder : a'.highestBidder = a.highestBidder) :
      Move .ordinary b (b.setAuction k a')
  /-- A higher bid comes in and the bid that stood is returned. -/
  | bid {b : Book} (k : Nat) (a a' : Auction) (hauction : b.auction k = some a)
      (hactive : a.status = .active) (hsame : a.SameAsset a') (hstatus : a'.status = .active)
      (hbidder : a'.highestBidder.isSome) (hbid : 0 ≤ a'.highestBid) :
      Move .ordinary b
        (((b.setAuction k a').pay ⟨.auction k, a.token⟩ a.standing).deposit ⟨.auction k, a.token⟩
          a'.highestBid)
  /-- An auction closes and the bid that stands is paid out, to its bidder or as a sale price. -/
  | closeAuction {b : Book} (k : Nat) (a a' : Auction) (hauction : b.auction k = some a)
      (hactive : a.status = .active) (hsame : a.SameAsset a') (hclosed : a'.status ≠ .active) :
      Move .ordinary b
        (((b.setAuction k a').pay ⟨.auction k, a.token⟩ a.standing).setEscrow
          (a.collection, a.tokenId) none)
  /-- A bidder of a closed auction claims a refund. -/
  | losingRefund {b : Book} (k : Nat) (a : Auction) (x : Int) (hauction : b.auction k = some a)
      (hclosed : a.status ≠ .active) (hpositive : 0 < x) :
      Move (.losingRefund k) b (b.pay ⟨.auction k, a.token⟩ x)
  | makeOffer {b : Book} (o : Offer) (l : Listing) (hid : o.offerId = b.offerCount + 1)
      (hpending : o.status = .pending) (hamount : 0 < o.amount)
      (hlisting : b.listing o.listingId = some l) (hactive : l.status = .active) :
      Move .ordinary b ((b.openOffer o).deposit ⟨.offer o.offerId, o.token⟩ o.amount)
  | closeOffer {b : Book} (i : Nat) (o : Offer) (status : OfferStatus)
      (hoffer : b.offer i = some o) (hpending : o.status = .pending) (hclosed : status ≠ .pending) :
      Move .ordinary b (b.closeOffer i o status)
  /-- A pending offer is opened in answer to another one, and nothing is deposited for it. -/
  | counterOffer {b : Book} (o : Offer) (l : Listing) (parent : Nat)
      (hid : o.offerId = b.offerCount + 1) (hpending : o.status = .pending)
      (hamount : 0 < o.amount) (hlisting : b.listing o.listingId = some l)
      (hactive : l.status = .active) :
      Move (.counter o.offerId) b
        { b.openOffer o with
          counterParent := update b.counterParent o.offerId (some parent) }
  | claimRoyalty {b : Book} (settlementId : Nat) (isListing : Bool) (token : Address) (x : Int) :
      Move .ordinary b (b.pay ⟨.royaltyClaim settlementId isListing, token⟩ x)

/-- A sequence of moves, each of a kind in `K`. -/
def Moves (K : Kind → Prop) : Book → Book → Prop :=
  Relation.ReflTransGen fun b b' => ∃ k, K k ∧ Move k b b'

namespace Moves

variable {K L : Kind → Prop} {b b' b'' : Book}

theorem refl (b : Book) : Moves K b b := Relation.ReflTransGen.refl

theorem of_eq (h : b' = b) : Moves K b b' := by
  rw [h]
  exact refl b

theorem single (hk : K k) (h : Move k b b') : Moves K b b' :=
  Relation.ReflTransGen.single ⟨k, hk, h⟩

theorem trans (h : Moves K b b') (h' : Moves K b' b'') : Moves K b b'' :=
  Relation.ReflTransGen.trans h h'

/-- Sequences of moves with fewer kinds are sequences of moves. -/
theorem mono (hKL : ∀ k, K k → L k) (h : Moves K b b') : Moves L b b' := by
  induction h with
  | refl => exact refl b
  | tail _ hstep ih =>
    obtain ⟨k, hk, hm⟩ := hstep
    exact ih.trans (single (hKL k hk) hm)

/-- **Invariant rule.** What every move of a kind in `K` keeps, every sequence of such moves
keeps. -/
theorem invariant {I : Book → Prop} (hmove : ∀ k b b', K k → Move k b b' → I b → I b')
    (h : Moves K b b') (hb : I b) : I b' := by
  induction h with
  | refl => exact hb
  | tail _ hstep ih =>
    obtain ⟨k, hk, hm⟩ := hstep
    exact hmove k _ _ hk hm ih

end Moves

end ElcareHub.Marketplace
