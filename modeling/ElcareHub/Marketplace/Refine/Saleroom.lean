import ElcareHub.Marketplace.Refine.Auctions
import ElcareHub.Marketplace.Refine.Catalogue

/-!
# How the auctions evolve

The saleroom is the register of the auctions, under the configuration a new auction takes its terms
from. Only `place_bid` takes a bid (`placeBid_saleroom`); every other call opens an auction, moves the
reserve price of an auction without bids, or closes an auction (`op_saleroom`).
-/

namespace ElcareHub.Marketplace

open Call hiding update
open Function

set_option synthInstance.maxSize 100000000

variable {C : Type} {host : Host C} {env : Env} {w w' : World C} {u : Unit}
variable {k : Nat} {a : Auction} {creator bidder : Address} {amount : Int} {op : Op}

/-! ### The saleroom -/

/-- The auctions, with the configuration in force. -/
def World.saleroom (w : World C) : Register Config Auction := ⟨w.config, w.auctionCount, w.auction⟩

theorem Book.Keyed.saleroom (h : w.book.Keyed) : w.saleroom.Keyed Auction.auctionId where
  id_eq ha := (h.auction ha).1
  le_count ha := (h.auction ha).2

instance : Ignores (World.saleroom (C := C)) World.field
    ([.upkeep, .legacy, .accounting, .listingCount, .listing, .auctionBids, .offerCount, .offer,
      .escrowedToken, .history, .events, .collections, .transfers] ++ Field.background) where
  eq_of_outside h := by
    have hsame := fields_eq h [.config, .auctionCount, .auction]
    simp only [List.forall_mem_cons, World.field] at hsame
    simp only [World.saleroom, hsame]

/-- The smallest raise, and the smallest reserve price, that the configuration allows. -/
def Config.minIncrement (config : Config) : Int :=
  config.minBidIncrement.getD defaultMinBidIncrement

/-- The record of a new auction. -/
def Auction.opened (config : Config) (auctionId : Nat) (creator token collection : Address)
    (tokenId : Nat) (reservePrice : Int) (endTime : Nat) (recipients : List Recipient) :
    Auction :=
  { auctionId, creator, token, collection, tokenId, reservePrice, endTime, recipients
    highestBid := 0
    highestBidder := none
    status := .active
    minIncrement := config.minIncrement
    extensionWindow := config.auctionExtensionWindow.getD defaultExtensionWindow
    extensionTrigger := config.auctionExtensionTrigger.getD defaultExtensionTrigger
    protocolFeeBps := config.protocolFeeBps.getD 0
    bidHistoryCap := config.bidHistoryCap.getD defaultBidHistoryCap
    maxExtensions := config.auctionMaxExtensions.getD defaultAuctionMaxExtensions
    extensionCount := 0
    originalEndTime := endTime }

/-- An auction is entered with a reserve price of at least one raise and recipients that have passed
their checks. -/
inductive Auction.New (config : Config) (k : Nat) : Auction → Prop
  | opened (creator token collection : Address) (tokenId : Nat) (reservePrice : Int) (endTime : Nat)
      (recipients : List Recipient) (hreserve : config.minIncrement ≤ reservePrice)
      (hrecipients : ValidRecipients recipients) :
      New config k (.opened config k creator token collection tokenId reservePrice endTime recipients)

/-- How an auction is edited other than by a bid. -/
inductive Auction.Edit (config : Config) (a : Auction) : Auction → Prop
  | reserve (reservePrice : Int) (hbidder : a.highestBidder = none)
      (hreserve : config.minIncrement ≤ reservePrice) : Edit config a { a with reservePrice }
  | close (status : AuctionStatus) (hactive : a.status = .active) (hclosed : status ≠ .active) :
      Edit config a { a with status }

instance : Register.Numbered Auction.auctionId Auction.New Auction.Edit where
  new h := by
    cases h
    rfl
  edit h := by
    cases h <;> rfl

/-- One change of the saleroom; only active auctions are edited. -/
abbrev Auction.Turn : Register Config Auction → Register Config Auction → Prop :=
  Register.Change Auction.New fun config a a' => a.Edit config a' ∧ a.status = .active

/-- `c` opens and edits auctions. -/
abbrev Auctions {α : Type} (c : Tx C α) : Prop :=
  Evolves World.saleroom (Register.Keyed Auction.auctionId) Auction.Turn c

/-- `c` opens and edits auctions, when `a` is stored under `k`. -/
abbrev AuctionsFrom {α : Type} (k : Nat) (a : Auction) (c : Tx C α) : Prop :=
  Evolves World.saleroom (fun r => r.Keyed Auction.auctionId ∧ r.get k = some a) Auction.Turn c

/-! ### Opening and editing auctions -/

theorem auctions_requireAuction
    (h : ∀ a, AuctionsFrom k a (g a)) : Auctions (requireAuction k >>= g) where
  evolves hw hreturns := by
    obtain ⟨a, hauction, hrest⟩ := returns_requireAuction_bind.mp hreturns
    exact (h a).evolves ⟨hw, hauction⟩ hrest

theorem auctionsFrom_close (hactive : a.status = .active)
    (hclosed : status ≠ .active) : AuctionsFrom k a (saveAuction { a with status } : Tx C Unit) :=
  Register.evolves_save (fun _ => rfl) fun _ hr =>
    ⟨hr.1, hr.2, .close status hactive hclosed, hactive⟩

instance (token collection : Address) (tokenId : Nat) (reservePrice : Int) (duration : Nat)
    (recipients : List Recipient) :
    Auctions (createAuction host env creator token collection tokenId reservePrice duration
      recipients) := by
  refine .skip fun _ => .skip fun _ => .skip fun _ =>
    .load (f := World.saleroom) (v := fun r => r.terms) fun config => ?_
  refine .abortIf fun hreserve => .skip fun _ => .skip fun _ => .skip fun _ =>
    .fact recipients_of_count fun _ hfew => .fact recipients_faultless fun _ hfaultless => ⟨?_⟩
  rintro w id w' ⟨hkeyed, rfl⟩ h
  -- the id is taken and the record saved under it; the rest does not touch the saleroom
  obtain ⟨next, w1, hnext, h⟩ := h.bind
  obtain ⟨hid, hw1⟩ := returns_counter hnext
  obtain ⟨endTime, w2, hw2, h⟩ := h.skip (congrArg World.saleroom hw1)
  obtain ⟨_, w3, hw3, h⟩ := h.skip hw2
  replace h := h.write
  have hrest := h.last (f := World.saleroom) rfl
  have hconfig : w3.config = w.config := congrArg Register.terms hw3
  have hauction : w3.auction = w.auction := congrArg Register.get hw3
  have hcount : w3.auctionCount = w.auctionCount + 1 := (congrArg Register.count hw3).trans hid
  rw [hrest]
  rw [hconfig, hcount, hauction, hid]
  exact .single (.enter _ (.opened creator token collection tokenId reservePrice endTime recipients
    (Int.not_lt.mp hreserve) ⟨hfew.1, hfew.2, hfaultless⟩))

instance (newPrice : Int) :
    Auctions (updateAuctionReservePrice env creator k newPrice : Tx C Unit) := by
  refine .skip fun _ => .skip fun _ => auctions_requireAuction fun a => .skip fun _ =>
    .abortIf fun hstatus => .abortIf fun hbids =>
    .load (f := World.saleroom) (v := fun r => r.terms.minIncrement) fun increment =>
    .abortIf fun hreserve => .skip fun _ => ?_
  have hsave : Evolves World.saleroom
      (fun r => (r.Keyed Auction.auctionId ∧ r.get k = some a) ∧ r.terms.minIncrement = increment)
      Auction.Turn (saveAuction { a with reservePrice := newPrice } : Tx C Unit) :=
    Register.evolves_save (fun _ => rfl) fun r hr => ⟨hr.1.1, hr.1.2,
      .reserve newPrice (by simpa using (not_or.mp hbids).1) (by rw [hr.2]; exact Int.not_lt.mp hreserve),
      not_not.mp hstatus⟩
  infer_instance

instance (caller : Address) : Auctions (finalizeAuction host env caller k) := by
  refine .skip fun _ => .skip fun _ => auctions_requireAuction fun a => .abortIf fun hstatus =>
    .skip fun _ => ?_
  have hactive : a.status = .active := by simpa using hstatus
  have hfinalized : AuctionsFrom k a (saveAuction { a with status := .finalized } : Tx C Unit) :=
    auctionsFrom_close hactive (by simp)
  have hcancelled : AuctionsFrom k a (saveAuction { a with status := .cancelled } : Tx C Unit) :=
    auctionsFrom_close hactive (by simp)
  have houtcome : AuctionsFrom k a (finalizeOutcome host env a k) := by
    unfold finalizeOutcome finalizeUnsold
    split <;> infer_instance
  infer_instance

instance : Auctions (cancelAuction host env creator k) := by
  refine .skip fun _ => auctions_requireAuction fun a => .skip fun _ => .abortIf fun hstatus => ?_
  have hcancelled : AuctionsFrom k a (saveAuction { a with status := .cancelled } : Tx C Unit) :=
    auctionsFrom_close (by simpa using hstatus) (by simp)
  infer_instance

instance (admin : Address) : Auctions (adminCancelAuction host env admin k) := by
  refine .skip fun _ => .skip fun _ => auctions_requireAuction fun a => .abortIf fun hstatus =>
    .skip fun _ => ?_
  have hcancelled : AuctionsFrom k a (saveAuction { a with status := .cancelled } : Tx C Unit) :=
    auctionsFrom_close (by simpa using hstatus) (by simp)
  infer_instance

/-! ### Bids -/

/-- The checks of a bid of `amount` by `bidder`: the auction is open, the bidder is not its creator, and
the amount reaches the reserve price or outbids the bid that stands by a raise. -/
structure Auction.Admits (a : Auction) (bidder : Address) (amount : Int) : Prop where
  active : a.status = .active
  bidder_ne : bidder ≠ a.creator
  first : a.highestBid = 0 → a.reservePrice ≤ amount
  raise : a.highestBid ≠ 0 → a.highestBid + a.minIncrement ≤ amount

theorem checkBidInvariants_admits
    (h : Returns (checkBidInvariants env a bidder amount) w extension w') :
    a.Admits bidder amount ∧ extension = bidExtension env a := by
  obtain ⟨hactive, h⟩ := h.check
  obtain ⟨-, h⟩ := h.check
  obtain ⟨hbidder, h⟩ := h.check
  obtain ⟨blocked, w1, hload, h⟩ := h.bind
  obtain ⟨w2, hblocked, h⟩ := h.seq
  split at h
  · rename_i hzero
    obtain ⟨requiredMin, w3, hmin, h⟩ := h.bind
    obtain ⟨rfl, rfl⟩ := hmin.pure
    obtain ⟨hle, h⟩ := h.check
    exact ⟨⟨by simpa using hactive, hbidder, fun _ => Int.not_lt.mp hle,
      fun hsome => (hsome hzero).elim⟩, (h.pure).1.symm⟩
  · rename_i hsome
    obtain ⟨requiredMin, w3, hmin, h⟩ := h.bind
    obtain rfl := checkedI128_eq_some (hmin.value).1
    obtain ⟨hle, h⟩ := h.check
    exact ⟨⟨by simpa using hactive, hbidder, fun hzero => (hsome hzero).elim,
      fun _ => Int.not_lt.mp hle⟩, (h.pure).1.symm⟩

/-- The auctions and the histories of their bids. -/
def World.bidding (w : World C) : Register Config Auction × (Nat → List BidRecord) :=
  (w.saleroom, w.auctionBids)

instance : Ignores (World.bidding (C := C)) World.field
    ([.upkeep, .legacy, .accounting, .listingCount, .listing, .offerCount, .offer, .escrowedToken,
      .history, .events, .collections, .transfers] ++ Field.background) where
  eq_of_outside h := by
    have hsame := fields_eq h [.config, .auctionCount, .auction, .auctionBids]
    simp only [List.forall_mem_cons, World.field] at hsame
    simp only [World.bidding, World.saleroom, hsame]

/-- **Bids.** An accepted bid passed the checks; it replaces the bid that stood and is added to the
history of the auction. -/
theorem placeBid_saleroom (hkeyed : w.book.Keyed)
    (h : Returns (placeBid host env bidder k amount) w u w') :
    ∃ a, w.auction k = some a ∧ a.Admits bidder amount ∧ w'.saleroom = { w.saleroom with
        get := update w.auction k (some (a.withBid bidder amount (bidExtension env a))) } ∧
      w'.auctionBids = update w.auctionBids k
        (pushBid (w.auctionBids k) ⟨bidder, amount, env.sequence⟩ a.bidHistoryCap) := by
  obtain ⟨_, _, w2, e, h⟩ := h.skip₂ (f := World.bidding) rfl
  obtain ⟨a, hauction, h⟩ := returns_requireAuction_bind.mp h
  have hstored : w.bidding.1.get k = some a := by
    rw [← e]
    exact hauction
  obtain ⟨_, w3, e, h⟩ := h.skip e
  obtain ⟨extension, w4, hcheck, h⟩ := h.bind
  replace e := hcheck.last e
  replace h := h.write
  replace h := h.write
  -- what is left pays the bidder who is outbid and takes the deposit
  have hrest := h.last (f := World.bidding) rfl
  have hid : a.auctionId = k := (hkeyed.auction hstored).1
  have hconfig : w4.config = w.config := congrArg (fun b => b.1.terms) e
  have hcount : w4.auctionCount = w.auctionCount := congrArg (fun b => b.1.count) e
  have hget : w4.auction = w.auction := congrArg (fun b => b.1.get) e
  have hbids : w4.auctionBids = w.auctionBids := congrArg Prod.snd e
  obtain ⟨hadmits, rfl⟩ := checkBidInvariants_admits hcheck
  refine ⟨a, hstored, hadmits, ?_, ?_⟩
  · rw [show w'.saleroom = _ from congrArg Prod.fst hrest]
    show Register.mk w4.config w4.auctionCount (update w4.auction a.auctionId _) = _
    rw [hconfig, hcount, hget, hid]
    rfl
  · rw [show w'.auctionBids = _ from congrArg Prod.snd hrest]
    show update w4.auctionBids k (pushBid (w4.auctionBids k) _ _) = _
    rw [hbids]

/-! ### Calls -/

/-- Calls that do not write auctions. -/
theorem saleroom_eq_of_frame (h : Returns (op.exec host env) w () w')
    (hauction : Field.auction ∉ op.footprint) (hcount : Field.auctionCount ∉ op.footprint) :
    { w'.saleroom with terms := w.config } = w.saleroom := by
  have hsame : w'.auction = w.auction := op_frame h hauction
  have hsame' : w'.auctionCount = w.auctionCount := op_frame h hcount
  simp only [World.saleroom, hsame, hsame']

/-- Calls that open or edit auctions. -/
theorem saleroom_of_auctions (hkeyed : w.book.Keyed) (h : Returns (op.exec host env) w () w')
    (hconfig : Field.config ∉ op.footprint) (hop : Auctions (op.exec host env)) :
    Relation.ReflTransGen Auction.Turn w.saleroom
      { w'.saleroom with terms := w.config } := by
  have hsame : w'.config = w.config := op_frame h hconfig
  rw [← hsame]
  exact hop.evolves hkeyed.saleroom h

/-- **The saleroom.** A call other than `place_bid` opens auctions, and edits those that are active, at
the configuration it meets. -/
theorem op_auctionTurns (hop : ∀ bidder k amount, op ≠ .auction (.placeBid bidder k amount))
    (hkeyed : w.book.Keyed) (h : Returns (op.exec host env) w () w') :
    Relation.ReflTransGen Auction.Turn w.saleroom
      { w'.saleroom with terms := w.config } := by
  cases op with
  | auction op =>
    cases op with
    | placeBid bidder k amount => exact (hop bidder k amount rfl).elim
    | blockBidder | unblockBidder | refundLosingBid =>
      rw [saleroom_eq_of_frame h (by simp [Op.footprint, AuctionOp.footprint])
        (by simp [Op.footprint, AuctionOp.footprint])]
    | _ =>
      refine saleroom_of_auctions hkeyed h (by simp [Op.footprint, AuctionOp.footprint]) ?_
      simp only [Op.exec, AuctionOp.exec]
      infer_instance
  | listing op =>
    rw [saleroom_eq_of_frame h (by cases op <;> simp [Op.footprint, ListingOp.footprint])
      (by cases op <;> simp [Op.footprint, ListingOp.footprint])]
  | offer op =>
    rw [saleroom_eq_of_frame h (by cases op <;> simp [Op.footprint, OfferOp.footprint])
      (by cases op <;> simp [Op.footprint, OfferOp.footprint])]
  | admin op =>
    rw [saleroom_eq_of_frame h (by simp [Op.footprint]) (by simp [Op.footprint])]
  | maintenance op =>
    rw [saleroom_eq_of_frame h (by simp [Op.footprint]) (by simp [Op.footprint])]

theorem op_saleroom (hop : ∀ bidder k amount, op ≠ .auction (.placeBid bidder k amount))
    (hkeyed : w.book.Keyed) (h : Returns (op.exec host env) w () w') :
    Relation.ReflTransGen (Register.Change Auction.New Auction.Edit) w.saleroom
      { w'.saleroom with terms := w.config } :=
  Register.changes_mono (op_auctionTurns hop hkeyed h) fun _ _ _ hedit => hedit.1

/-- What holds of new auctions and is kept by edits and bids holds of all auctions. -/
theorem op_forall_auction {I : Auction → Prop} (hkeyed : w.book.Keyed)
    (h : Returns (op.exec host env) w () w') (hnew : ∀ k a, Auction.New w.config k a → I a)
    (hedit : ∀ a a', a.Edit w.config a' → I a → I a') (hbid : ∀ a bidder amount, a.Admits bidder amount → I a →
      I (a.withBid bidder amount (bidExtension env a))) (hI : ∀ k a, w.auction k = some a → I a) :
    ∀ k a, w'.auction k = some a → I a := by
  by_cases hop : ∃ bidder k amount, op = .auction (.placeBid bidder k amount)
  · obtain ⟨bidder, k, amount, rfl⟩ := hop
    obtain ⟨a, ha, hadmits, hsaleroom, -⟩ := placeBid_saleroom hkeyed h
    intro j a' ha'
    have hget : w'.auction = update w.auction k _ := congrArg Register.get hsaleroom
    rw [hget, update_apply] at ha'
    split at ha'
    · cases ha'
      exact hbid a bidder amount hadmits (hI k a ha)
    · exact hI j a' ha'
  · simp only [not_exists] at hop
    exact Register.forall_get (op_saleroom hop hkeyed h) hnew hedit hI

/-- No call removes an auction: it is where edits and bids can have brought it. -/
theorem op_auction_kept {S : Auction → Auction → Prop} (hrefl : ∀ a, S a a)
    (htrans : ∀ a a' a'', S a a' → S a' a'' → S a a'')
    (hedit : ∀ config a a', a.Edit config a' → a.status = .active → S a a')
    (hkeyed : w.book.Keyed) (h : Returns (op.exec host env) w () w') (ha : w.auction k = some a) (hbid : ∀ bidder amount, op = .auction (.placeBid bidder k amount) → a.Admits bidder amount →
      S a (a.withBid bidder amount (bidExtension env a))) :
    ∃ a', w'.auction k = some a' ∧ S a a' := by
  by_cases hop : ∃ bidder j amount, op = .auction (.placeBid bidder j amount)
  · obtain ⟨bidder, j, amount, rfl⟩ := hop
    obtain ⟨b, hb, hadmits, hsaleroom, -⟩ := placeBid_saleroom hkeyed h
    have hget : w'.auction = update w.auction j _ := congrArg Register.get hsaleroom
    rw [hget]
    by_cases hkj : k = j
    · subst hkj
      obtain rfl : a = b := Option.mem_unique ha hb
      exact ⟨_, update_self .., hbid bidder amount rfl hadmits⟩
    · exact ⟨a, (update_of_ne hkj ..).trans ha, hrefl a⟩
  · simp only [not_exists] at hop
    exact Register.kept hrefl htrans (fun config a a' he => hedit config a a' he.1 he.2) hkeyed.saleroom
      (op_auctionTurns hop hkeyed h) ha

end ElcareHub.Marketplace
