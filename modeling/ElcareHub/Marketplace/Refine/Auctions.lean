import ElcareHub.Marketplace.Refine.Listings

/-!
# Auction calls make moves

A bid pays back the bid it outbids and takes its own deposit. The exits pay the bid that stands
exactly once: to the recipients when the auction is won, to the bidder when an administrator cancels
it, and to nobody when there is none. What `refund_losing_bid` pays comes on top of that.
-/

namespace ElcareHub.Marketplace

open Call

set_option synthInstance.maxSize 100000000

variable {C : Type} {host : Host C} {env : Env} {w w' : World C} {u : Unit}
variable {k : Nat} {a : Auction} {bidder creator : Address}
variable {winner caller : Address}

/-! ### Shared parts -/

theorem returns_requireAuction :
    Returns (requireAuction k) w a w' ↔ w.auction k = some a ∧ w = w' := by
  simp only [returns_bind, returns_view, returns_orAbort]
  constructor
  · rintro ⟨_, _, ⟨rfl, rfl⟩, ha, rfl⟩
    exact ⟨ha, rfl⟩
  · rintro ⟨ha, rfl⟩
    exact ⟨_, _, ⟨rfl, rfl⟩, ha, rfl⟩

theorem returns_requireAuction_bind :
    Returns (requireAuction k >>= f) w b w' ↔ ∃ a, w.auction k = some a ∧ Returns (f a) w b w' :=
  returns_lookup fun _ _ => returns_requireAuction

theorem Auction.standing_of_some (h : a.highestBidder = some bidder) : a.standing = a.highestBid := by
  simp [Auction.standing, h]

theorem Auction.standing_of_none (h : a.highestBidder = none) : a.standing = 0 := by
  simp [Auction.standing, h]

/-! ### Creation and bids -/

theorem createAuction_move {id : Nat}
    (h : Returns (createAuction host env creator token collection tokenId reservePrice duration
      recipients) w id w') : Move .ordinary w.book w'.book := by
  obtain ⟨_, _, _, w3, e, h⟩ := h.skip₃ (f := World.book) rfl
  obtain ⟨config, w4, e, h⟩ := h.skip e
  obtain ⟨_, _, _, _, w8, e, h⟩ := h.skip₄ e
  obtain ⟨_, _, w10, e, h⟩ := h.skip₂ e
  obtain ⟨auctionId, w11, hcount, h⟩ := h.bind
  obtain ⟨hid, hw11⟩ := returns_counter hcount
  have e1 : w11.book = { w10.book with auctionCount := auctionId } := congrArg World.book hw11
  obtain ⟨endTime, w12, e2, h⟩ := h.skip e1
  obtain ⟨_, w13, e2, h⟩ := h.skip e2
  obtain ⟨w14, hsave, h⟩ := h.seq
  obtain ⟨_, _, w16, e4, h⟩ := h.skip₂ (saveAuction_book hsave rfl)
  obtain ⟨w17, hescrow, h⟩ := h.seq
  obtain ⟨hfree, e5⟩ := escrowNft_book hescrow
  obtain ⟨_, w18, e6, h⟩ := h.skip e5
  have hfinal := h.last e6
  replace hid := hid.trans (congrArg (·.auctionCount + 1) e)
  rw [e] at e2
  rw [e4, e2] at hfree hfinal
  rw [hfinal]
  subst hid
  exact .openAuction _ rfl rfl rfl rfl hfree

/-- The refund of the bidder who is outbid is the bid that stood. -/
theorem outbidRefund_book {event : Address → Event}
    (h : Returns (onSome a.highestBidder fun prev => do
      payTo host env (.auction k) a.token prev a.highestBid
      emit (event prev)) w u w') : w'.book = w.book.pay ⟨.auction k, a.token⟩ a.standing := by
  rcases returns_onSome.mp h with ⟨prev, hprev, h⟩ | ⟨hnone, rfl⟩
  · obtain ⟨w1, hpay, h⟩ := h.seq
    rw [h.last (payTo_book hpay).2.2, Auction.standing_of_some hprev]
  · rw [Auction.standing_of_none hnone, Book.pay_zero]

theorem placeBid_move (hkeyed : w.book.Keyed)
    (h : Returns (placeBid host env bidder k amount) w u w') : Move .ordinary w.book w'.book := by
  obtain ⟨_, _, w2, e, h⟩ := h.skip₂ (f := World.book) rfl
  obtain ⟨a, hauction, h⟩ := returns_requireAuction_bind.mp h
  have hauction' : w.book.auction k = some a := e ▸ hauction
  obtain ⟨_, w3, e, h⟩ := h.skip e
  obtain ⟨extension, w4, hcheck, h⟩ := h.bind
  have hactive : a.status = .active := by
    obtain ⟨w5, hstatus, -⟩ := hcheck.seq
    simpa using (hstatus.passed).1
  replace e := hcheck.last e
  obtain ⟨w5, hsave, h⟩ := h.seq
  have e1 := saveAuction_book hsave (hkeyed.auction hauction').1
  obtain ⟨_, _, _, w8, e4, h⟩ := h.skip₃ e1
  obtain ⟨w9, hrefund, h⟩ := h.seq
  have e5 := outbidRefund_book hrefund
  obtain ⟨hamount, -, e6⟩ := depositFrom_book h
  rw [e6, e5, e4, e]
  exact .bid k a _ hauction' hactive ⟨rfl, rfl, rfl, rfl⟩ hactive rfl hamount

/-! ### Exits -/

/-- The price of an auction that is won is the bid that stands. -/
theorem finalizeWon_book (hwinner : a.highestBidder = some winner)
    (h : Returns (finalizeWon host env a k winner) w u w') : w'.book =
        (w.book.pay ⟨.auction k, a.token⟩ a.standing).setEscrow (a.collection, a.tokenId) none ∧
      (a.deal k).Settled host env [] [] w w' := by
  obtain ⟨⟨fee, payouts⟩, w1, hpay, h⟩ := h.bind
  obtain ⟨w2, hrecord, hrelease⟩ := h.seq
  obtain ⟨legs, -, -, -, -, e1, -⟩ := distributePayoutTracked_spec (d := a.deal k) hpay
  refine ⟨?_, Deal.Settled.of_parts (a.deal k) (u := ()) [] (by simp) rfl hpay hrecord hrelease
    (returns_each_nil.mpr rfl)⟩
  rw [releaseNft_book hrelease, hrecord.last e1, Auction.standing_of_some hwinner]
  rfl

theorem finalizeOutcome_won (hkeyed : w.book.Keyed)
    (hauction : w.book.auction k = some a) (hwinner : a.highestBidder = some winner)
    (e : w1.desk = w.desk) (h : Returns (finalizeOutcome host env a k) w1 u w') :
    w'.book = ((w.book.setAuction k { a with status := .finalized }).pay ⟨.auction k, a.token⟩
        a.standing).setEscrow (a.collection, a.tokenId) none ∧
      (a.deal k).Settled host env [] [] w w' := by
  unfold finalizeOutcome at h
  split at h
  · obtain ⟨_, w2, e2, h⟩ := h.skip e
    obtain ⟨w3, hsave, h⟩ := h.seq
    obtain ⟨w4, hemit, h⟩ := h.seq
    obtain ⟨hbook, hsettled⟩ := finalizeWon_book ‹_› h
    have e3 := saveAuction_book hsave (hkeyed.auction hauction).1
    refine ⟨by rw [hbook, hemit.last e3, book_of_desk e2], hsettled.around ?_ rfl rfl⟩
    rw [Preserves.eq (f := World.till) hemit, Preserves.eq (f := World.till) hsave, till_of_desk e2]
  · simp_all

theorem finalizeOutcome_move (hkeyed : w.book.Keyed) (hauction : w.book.auction k = some a)
    (hactive : a.status = .active) (h : Returns (finalizeOutcome host env a k) w u w') :
    Move .ordinary w.book w'.book := by
  cases hbidder : a.highestBidder with
  | some winner =>
    rw [(finalizeOutcome_won hkeyed hauction hbidder rfl h).1]
    exact .closeAuction k a _ hauction hactive ⟨rfl, rfl, rfl, rfl⟩ (by simp)
  | none =>
    unfold finalizeOutcome at h
    split at h
    · simp_all
    · obtain ⟨w1, hsave, h⟩ := h.seq
      obtain ⟨_, _, w3, e3, h⟩ := h.skip₂ (saveAuction_book hsave (hkeyed.auction hauction).1)
      have hmove := Move.closeAuction k a { a with status := .cancelled } hauction hactive
        ⟨rfl, rfl, rfl, rfl⟩ (by simp)
      rw [Auction.standing_of_none hbidder, Book.pay_zero] at hmove
      rw [releaseNft_book h, e3]
      exact hmove

/-- `finalize_auction` closes an active auction. -/
theorem finalizeAuction_cases (h : Returns (finalizeAuction host env caller k) w u w') :
    ∃ a w1 w2, w1.desk = w.desk ∧ w.auction k = some a ∧ a.status = .active ∧
      w'.desk = w2.desk ∧ w'.events = w2.events ∧
      Returns (finalizeOutcome host env a k) w1 () w2 := by
  obtain ⟨_, _, w2, e, h⟩ := h.skip₂ (f := World.desk) rfl
  obtain ⟨a, hauction, h⟩ := returns_requireAuction_bind.mp h
  have hauction' : w.auction k = some a := by
    change w.desk.1.1.auction k = some a
    rw [← e]
    exact hauction
  obtain ⟨hactive, h⟩ := h.check
  obtain ⟨_, w4, e4, h⟩ := h.skip e
  obtain ⟨w5, hout, hlock⟩ := h.seq
  exact ⟨a, w4, w5, e4, hauction', by simpa using hactive, Preserves.eq hlock,
    Preserves.eq hlock, hout⟩

theorem finalizeAuction_move (hkeyed : w.book.Keyed)
    (h : Returns (finalizeAuction host env caller k) w u w') : Move .ordinary w.book w'.book := by
  obtain ⟨a, w1, w2, e, hauction, hactive, e', -, hout⟩ := finalizeAuction_cases h
  have e1 := book_of_desk e
  have hmove := finalizeOutcome_move (e1 ▸ hkeyed) (by rw [e1]; exact hauction) hactive hout
  rw [e1] at hmove
  rw [book_of_desk e']
  exact hmove

theorem cancelAuction_move (hkeyed : w.book.Keyed)
    (h : Returns (cancelAuction host env creator k) w u w') : Move .ordinary w.book w'.book := by
  obtain ⟨_, w1, e, h⟩ := h.skip (f := World.book) rfl
  obtain ⟨a, hauction, h⟩ := returns_requireAuction_bind.mp h
  have hauction' : w.book.auction k = some a := e ▸ hauction
  obtain ⟨_, w2, e2, h⟩ := h.skip e
  obtain ⟨hactive, h⟩ := h.check
  obtain ⟨hnobids, h⟩ := h.check
  obtain ⟨w3, hsave, h⟩ := h.seq
  have e3 := saveAuction_book hsave (hkeyed.auction hauction').1
  obtain ⟨_, w4, e4, h⟩ := h.skip e3
  have hmove := Move.closeAuction k a { a with status := .cancelled } hauction'
    (by simpa using hactive) ⟨rfl, rfl, rfl, rfl⟩ (by simp)
  rw [Auction.standing_of_none (by simpa using hnobids), Book.pay_zero] at hmove
  rw [releaseNft_book h, e4, e2]
  exact hmove

theorem adminRefundBidder_book (h : Returns (adminRefundBidder host env a k) w u w') :
    w'.book = w.book.pay ⟨.auction k, a.token⟩ a.standing := by
  rcases returns_onSome.mp h with ⟨bidder, hbidder, h⟩ | ⟨hnone, rfl⟩
  · obtain ⟨_, w1, e, h⟩ := h.skip (f := World.book) rfl
    obtain ⟨w2, hpay, h⟩ := h.seq
    rw [h.last (payTo_book hpay).2.2, e, Auction.standing_of_some hbidder]
  · rw [Auction.standing_of_none hnone, Book.pay_zero]

theorem adminCancelAuction_move (hkeyed : w.book.Keyed)
    (h : Returns (adminCancelAuction host env admin k) w u w') : Move .ordinary w.book w'.book := by
  obtain ⟨_, _, w2, e, h⟩ := h.skip₂ (f := World.book) rfl
  obtain ⟨a, hauction, h⟩ := returns_requireAuction_bind.mp h
  have hauction' : w.book.auction k = some a := e ▸ hauction
  obtain ⟨hactive, h⟩ := h.check
  obtain ⟨w3, hrefund, h⟩ := h.seq
  have e3 := adminRefundBidder_book hrefund
  obtain ⟨w4, hsave, h⟩ := h.seq
  have e4 := saveAuction_book hsave (hkeyed.auction hauction').1
  obtain ⟨_, _, w6, e6, h⟩ := h.skip₂ e4
  obtain ⟨w7, hrelease, h⟩ := h.seq
  rw [h.last (releaseNft_book hrelease), e6, e3, e]
  exact .closeAuction k a { a with status := .cancelled } hauction' (by simpa using hactive)
    ⟨rfl, rfl, rfl, rfl⟩ (by simp)

theorem updateAuctionReservePrice_move (hkeyed : w.book.Keyed)
    (h : Returns (updateAuctionReservePrice env creator k newPrice) w u w') :
    Move .ordinary w.book w'.book := by
  obtain ⟨_, _, w2, e, h⟩ := h.skip₂ (f := World.book) rfl
  obtain ⟨a, hauction, h⟩ := returns_requireAuction_bind.mp h
  have hauction' : w.book.auction k = some a := e ▸ hauction
  obtain ⟨_, _, _, _, w6, e3, h⟩ := h.skip₄ e
  obtain ⟨_, _, w8, e3, h⟩ := h.skip₂ e3
  obtain ⟨w9, hsave, h⟩ := h.seq
  have e9 := saveAuction_book hsave (hkeyed.auction hauction').1
  rw [h.last e9, e3]
  exact .editAuction k a _ hauction' ⟨rfl, rfl, rfl, rfl⟩ rfl rfl rfl

/-! ### Claims after the close -/

/-- The checks of `refund_losing_bid`: the auction is closed, the caller did not win it, has not been
marked as refunded, and has a bid in the history. -/
def LosingBidDue (w : World C) (bidder : Address) (k : Nat) : Prop :=
  ∃ a, w.auction k = some a ∧ a.status ≠ .active ∧
    ¬ (a.status = .finalized ∧ a.highestBidder = some bidder) ∧
    w.bidRefundRecord (k, bidder) = false ∧ 0 < latestBid (w.auctionBids k) bidder

theorem refundLosingBid_move (h : Returns (refundLosingBid host env bidder k) w u w') :
    env.auth bidder = true ∧ LosingBidDue w bidder k ∧ Move (.losingRefund k) w.book w'.book := by
  obtain ⟨hauth, h⟩ := h.check
  obtain ⟨a, hauction, h⟩ := returns_requireAuction_bind.mp h
  obtain ⟨hclosed, h⟩ := h.check
  obtain ⟨hlost, h⟩ := h.check
  obtain ⟨hunpaid, h⟩ := h.check
  replace h := h.view
  obtain ⟨hpositive, h⟩ := h.check
  obtain ⟨_, w1, e, h⟩ := h.skip (f := World.book) rfl
  obtain ⟨w2, hpay, h⟩ := h.seq
  refine ⟨by simpa using hauth, ⟨a, hauction, hclosed, hlost, by simpa using hunpaid, by omega⟩, ?_⟩
  rw [h.last (payTo_book hpay).2.2, e]
  exact .losingRefund k a _ hauction hclosed (by omega)

/-- Auction calls other than `refund_losing_bid` make ordinary moves. -/
theorem auctionOp_moves {op : AuctionOp} (hop : ∀ bidder k, op ≠ .refundLosingBid bidder k)
    (hkeyed : w.book.Keyed) (h : Returns (op.exec host env) w u w') :
    Moves OnlyOrdinary w.book w'.book := by
  cases op with
  | createAuction creator token collection tokenId reservePrice duration recipients =>
    obtain ⟨id, h⟩ := h.discard
    exact .ordinary (createAuction_move h)
  | blockBidder caller k bidder =>
    unfold AuctionOp.exec blockBidder loadBlockedBidders at h
    exact .of_eq (Preserves.eq h)
  | unblockBidder caller k bidder =>
    unfold AuctionOp.exec unblockBidder loadBlockedBidders at h
    exact .of_eq (Preserves.eq h)
  | placeBid bidder k amount => exact .ordinary (placeBid_move hkeyed h)
  | finalizeAuction caller k => exact .ordinary (finalizeAuction_move hkeyed h)
  | refundLosingBid bidder k => exact (hop bidder k rfl).elim
  | cancelAuction creator k => exact .ordinary (cancelAuction_move hkeyed h)
  | adminCancelAuction admin k => exact .ordinary (adminCancelAuction_move hkeyed h)
  | updateAuctionReservePrice creator k newPrice =>
    exact .ordinary (updateAuctionReservePrice_move hkeyed h)

end ElcareHub.Marketplace
