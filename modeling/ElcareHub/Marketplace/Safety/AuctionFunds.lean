import ElcareHub.Marketplace.Safety.Purses

/-!
# Auction funds

While an auction is active the contract holds the bid that stands, and once it is closed it holds
nothing on its account. Every bid, exit and refund keeps that, except one: `refund_losing_bid` pays
out of the purse of a closed auction. Outbid bidders have been repaid when they were outbid, so that
nothing is left to pay them from but the funds of other auctions and offers.
-/

namespace ElcareHub.Marketplace

open Function

variable {b b' : Book} {k j : Nat} {t : Address} {a : Auction}

namespace Book

/-- What the contract should hold for auction `k` in token `t`. -/
def auctionDue (b : Book) (k : Nat) (t : Address) : Int :=
  match b.auction k with
  | some a => if a.status = .active ∧ a.token = t then a.standing else 0
  | none => 0

/-- The purse of auction `k` holds what it should. -/
def AuctionBacked (b : Book) (k : Nat) : Prop :=
  ∀ t, b.inPurse ⟨.auction k, t⟩ = b.auctionDue k t

/-- In an active auction bids are not negative, and without a bidder there is no bid. -/
def BidsSound (b : Book) : Prop :=
  ∀ k a, b.auction k = some a → a.status = .active →
    0 ≤ a.highestBid ∧ (a.highestBidder = none → a.highestBid = 0)

theorem auctionDue_of_setAuction
    (h : b'.auction = update b.auction j (some a)) :
    b'.auctionDue k t = if k = j then if a.status = .active ∧ a.token = t then a.standing else 0
      else b.auctionDue k t := by
  unfold auctionDue
  rw [h]
  by_cases hk : k = j <;> simp [hk]

theorem auctionDue_of_some (h : b.auction k = some a) :
    b.auctionDue k t = if a.status = .active ∧ a.token = t then a.standing else 0 := by
  simp [auctionDue, h]

/-- Moves on other purses and records. -/
theorem AuctionBacked.of_same (h : b.AuctionBacked k) (hauction : b'.auction = b.auction)
    (hpurse : ∀ t, b'.inPurse ⟨.auction k, t⟩ = b.inPurse ⟨.auction k, t⟩) : b'.AuctionBacked k := by
  intro t
  rw [hpurse, h t, auctionDue, auctionDue, hauction]

/-- An auction record is replaced and `paid - taken` leaves its purse, which is the difference between
what was due and what is due now. -/
theorem AuctionBacked.of_resave (h : b.AuctionBacked k) (paid taken : Int)
    (hauction : b.auction j = some a) (hb' : b'.auction = update b.auction j (some a'))
    (hactive : a.status = .active) (htoken : a'.token = a.token)
    (hpurse : ∀ t, b'.inPurse ⟨.auction k, t⟩ = b.inPurse ⟨.auction k, t⟩ -
      (if (⟨.auction k, t⟩ : Purse) = ⟨.auction j, a.token⟩ then paid else 0) +
      (if (⟨.auction k, t⟩ : Purse) = ⟨.auction j, a.token⟩ then taken else 0))
    (hdue : (if a'.status = .active then a'.standing else 0) = a.standing - paid + taken) :
    b'.AuctionBacked k := by
  intro t
  rw [hpurse, h t, auctionDue_of_setAuction hb']
  by_cases hk : k = j
  · subst hk
    rw [auctionDue_of_some hauction]
    by_cases ht : a.token = t
    · simp only [hactive, ht, htoken, and_true, if_true, ← hdue]
    · simp [ht, htoken, Ne.symm ht]
  · simp [hk]

end Book

/-- In a sound active auction the bid that stands is the highest bid. -/
theorem Book.BidsSound.standing_eq (h : b.BidsSound)
    (hauction : b.auction k = some a) (hactive : a.status = .active) : a.standing = a.highestBid := by
  cases hbidder : a.highestBidder with
  | none => rw [Auction.standing_of_none hbidder, (h k a hauction hactive).2 hbidder]
  | some bidder => exact Auction.standing_of_some hbidder

/-! ### Moves -/

/-- Leaving the auctions alone, or saving one of them with a sound bid. -/
theorem Book.BidsSound.of_save (h : b.BidsSound)
    (hb' : b'.auction = update b.auction k (some a)) (hsound : a.status = .active →
      0 ≤ a.highestBid ∧ (a.highestBidder = none → a.highestBid = 0)) : b'.BidsSound := by
  intro j a' hj
  rw [hb', Function.update_apply] at hj
  split at hj
  · cases hj
    exact hsound
  · exact h j a' hj

theorem Move.bidsSound (hm : Move kind b b') (h : b.BidsSound) : b'.BidsSound := by
  cases hm with
  | openAuction a _ _ hbid _ _ => exact h.of_save rfl fun _ => ⟨by omega, fun _ => hbid⟩
  | editAuction k a a' hauction _ hstatus hbid hbidder =>
    refine h.of_save rfl ?_
    rw [hstatus, hbid, hbidder]
    exact h k a hauction
  | bid k a a' _ _ _ _ hbidder hbid =>
    refine h.of_save rfl fun _ => ⟨hbid, fun hnone => ?_⟩
    rw [hnone] at hbidder
    cases hbidder
  | closeAuction k a a' _ _ _ hclosed => exact h.of_save rfl fun hactive => (hclosed hactive).elim
  | retire k l l' active b1 _ _ _ _ _ hpayment =>
    intro j a hj
    exact h j a (hpayment.custody_eq.2.1 ▸ hj)
  | _ => exact h

/-- Every move but a refund claimed from auction `k` keeps its purse in order. -/
theorem Move.auctionBacked (hm : Move kind b b')
    (hkind : kind ≠ .losingRefund k) (hkeyed : b.Keyed) (h : b.AuctionBacked k) :
    b'.AuctionBacked k := by
  cases hm with
  | openListing l active _ _ _ _ => exact h.of_same rfl fun _ => rfl
  | editListing j l l' _ _ _ => exact h.of_same rfl fun _ => rfl
  | retire j l l' active b1 _ _ _ _ _ hpayment =>
    refine h.of_same hpayment.custody_eq.2.1 fun t => ?_
    rw [Book.inPurse_closeListing, Book.inPurse_refundPending, Book.refund_auction, Int.sub_zero,
      hpayment.inPurse_auction]
  | abandon j l l' active _ _ _ _ _ _ => exact h.of_same rfl fun _ => rfl
  | openAuction a hid hactive _ hbidder _ =>
    intro t
    have hdue : (b.openAuction a).auctionDue k t = _ := Book.auctionDue_of_setAuction rfl
    change b.inPurse _ = _
    rw [h t, hdue, Auction.standing_of_none hbidder]
    by_cases hk : k = a.auctionId
    · have hnone : b.auction k = none := by
        cases ha : b.auction k with
        | none => rfl
        | some a' =>
          have := (hkeyed.auction ha).2
          omega
      simp [hk ▸ hnone, Book.auctionDue, hk]
    · simp [hk]
  | editAuction j a a' hauction hsame hstatus hbid hbidder =>
    intro t
    have hdue : (b.setAuction j a').auctionDue k t = _ := Book.auctionDue_of_setAuction rfl
    change b.inPurse _ = _
    rw [h t, hdue]
    by_cases hk : k = j
    · subst hk
      simp [Book.auctionDue_of_some hauction, hstatus, hsame.token, Auction.standing, hbid, hbidder]
    · simp [hk]
  | bid j a a' hauction hactive hsame hstatus hbidder _ =>
    refine h.of_resave a.standing a'.highestBid hauction rfl hactive hsame.token
      (fun t => ?_) ?_
    · rw [Book.inPurse_deposit, Book.inPurse_pay]
      rfl
    · simp [hstatus, Auction.standing, hbidder]
  | closeAuction j a a' hauction hactive hsame hclosed =>
    refine h.of_resave a.standing 0 hauction rfl hactive hsame.token
      (fun t => ?_) ?_
    · rw [Book.inPurse_setEscrow, Book.inPurse_pay, ite_self, Int.add_zero]
      rfl
    · simp [hclosed]
  | losingRefund j a x _ _ _ =>
    have hj : k ≠ j := fun heq => hkind (heq ▸ rfl)
    refine h.of_same rfl fun t => ?_
    rw [Book.inPurse_pay_other (by simp [hj])]
  | makeOffer o l _ _ _ _ _ =>
    refine h.of_same rfl fun t => ?_
    rfl
  | closeOffer i o status _ _ _ =>
    refine h.of_same rfl fun t => ?_
    rfl
  | counterOffer o l parent _ _ _ _ _ => exact h.of_same rfl fun _ => rfl
  | claimRoyalty settlementId isListing token x =>
    refine h.of_same rfl fun t => ?_
    rw [Book.inPurse_pay_other (by simp)]

/-! ### Runs -/

variable {C : Type} {host : Host C}

/-- The funds of auction `k` are conserved: no more is paid out than was deposited, the difference is
the highest bid while the auction is active, and nothing once it is closed. -/
structure World.AuctionConserved (w : World C) (k : Nat) : Prop where
  covered : ∀ t, w.paidOut ⟨.auction k, t⟩ ≤ w.deposited ⟨.auction k, t⟩
  active : ∀ a, w.auction k = some a → a.status = .active → ∀ t,
    w.deposited ⟨.auction k, t⟩ - w.paidOut ⟨.auction k, t⟩ = if t = a.token then a.highestBid else 0
  closed : ∀ a, w.auction k = some a → a.status ≠ .active → ∀ t,
    w.deposited ⟨.auction k, t⟩ - w.paidOut ⟨.auction k, t⟩ = 0

theorem World.AuctionConserved.of_backed {w : World C} (h : w.book.AuctionBacked k)
    (hsound : w.book.BidsSound) : w.AuctionConserved k where
  covered t := by
    have hpurse : w.deposited _ - w.paidOut _ = w.book.auctionDue k t := h t
    have hdue : 0 ≤ w.book.auctionDue k t := by
      unfold Book.auctionDue
      split
      · rename_i a ha
        split
        · rename_i hcond
          rw [hsound.standing_eq ha hcond.1]
          exact (hsound k a ha hcond.1).1
        · exact Int.le_refl 0
      · exact Int.le_refl 0
    omega
  active a ha hactive t := by
    refine (h t).trans ?_
    rw [Book.auctionDue_of_some ha, hsound.standing_eq ha hactive]
    simp [hactive, eq_comm]
  closed a ha hclosed t := by
    refine (h t).trans ?_
    rw [Book.auctionDue_of_some ha, if_neg fun hboth => hclosed hboth.1]

/-- The step is not a `refund_losing_bid` on auction `k` that passes its checks. -/
def NoLosingRefund (k : Nat) (w : World C) (s : Step C) : Prop :=
  ∀ env bidder, s = .call env (.auction (.refundLosingBid bidder k)) → env.auth bidder = true →
    ¬ LosingBidDue w bidder k

theorem NoLosingRefund.allows (h : NoLosingRefund k w s) : Allows host (· ≠ .losingRefund k) w s := by
  rintro kind hmakes rfl
  cases s with
  | call env op =>
    cases hmakes with
    | losingRefund bidder _ hauth hdue => exact h env bidder rfl hauth hdue
  | external collections balances => exact hmakes

/-- **Auction funds.** Along every run in which no bidder of auction `k` claims a refund after its
close, the funds of the auction are conserved. -/
theorem auction_funds_conserved (host : Host C) (balances : Address × Address → Int)
    (collections : C) (steps : List (Step C)) (k : Nat)
    (hrun : Run.Along (step host) (NoLosingRefund k) (.fresh balances collections) steps) :
    (run host (.fresh balances collections) steps).AuctionConserved k := by
  have hbacked := run_invariant
    (hrun.mono fun _ _ h => h.allows) (fun _ => rfl)
    fun kind b b' hkind hm hkeyed hb => hm.auctionBacked hkind hkeyed hb
  have hsound := (reachable_run host balances collections steps).invariant
    (fun _ _ ha => by cases ha) fun _ _ _ hm _ hb => hm.bidsSound hb
  exact .of_backed hbacked hsound

/-- Two auctions of one artist, and a bid on the second one. -/
def twoAuctions : List (Step Unit) :=
  [.call (.signedBy ⟨10⟩ 100)
      (.auction (.createAuction ⟨10⟩ ⟨50⟩ ⟨60⟩ 7 1000000 3600 [⟨⟨10⟩, 10000⟩])),
    .call (.signedBy ⟨10⟩ 100)
      (.auction (.createAuction ⟨10⟩ ⟨50⟩ ⟨60⟩ 8 1000000 3600 [⟨⟨10⟩, 10000⟩])),
    .call (.signedBy ⟨22⟩ 200) (.auction (.placeBid ⟨22⟩ 2 3000000)),
    .call (.signedBy ⟨20⟩ 200) (.auction (.placeBid ⟨20⟩ 1 1000000)),
    .call (.signedBy ⟨21⟩ 300) (.auction (.placeBid ⟨21⟩ 1 2000000))]

theorem auction_funds_conserved_twoAuctions :
    let w := run (.accepting ⟨0⟩ ⟨10⟩) (.fresh (fundedBidders ⟨0⟩) ()) twoAuctions
    w.AuctionConserved 1 ∧ w.deposited ⟨.auction 1, ⟨50⟩⟩ = 3000000 ∧
      w.paidOut ⟨.auction 1, ⟨50⟩⟩ = 1000000 := by
  refine ⟨auction_funds_conserved _ _ _ _ 1 ?_, by decide +kernel, by decide +kernel⟩
  simp [twoAuctions, NoLosingRefund]

/-- The first auction is won by its second bidder, and the first bidder, who was repaid when the
second one came in, claims the same bid again. It is paid from the bid on the other auction. -/
theorem losing_refund_pays_twice :
    let w := run (.accepting ⟨0⟩ ⟨10⟩) (.fresh (fundedBidders ⟨0⟩) ())
      (twoAuctions ++ [.call (.signedBy ⟨10⟩ 4000) (.auction (.finalizeAuction ⟨10⟩ 1)),
          .call (.signedBy ⟨20⟩ 4001) (.auction (.refundLosingBid ⟨20⟩ 1))])
    ¬ w.AuctionConserved 1 ∧ w.deposited ⟨.auction 1, ⟨50⟩⟩ = 3000000 ∧
      w.paidOut ⟨.auction 1, ⟨50⟩⟩ = 4000000 := by
  intro w
  have hdeposited : w.deposited ⟨.auction 1, ⟨50⟩⟩ = 3000000 := by decide +kernel
  have hpaidOut : w.paidOut ⟨.auction 1, ⟨50⟩⟩ = 4000000 := by decide +kernel
  refine ⟨fun h => ?_, hdeposited, hpaidOut⟩
  have := h.covered ⟨50⟩
  omega

end ElcareHub.Marketplace
