import ElcareHub.Marketplace.Refine.Deals
import ElcareHub.Marketplace.Safety.AuctionFunds
import ElcareHub.Marketplace.Safety.OfferFunds

/-!
# Settlements are exact

A sale pays out exactly its price in legs that are not negative, whatever the collection answers to
`royalty_info`. Whether it spends only what was deposited for it depends on the offers it closes: an
offer made by `make_offer` is paid from its deposit, while a counter-offer that is accepted with
`accept_offer`, or closed as a sibling, is paid from the deposits of others.
-/

namespace ElcareHub.Marketplace

open Call Function

variable {b b1 b' : Book} {ids : List Nat} {k i : Nat} {t : Address} {kind : Kind} {o : Offer}

/-! ### Purses of direct sales and of active auctions -/

namespace Book

/-- What a buyer pays in `buy_artwork` is paid out at once. -/
def SalesBalanced (b : Book) : Prop := ∀ k t, b.inPurse ⟨.sale k, t⟩ = 0

/-- The purse of auction `k` is in order unless the auction is closed. -/
def ActiveBacked (b : Book) (k : Nat) : Prop :=
  (∀ a, b.auction k = some a → a.status = .active) → b.AuctionBacked k

theorem refund_sale : b.refund ids ⟨.sale k, t⟩ = 0 := rfl

end Book

theorem Payment.inPurse_sale (h : Payment k b b1) :
    b1.inPurse ⟨.sale j, t⟩ = b.inPurse ⟨.sale j, t⟩ := by
  cases h with
  | nothing => rfl
  | sale token price =>
    rw [Book.inPurse_pay, Book.inPurse_deposit]
    omega
  | offer i o _ _ _ =>
    rfl
  | counter i o _ _ _ _ =>
    rfl

theorem Move.salesBalanced (hm : Move kind b b') (h : b.SalesBalanced) : b'.SalesBalanced := by
  intro j t
  rw [← h j t]
  cases hm with
  | retire k l l' active b1 _ _ _ _ _ hpayment =>
    rw [Book.inPurse_closeListing, Book.inPurse_refundPending, Book.refund_sale, Int.sub_zero,
      hpayment.inPurse_sale]
  | bid k a a' _ _ _ _ _ _ =>
    rfl
  | closeAuction k a a' _ _ _ _ =>
    rfl
  | losingRefund k a x _ _ _ => rw [Book.inPurse_pay_other (by simp)]
  | makeOffer o l _ _ _ _ _ =>
    rfl
  | closeOffer i o status _ _ _ =>
    rfl
  | claimRoyalty settlementId isListing token x =>
    rw [Book.inPurse_pay_other (by simp)]
  | _ => rfl

/-- A closed auction stays closed. -/
theorem Move.auction_closed (hm : Move kind b b') (hkeyed : b.Keyed)
    (ha : b.auction k = some a) (hclosed : a.status ≠ .active) :
    ∃ a', b'.auction k = some a' ∧ a'.status ≠ .active := by
  -- saving another auction, or a closed one
  have hsave {j : Nat} {a' : Auction} (hself : j = k → a'.status ≠ .active) :
      ∃ a'', Function.update b.auction j (some a') k = some a'' ∧ a''.status ≠ .active := by
    by_cases hk : k = j
    · exact ⟨a', by rw [hk, update_self], hself hk.symm⟩
    · exact ⟨a, by rw [update_of_ne hk, ha], hclosed⟩
  -- an active auction is another one
  have hother {j : Nat} {a' : Auction} (ha' : b.auction j = some a') (hactive : a'.status = .active)
      (hj : j = k) : False := by
    subst hj
    obtain rfl : a = a' := Option.mem_unique ha ha'
    exact hclosed hactive
  cases hm with
  | openAuction a' hid _ _ _ _ =>
    refine hsave fun hk => ?_
    have := (hkeyed.auction ha).2
    omega
  | editAuction j a' a'' ha' _ hstatus _ _ =>
    refine hsave fun hk => ?_
    rw [hstatus]
    exact fun hactive => hother ha' hactive hk
  | bid j a' a'' ha' hactive _ _ _ _ => exact hsave fun hk => (hother ha' hactive hk).elim
  | closeAuction j a' a'' _ _ _ hclosed' => exact hsave fun _ => hclosed'
  | retire j l l' active b1 _ _ _ _ _ hpayment =>
    refine ⟨a, ?_, hclosed⟩
    change b1.auction k = some a
    rw [hpayment.custody_eq.2.1, ha]
  | _ => exact ⟨a, ha, hclosed⟩

/-- Every move keeps the purses of active auctions in order: a refund after the close, which is the
one that does not, finds the auction closed. -/
theorem Move.activeBacked (hm : Move kind b b') (hkeyed : b.Keyed) (h : b.ActiveBacked k) :
    b'.ActiveBacked k := by
  intro hopen
  have hopen0 : ∀ a, b.auction k = some a → a.status = .active := by
    intro a ha
    by_contra hclosed
    obtain ⟨a', ha', hclosed'⟩ := hm.auction_closed hkeyed ha hclosed
    exact hclosed' (hopen a' ha')
  refine hm.auctionBacked ?_ hkeyed (h hopen0)
  rintro rfl
  cases hm with
  | losingRefund _ a x ha hclosed _ => exact hclosed (hopen0 a ha)

/-! ### Covered payments -/

/-- From `b` to `b'` nothing was paid out of a purse whose own deposits do not cover it. -/
def Covered (b b' : Book) : Prop :=
  ∀ q, b'.paidOut q = b.paidOut q ∨ b'.paidOut q ≤ b'.deposited q

/-- From `b` to `b'` the pending offers `closes` are paid out of their purses, and what else is paid
is covered. -/
structure Closes (closes : List Nat) (b b' : Book) : Prop where
  paid : ∀ i ∈ closes, ∃ o, b.offer i = some o ∧ o.status = .pending ∧ ∀ t,
    b'.deposited ⟨.offer i, t⟩ = b.deposited ⟨.offer i, t⟩ ∧
      b'.paidOut ⟨.offer i, t⟩ = b.paidOut ⟨.offer i, t⟩ + if t = o.token then o.amount else 0
  others : ∀ q, (∀ i ∈ closes, q.account ≠ .offer i) →
    b'.paidOut q = b.paidOut q ∨ b'.paidOut q ≤ b'.deposited q

/-- What the contract holds for a pending offer. -/
theorem Book.OfferBooked.pending (h : b.OfferBooked i) (ho : b.offer i = some o)
    (hpending : o.status = .pending) (t : Address) :
    b.inPurse ⟨.offer i, t⟩ = if t = o.token ∧ b.counterParent i = none then o.amount else 0 := by
  rw [h (.inr fun o' ho' => by rw [← Option.mem_unique ho ho']; exact hpending),
    Book.offerFunds_of_some ho]
  simp [hpending, eq_comm]

/-- Closing pending offers is covered exactly when none of them is a counter-offer. -/
theorem Closes.covered_iff (h : Closes closes b b')
    (hbooked : ∀ i, b.OfferBooked i) (hpositive : b.OffersPositive) :
    Covered b b' ↔ ∀ i ∈ closes, b.counterParent i = none := by
  constructor
  · intro hcovered i hi
    obtain ⟨o, ho, hpending, hpaid⟩ := h.paid i hi
    obtain ⟨hdeposited, hpaidOut⟩ := hpaid o.token
    have hpurse := (hbooked i).pending ho hpending o.token
    have hamount := hpositive i o ho
    rw [if_pos rfl] at hpaidOut
    by_contra hcounter
    rw [if_neg fun hboth => hcounter hboth.2] at hpurse
    unfold Book.inPurse at hpurse
    have := hcovered ⟨.offer i, o.token⟩
    omega
  · intro hnone q
    by_cases hq : ∃ i ∈ closes, q.account = .offer i
    · obtain ⟨i, hi, haccount⟩ := hq
      obtain ⟨account, t⟩ := q
      cases haccount
      obtain ⟨o, ho, hpending, hpaid⟩ := h.paid i hi
      obtain ⟨hdeposited, hpaidOut⟩ := hpaid t
      have hpurse := (hbooked i).pending ho hpending t
      unfold Book.inPurse at hpurse
      by_cases ht : t = o.token
      · rw [if_pos ht] at hpaidOut
        rw [if_pos ⟨ht, hnone i hi⟩] at hpurse
        exact .inr (by omega)
      · rw [if_neg ht] at hpaidOut
        exact .inl (by omega)
    · exact h.others q fun i hi haccount => hq ⟨i, hi, haccount⟩

/-! ### Exits -/

theorem Book.refund_offer (ho : b.offer i = some o) :
    b.refund ids ⟨.offer i, t⟩ =
      if i ∈ ids ∧ o.status = .pending ∧ o.token = t then o.amount else 0 := by
  simp [Book.refund, ho]

theorem Book.refund_not_mem (hi : i ∉ ids) : b.refund ids ⟨.offer i, t⟩ = 0 := by
  cases ho : b.offer i with
  | none => simp [Book.refund, ho]
  | some o => simp [Book.refund_offer ho, hi]

/-- The purses after the exit of a listing. -/
theorem Exits.purses (h : Exits k b b1 b') : b'.deposited = b1.deposited ∧
      ∀ q, b'.paidOut q = b1.paidOut q + b1.refund (b1.pendingOffers k) q := by
  obtain ⟨l, l', active, -, -, -, -, -, rfl⟩ := h
  exact ⟨rfl, fun _ => rfl⟩

/-- A direct sale closes the pending offers of its listing. -/
theorem Exits.closes_sale (h : Exits k b ((b.deposit ⟨.sale k, token⟩ x).pay ⟨.sale k, token⟩ x) b')
    (hexact : b.PendingExact) (hsales : b.SalesBalanced) : Closes (b.pendingOffers k) b b' := by
  obtain ⟨hdeposited, hpaidOut⟩ := h.purses
  have hdeposited' : ∀ q, b'.deposited q =
      b.deposited q + if q = ⟨.sale k, token⟩ then x else 0 := by
    intro q
    rw [hdeposited]
    exact Book.deposited_deposit
  have hpaidOut' : ∀ q, b'.paidOut q =
      b.paidOut q + (if q = ⟨.sale k, token⟩ then x else 0) + b.refund (b.pendingOffers k) q := by
    intro q
    rw [hpaidOut, Book.paidOut_pay]
    rfl
  refine ⟨fun i hi => ?_, fun q hq => ?_⟩
  · obtain ⟨o, ho, -, hpending⟩ := (hexact.exact k i).mp hi
    refine ⟨o, ho, hpending, fun t => ?_⟩
    rw [hdeposited', hpaidOut', if_neg (by simp), Book.refund_offer ho]
    simp [hi, hpending, eq_comm]
  · obtain ⟨account, t⟩ := q
    cases account with
    | offer i =>
      have hi : i ∉ b.pendingOffers k := fun hi => hq i hi rfl
      left
      rw [hpaidOut', if_neg (by simp), Book.refund_not_mem hi, Int.add_zero, Int.add_zero]
    | sale j =>
      -- what comes in on account of the sale goes out on account of it
      right
      have hbalanced := hsales j t
      unfold Book.inPurse at hbalanced
      rw [hdeposited', hpaidOut', Book.refund_sale]
      omega
    | auction j =>
      left
      rw [hpaidOut', if_neg (by simp), Book.refund_auction, Int.add_zero, Int.add_zero]
    | royaltyClaim j isListing =>
      left
      rw [hpaidOut', if_neg (by simp), Int.add_zero]
      exact Int.add_zero _

/-- Among the open offers of a listing, the one that is accepted is not refunded, and the others
are. -/
theorem refund_of_accepted
    (hb1 : b1.offer = Function.update b.offer i (some { o with status := .accepted })) :
    b1.refund ids ⟨.offer j, t⟩ = if j = i then 0 else b.refund ids ⟨.offer j, t⟩ := by
  unfold Book.refund
  by_cases hj : j = i <;> simp [hb1, hj]

/-- What the offers have paid out once offer `i` is accepted. -/
theorem Exits.paidOut_offer (h : Exits o.listingId b (b1.pay ⟨.offer i, o.token⟩ o.amount) b')
    (hoffer : b1.offer = Function.update b.offer i (some { o with status := .accepted }))
    (hpaid : b1.paidOut = b.paidOut) (hpending : b1.pendingOffers = b.pendingOffers) (j : Nat)
    (t : Address) : b'.paidOut ⟨.offer j, t⟩ =
      b.paidOut ⟨.offer j, t⟩ + (if j = i ∧ t = o.token then o.amount else 0) +
        if j = i then 0 else b.refund (b.pendingOffers o.listingId) ⟨.offer j, t⟩ := by
  rw [h.purses.2, Book.paidOut_pay, refund_of_accepted (by exact hoffer), ← hpaid, ← hpending]
  simp only [Purse.mk.injEq, Account.offer.injEq]
  rfl

/-- Accepting an offer closes it together with the other pending offers of its listing. -/
theorem Exits.closes_offer (h : Exits o.listingId b
      ((b.setOffer i { o with status := .accepted }).pay ⟨.offer i, o.token⟩ o.amount) b')
    (ho : b.offer i = some o) (hpending : o.status = .pending) (hexact : b.PendingExact) :
    Closes (b.pendingOffers o.listingId) b b' := by
  obtain ⟨hdeposited, hpaidOut⟩ := h.purses
  have hmem : i ∈ b.pendingOffers o.listingId := (hexact.exact _ i).mpr ⟨o, ho, rfl, hpending⟩
  have hoffers := h.paidOut_offer rfl rfl rfl
  refine ⟨fun j hj => ?_, fun q hq => ?_⟩
  · obtain ⟨o', ho', -, hpending'⟩ := (hexact.exact _ j).mp hj
    refine ⟨o', ho', hpending', fun t => ⟨congrFun hdeposited _, ?_⟩⟩
    rw [hoffers]
    by_cases hji : j = i
    · subst hji
      obtain rfl : o = o' := Option.mem_unique ho ho'
      simp
    · rw [Book.refund_offer ho']
      simp [hji, hj, hpending', eq_comm]
  · left
    obtain ⟨account, t⟩ := q
    cases account with
    | offer j =>
      have hj : j ∉ b.pendingOffers o.listingId := fun hj => hq j hj rfl
      have hji : j ≠ i := fun heq => hj (heq ▸ hmem)
      rw [hoffers, Book.refund_not_mem hj]
      simp [hji]
    | _ =>
      rw [hpaidOut, Book.paidOut_pay, if_neg (by simp), Int.add_zero]
      exact Int.add_zero _

/-- Accepting a counter-offer closes the other pending offers of its listing; for the counter-offer
itself the buyer pays. -/
theorem Exits.closes_counter (h : Exits o.listingId b
      (((b.setOffer i { o with status := .accepted }).deposit ⟨.offer i, o.token⟩ o.amount).pay
        ⟨.offer i, o.token⟩ o.amount) b') (ho : b.offer i = some o) (hpending : o.status = .pending)
    (hexact : b.PendingExact) (hbooked : b.OfferBooked i) (hpositive : b.OffersPositive) :
    Closes ((b.pendingOffers o.listingId).erase i) b b' := by
  obtain ⟨hdeposited, hpaidOut⟩ := h.purses
  have hdeposits : ∀ j t, b'.deposited ⟨.offer j, t⟩ =
      b.deposited ⟨.offer j, t⟩ + if j = i ∧ t = o.token then o.amount else 0 := by
    intro j t
    rw [hdeposited]
    change ((b.setOffer i _).deposit _ _).deposited _ = _
    rw [Book.deposited_deposit]
    simp only [Purse.mk.injEq, Account.offer.injEq]
    rfl
  have hoffers := h.paidOut_offer rfl rfl rfl
  refine ⟨fun j hj => ?_, fun q hq => ?_⟩
  · have hji : j ≠ i := fun heq => (hexact.nodup _).not_mem_erase (heq ▸ hj)
    have hj' := List.mem_of_mem_erase hj
    obtain ⟨o', ho', -, hpending'⟩ := (hexact.exact _ j).mp hj'
    refine ⟨o', ho', hpending', fun t => ?_⟩
    rw [hdeposits, hoffers, Book.refund_offer ho']
    simp [hji, hj', hpending', eq_comm]
  · obtain ⟨account, t⟩ := q
    cases account with
    | offer j =>
      by_cases hji : j = i
      · -- the purse of the counter-offer takes the price and pays it out
        subst hji
        right
        have hpurse := hbooked.pending ho hpending t
        have hamount := hpositive j o ho
        unfold Book.inPurse at hpurse
        rw [hdeposits, hoffers]
        split at hpurse <;> omega
      · left
        have hj : j ∉ b.pendingOffers o.listingId := fun hj =>
          hq j ((List.mem_erase_of_ne hji).mpr hj) rfl
        rw [hoffers, Book.refund_not_mem hj]
        simp [hji]
    | _ =>
      left
      rw [hpaidOut, Book.paidOut_pay, if_neg (by simp), Int.add_zero]
      exact Int.add_zero _

/-- Finalising an auction pays out what its purse holds. -/
theorem closes_auction (hdeposited : b'.deposited = b.deposited)
    (hpaidOut : ∀ q, b'.paidOut q =
      b.paidOut q + if q = ⟨.auction k, a.token⟩ then a.standing else 0) (ha : b.auction k = some a)
    (hactive : a.status = .active) (hbacked : b.ActiveBacked k) : Closes [] b b' := by
  refine ⟨fun i hi => (List.not_mem_nil hi).elim, fun q _ => ?_⟩
  by_cases hq : q = ⟨.auction k, a.token⟩
  · right
    have hpurse := hbacked (fun a' ha' => by rwa [← Option.mem_unique ha ha']) a.token
    rw [Book.auctionDue_of_some ha, if_pos ⟨hactive, rfl⟩] at hpurse
    unfold Book.inPurse at hpurse
    rw [hpaidOut, if_pos hq, hq, congrFun hdeposited]
    omega
  · left
    rw [hpaidOut, if_neg hq, Int.add_zero]

variable {C : Type} {host : Host C} {env : Env} {w w' : World C}

theorem Reachable.salesBalanced (hreach : Reachable host w) : w.book.SalesBalanced :=
  hreach.invariant (fun _ _ => rfl) fun _ _ _ hm _ hb => hm.salesBalanced hb

theorem Reachable.activeBacked (hreach : Reachable host w) (k : Nat) : w.book.ActiveBacked k :=
  hreach.invariant (I := (·.ActiveBacked k)) (fun _ _ => rfl)
    fun _ _ _ hm hkeyed hb => hm.activeBacked hkeyed hb

/-! ### The settling calls -/

/-- What a settlement is about: the purse it is paid from, the price, what the buyer pays in during
the call, what it is recorded under, and the offers it closes against the deposits made for them. -/
structure Sale where
  account : Account
  token : Address
  amount : Int
  deposit : List Transfer
  listingId : Option Nat
  auctionId : Option Nat
  closes : List Nat

/-- A call from `w` to `w'` has settled a sale. -/
inductive Settles (host : Host C) (env : Env) (w w' : World C) : Sale → Prop
  | buyArtwork (buyer : Address) (k : Nat) (l : Listing) (hlisting : w.listing k = some l)
      (h : Returns (Marketplace.buyArtwork host env buyer k) w true w') :
      Settles host env w w' ⟨.sale k, l.token, l.price,
        [⟨.deposit, .sale k, l.token, buyer, l.price⟩], some k, none, w.listingPendingOffers k⟩
  | acceptOffer (artist : Address) (i : Nat) (o : Offer) (hoffer : w.offer i = some o)
      (h : Returns (Marketplace.acceptOffer host env artist i) w () w') :
      Settles host env w w' ⟨.offer i, o.token, o.amount, [], some o.listingId, none,
        w.listingPendingOffers o.listingId⟩
  | acceptCounterOffer (buyer : Address) (i : Nat) (o : Offer) (hoffer : w.offer i = some o)
      (h : Returns (Marketplace.acceptCounterOffer host env buyer i) w () w') :
      Settles host env w w' ⟨.offer i, o.token, o.amount,
        [⟨.deposit, .offer i, o.token, buyer, o.amount⟩], some o.listingId, none,
        (w.listingPendingOffers o.listingId).erase i⟩
  | finalizeAuction (caller : Address) (k : Nat) (a : Auction) (winner : Address)
      (hauction : w.auction k = some a) (hwinner : a.highestBidder = some winner)
      (h : Returns (Marketplace.finalizeAuction host env caller k) w () w') :
      Settles host env w w' ⟨.auction k, a.token, a.highestBid, [], none, some k, []⟩

/-- The settlement is exact: its legs are not negative and add up to the price, the payouts it reports
add up to the price less the fee (`PaysExactly`), and nothing is paid out of a purse whose own
deposits do not cover it. -/
structure SettlesExactly (env : Env) (w w' : World C) (s : Sale) : Prop where
  pays : ∃ refunds, (∀ t ∈ refunds, t.direction = .payout ∧ t.account ≠ s.account) ∧
    PaysExactly env s.account s.token s.amount s.listingId s.auctionId s.deposit refunds w w'
  covered : ∀ q, w'.paidOut q = w.paidOut q ∨ w'.paidOut q ≤ w'.deposited q

/-- A settlement pays exactly its price, and closes the offers it names. -/
theorem Settles.spec (hreach : Reachable host w) (h : Settles host env w w' s) :
    (∃ refunds, (∀ t ∈ refunds, t.direction = .payout ∧ t.account ≠ s.account) ∧
      PaysExactly env s.account s.token s.amount s.listingId s.auctionId s.deposit refunds w w') ∧
      Closes s.closes w.book w'.book := by
  have hkeyed := hreach.keyed
  cases h with
  | buyArtwork buyer k l hlisting h =>
    obtain ⟨l', w1, w2, e, hlisting', hactive, e', hevents, hcases⟩ := buyArtwork_cases h
    obtain rfl : l = l' := Option.mem_unique hlisting hlisting'
    obtain ⟨⟨⟩, -⟩ | ⟨-, -, hsettle⟩ := hcases
    have e1 := book_of_desk e
    obtain ⟨hexits, os, hsettled⟩ := buySettle_exits (e1 ▸ hkeyed) (by rw [e1]; exact hlisting) hactive
      hsettle
    rw [e1, ← book_of_desk e'] at hexits
    exact ⟨⟨_, refundTransfers_account (by simp),
      (hsettled.around (till_of_desk e) (till_of_desk e') hevents).paysExactly⟩,
      hexits.closes_sale hreach.pendingExact hreach.salesBalanced⟩
  | acceptOffer artist i o hoffer h =>
    obtain ⟨o', l, w1, w2, e, hoffer', hpending, hlisting, hactive, hartist, e', hevents, hsettle⟩ :=
      acceptOffer_cases h
    obtain rfl : o = o' := Option.mem_unique hoffer hoffer'
    have e1 := book_of_desk e
    obtain ⟨hexits, os, hos, hsettled⟩ := acceptSettle_exits (e1 ▸ hkeyed) (by rw [e1]; exact hoffer)
      (by rw [e1]; exact hlisting) hactive hartist hsettle
    rw [e1, ← book_of_desk e'] at hexits
    exact ⟨⟨_, refundTransfers_account (by simpa using hos),
      (hsettled.around (till_of_desk e) (till_of_desk e') hevents).paysExactly⟩,
      hexits.closes_offer hoffer hpending hreach.pendingExact⟩
  | acceptCounterOffer buyer i o hoffer h =>
    obtain ⟨o', l, w1, w2, e, hoffer', hpending, -, hlisting, hactive, e', hevents, hsettle⟩ :=
      acceptCounterOffer_cases h
    obtain rfl : o = o' := Option.mem_unique hoffer hoffer'
    have e1 := book_of_desk e
    obtain ⟨hexits, os, hos, hsettled⟩ := acceptCounterSettle_exits (e1 ▸ hkeyed)
      (by rw [e1]; exact hoffer) (by rw [e1]; exact hlisting) hactive hsettle
    rw [e1, ← book_of_desk e'] at hexits
    exact ⟨⟨_, refundTransfers_account (by simpa using hos),
      (hsettled.around (till_of_desk e) (till_of_desk e') hevents).paysExactly⟩,
      hexits.closes_counter hoffer hpending hreach.pendingExact (hreach.offerBooked i)
        hreach.offersPositive⟩
  | finalizeAuction caller k a winner hauction hwinner h =>
    obtain ⟨a', w1, w2, e, hauction', hactive, e', hevents, hout⟩ := finalizeAuction_cases h
    obtain rfl : a = a' := Option.mem_unique hauction hauction'
    obtain ⟨hbook, hsettled⟩ := finalizeOutcome_won hkeyed hauction hwinner e hout
    rw [← book_of_desk e'] at hbook
    refine ⟨⟨[], by simp, (hsettled.around rfl (till_of_desk e') hevents).paysExactly⟩,
      closes_auction ?_ ?_ hauction hactive (hreach.activeBacked k)⟩
    · rw [hbook]
      rfl
    · intro q
      rw [hbook]
      exact Book.paidOut_pay

/-- **Exact settlement.** In every reachable state, a settlement pays out exactly its price in legs that
are not negative, and reports payouts that add up to the price less the fee. It spends nothing that
was deposited for others exactly when none of the offers it closes is a counter-offer, other than the
one the buyer pays for. -/
theorem settlement_exact_iff (host : Host C) (env : Env) (w w' : World C) (s : Sale)
    (hreach : Reachable host w) (h : Settles host env w w' s) :
    SettlesExactly env w w' s ↔ ∀ i ∈ s.closes, w.counterOfferParent i = none := by
  obtain ⟨hpays, hcloses⟩ := h.spec hreach
  have hcovered := hcloses.covered_iff hreach.offerBooked hreach.offersPositive
  exact ⟨fun hexact => hcovered.mp hexact.covered, fun hnone => ⟨hpays, hcovered.mpr hnone⟩⟩

/-- The offer on the first listing is accepted. -/
theorem settlement_exact_iff_offer_accepted :
    let host := Host.accepting ⟨0⟩ ⟨10⟩
    let w := run host (.fresh (fundedBidders ⟨0⟩) ()) twoOffers
    ∃ w' s, Settles host (.signedBy ⟨10⟩ 300) w w' s ∧
      SettlesExactly (.signedBy ⟨10⟩ 300) w w' s ∧ s.amount = 700000 ∧ s.closes = [2] := by
  intro host w
  have hreach : Reachable host w := reachable_run ..
  have hterms : (w.offer 2).map (fun o => (o.amount, o.listingId)) = some (700000, 1) := by
    decide +kernel
  have hpending : w.listingPendingOffers 1 = [2] := by decide +kernel
  have hparent : w.counterOfferParent 2 = none := by decide +kernel
  obtain ⟨⟨⟩, w', h, -⟩ := exists_returns (c := acceptOffer host (.signedBy ⟨10⟩ 300) ⟨10⟩ 2)
    (s := w) (p := fun _ _ => true) (by decide +kernel)
  clear_value w
  obtain ⟨o, ho, hterms⟩ := Option.map_eq_some_iff.mp hterms
  obtain ⟨hamount, hlisting⟩ := Prod.mk.inj hterms
  have hsettles := Settles.acceptOffer ⟨10⟩ 2 o ho h
  rw [hlisting, hpending] at hsettles
  refine ⟨w', _, hsettles, ?_, hamount, rfl⟩
  rw [settlement_exact_iff host _ w w' _ hreach hsettles]
  simpa using hparent

/-- The artist answers the offer on the first listing with a counter-offer, deposits nothing, and
accepts it with `accept_offer`: the price is paid to the artist from the deposit of the offer on the
other listing. -/
theorem counter_offer_accepted_unpaid :
    let host := Host.accepting ⟨0⟩ ⟨10⟩
    let w := run host (.fresh (fundedBidders ⟨0⟩) ())
      (twoOffers ++ [.call (.signedBy ⟨10⟩ 300) (.offer (.counterOffer ⟨10⟩ 2 2000000 ⟨50⟩ none))])
    ∃ w' s, Settles host (.signedBy ⟨10⟩ 400) w w' s ∧
      ¬ SettlesExactly (.signedBy ⟨10⟩ 400) w w' s ∧ w'.deposited ⟨.offer 3, ⟨50⟩⟩ = 0 ∧
      w'.paidOut ⟨.offer 3, ⟨50⟩⟩ = 2000000 := by
  intro host w
  have hoffer : (w.offer 3).isSome := by decide +kernel
  have hbefore : w.paidOut ⟨.offer 3, ⟨50⟩⟩ = 0 := by decide +kernel
  obtain ⟨⟨⟩, w', h, hpurse⟩ := exists_returns
    (c := acceptOffer host (.signedBy ⟨10⟩ 400) ⟨10⟩ 3) (s := w)
    (p := fun _ w' => decide (w'.deposited ⟨.offer 3, ⟨50⟩⟩ = 0) &&
      decide (w'.paidOut ⟨.offer 3, ⟨50⟩⟩ = 2000000)) (by decide +kernel)
  clear_value w
  obtain ⟨o, ho⟩ := Option.isSome_iff_exists.mp hoffer
  rw [Bool.and_eq_true, decide_eq_true_iff, decide_eq_true_iff] at hpurse
  refine ⟨w', _, Settles.acceptOffer ⟨10⟩ 3 o ho h, fun hexact => ?_, hpurse⟩
  have := hexact.covered ⟨.offer 3, ⟨50⟩⟩
  omega

end ElcareHub.Marketplace
