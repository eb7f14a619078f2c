import ElcareHub.Marketplace.Safety.Purses
import ElcareHub.Marketplace.Safety.OpenOffers

/-!
# Offer funds

A pending offer made by `make_offer` is backed by its deposit, and a closed one has been paid out in
full. A pending counter-offer is backed by nothing: `counter_offer` opens it in the name of the
artist without taking a deposit, while every exit pays its amount out as if there were one.
-/

namespace ElcareHub.Marketplace

open Function

variable {b b' b1 : Book} {i j k : Nat} {t : Address} {o : Offer} {kind : Kind}

namespace Book

/-- What the contract holds for offer `i` in token `t`: the amount of the offer while it is pending,
unless it is a counter-offer. -/
def offerFunds (b : Book) (i : Nat) (t : Address) : Int :=
  match b.offer i with
  | some o => if o.status = .pending ∧ o.token = t ∧ b.counterParent i = none then o.amount else 0
  | none => 0

/-- The purse of offer `i` holds `offerFunds`. Of a counter-offer that is closed nothing is said: it
may have been paid out with or without a deposit. -/
def OfferBooked (b : Book) (i : Nat) : Prop :=
  (b.counterParent i = none ∨ ∀ o, b.offer i = some o → o.status = .pending) →
    ∀ t, b.inPurse ⟨.offer i, t⟩ = b.offerFunds i t

/-- Offers are for a positive amount. -/
def OffersPositive (b : Book) : Prop := ∀ i o, b.offer i = some o → 0 < o.amount

theorem offerFunds_of_some (h : b.offer i = some o) :
    b.offerFunds i t =
      if o.status = .pending ∧ o.token = t ∧ b.counterParent i = none then o.amount else 0 := by
  simp [offerFunds, h]

/-- Ids beyond the counter name no offer. -/
theorem Keyed.offer_new (h : b.Keyed) : b.offer (b.offerCount + 1) = none := by
  cases ho : b.offer (b.offerCount + 1) with
  | none => rfl
  | some o =>
    have := (h.offer ho).2
    omega

theorem Keyed.counterParent_new (h : b.Keyed) : b.counterParent (b.offerCount + 1) = none := by
  cases hc : b.counterParent (b.offerCount + 1) with
  | none => rfl
  | some parent =>
    have := h.counter (by rw [hc]; rfl)
    omega

namespace OfferBooked

theorem of_same (h : b.OfferBooked i) (hoffer : b'.offer i = b.offer i)
    (hcounter : b'.counterParent i = b.counterParent i)
    (hpurse : ∀ t, b'.inPurse ⟨.offer i, t⟩ = b.inPurse ⟨.offer i, t⟩) : b'.OfferBooked i := by
  intro hcase t
  rw [hoffer, hcounter] at hcase
  rw [hpurse, h hcase, offerFunds, offerFunds, hoffer, hcounter]

/-- A pending offer is closed and, unless it is a counter-offer, its amount leaves its purse. -/
theorem of_close (h : b.OfferBooked i) (ho : b.offer i = some o)
    (hpending : o.status = .pending) (hp : b'.offer i = some p) (hclosed : p.status ≠ .pending)
    (hcounter : b'.counterParent i = b.counterParent i)
    (hpurse : b.counterParent i = none → ∀ t, b'.inPurse ⟨.offer i, t⟩ =
      b.inPurse ⟨.offer i, t⟩ - if t = o.token then o.amount else 0) : b'.OfferBooked i := by
  rintro (hnone | hall) t
  · rw [hcounter] at hnone
    rw [offerFunds_of_some hp, if_neg fun hboth => hclosed hboth.1, hpurse hnone, h (.inl hnone),
      offerFunds_of_some ho]
    by_cases ht : t = o.token
    · simp [ht, hpending, hnone]
    · simp [ht, Ne.symm ht]
  · exact (hclosed (hall p hp)).elim

/-- An offer with a new id is opened and `x` is deposited for it. -/
theorem of_open (h : b.OfferBooked i) (hnew : b.offer i = none)
    (hnewCounter : b.counterParent i = none) (ho : b'.offer i = some o)
    (hpending : o.status = .pending) (hx : x = if b'.counterParent i = none then o.amount else 0)
    (hpurse : ∀ t, b'.inPurse ⟨.offer i, t⟩ =
      b.inPurse ⟨.offer i, t⟩ + if t = o.token then x else 0) : b'.OfferBooked i := by
  intro _ t
  rw [hpurse, h (.inl hnewCounter), show b.offerFunds i t = 0 by simp [offerFunds, hnew], offerFunds_of_some ho, hx]
  by_cases ht : t = o.token
  · simp [ht, hpending]
  · simp [ht, Ne.symm ht]

/-- Rejecting with refunds. -/
theorem refundAll (h : b.OfferBooked i) (ids : List Nat) : (b.refundAll ids).OfferBooked i := by
  have hoffer : (b.refundAll ids).offer i = b.rejected ids i := rfl
  have hpurse : ∀ t, (b.refundAll ids).inPurse ⟨.offer i, t⟩ =
      b.inPurse ⟨.offer i, t⟩ - b.refund ids ⟨.offer i, t⟩ := fun t => inPurse_refundAll
  by_cases hhit : ∃ o, b.offer i = some o ∧ i ∈ ids ∧ o.status = .pending
  · obtain ⟨o, ho, hmem, hpending⟩ := hhit
    refine h.of_close ho hpending (p := { o with status := .rejected }) ?_ (by simp) rfl ?_
    · rw [hoffer]
      simp [rejected, hmem, ho, hpending]
    · intro _ t
      rw [hpurse]
      simp [refund, ho, hmem, hpending, eq_comm]
  · refine h.of_same ?_ rfl fun t => ?_
    · rw [hoffer]
      cases ho : b.offer i with
      | none => simp [rejected, ho]
      | some o =>
        by_cases hmem : i ∈ ids
        · have : o.status ≠ .pending := fun hp => hhit ⟨o, ho, hmem, hp⟩
          simp [rejected, ho, this]
        · simp [rejected, ho, hmem]
    · rw [hpurse]
      cases ho : b.offer i with
      | none => simp [refund, ho]
      | some o =>
        have : ¬ (i ∈ ids ∧ o.status = .pending ∧ o.token = t) :=
          fun hall => hhit ⟨o, ho, hall.1, hall.2.1⟩
        simp [refund, ho, this]

/-- Settling one offer of a listing, or something else. -/
theorem payment (h : b.OfferBooked i) (hp : Payment k b b1) : b1.OfferBooked i := by
  cases hp with
  | nothing => exact h
  | sale token price =>
    refine h.of_same rfl rfl fun t => ?_
    rw [inPurse_pay_other (by simp), inPurse_deposit_other (by simp)]
  | offer j o ho hpending _ =>
    by_cases hi : i = j
    · subst hi
      refine h.of_close ho hpending
        (update_self ..) (by simp) rfl fun _ t => ?_
      rw [inPurse_pay]
      simp only [Purse.mk.injEq, true_and]
      rfl
    · refine h.of_same (update_of_ne hi ..) rfl fun t => ?_
      rw [inPurse_pay_other (by simp [hi])]
      rfl
  | counter j o ho hpending _ hcounter =>
    by_cases hi : i = j
    · subst hi
      refine h.of_close ho hpending
        (update_self ..) (by simp) rfl fun hnone => ?_
      rw [hnone] at hcounter
      cases hcounter
    · refine h.of_same (update_of_ne hi ..) rfl fun t => ?_
      rw [inPurse_pay_other (by simp [hi]), inPurse_deposit_other (by simp [hi])]
      rfl

end OfferBooked

end Book

/-- Every move keeps every offer booked. -/
theorem Move.offerBooked (hm : Move kind b b')
    (hkeyed : b.Keyed) (h : b.OfferBooked i) : b'.OfferBooked i := by
  cases hm with
  | retire k l l' active b1 _ _ _ _ _ hpayment =>
    exact ((h.payment hpayment).refundAll (b1.pendingOffers k)).of_same rfl rfl fun _ => rfl
  | makeOffer o l hid hpending _ _ _ =>
    by_cases hi : i = o.offerId
    · refine h.of_open (x := o.amount) (by rw [hi, hid]; exact hkeyed.offer_new)
        (by rw [hi, hid]; exact hkeyed.counterParent_new) ?_ hpending ?_ fun t => ?_
      · rw [hi]
        exact update_self ..
      · refine (if_pos ?_).symm
        rw [hi, hid]
        exact hkeyed.counterParent_new
      · rw [Book.inPurse_deposit, hi]
        simp only [Purse.mk.injEq, true_and]
        rfl
    · refine h.of_same (update_of_ne hi ..) rfl fun t => ?_
      rw [Book.inPurse_deposit_other (by simp [hi])]
      rfl
  | closeOffer j o status hoffer hpending hclosed =>
    by_cases hi : i = j
    · subst hi
      refine h.of_close hoffer hpending (update_self ..) hclosed
        rfl fun _ t => ?_
      unfold Book.closeOffer
      rw [Book.inPurse_pay]
      simp only [Purse.mk.injEq, true_and]
      rfl
    · refine h.of_same (update_of_ne hi ..) rfl fun t => ?_
      unfold Book.closeOffer
      rw [Book.inPurse_pay_other (by simp [hi])]
      rfl
  | counterOffer o l parent hid hpending _ _ _ =>
    by_cases hi : i = o.offerId
    · refine h.of_open (x := 0) (by rw [hi, hid]; exact hkeyed.offer_new)
        (by rw [hi, hid]; exact hkeyed.counterParent_new) ?_ hpending ?_ fun t => ?_
      · rw [hi]
        exact update_self ..
      · refine (if_neg ?_).symm
        rw [hi]
        simp
      · rw [ite_self, Int.add_zero]
        rfl
    · exact h.of_same (update_of_ne hi ..) (update_of_ne hi ..) fun _ => rfl
  | bid k a a' _ _ _ _ _ _ =>
    refine h.of_same rfl rfl fun t => ?_
    rfl
  | closeAuction k a a' _ _ _ _ =>
    refine h.of_same rfl rfl fun t => ?_
    rfl
  | losingRefund k a x _ _ _ =>
    refine h.of_same rfl rfl fun t => ?_
    rw [Book.inPurse_pay_other (by simp)]
  | claimRoyalty settlementId isListing token x =>
    refine h.of_same rfl rfl fun t => ?_
    rw [Book.inPurse_pay_other (by simp)]
  | openListing l active _ _ _ _ => exact h.of_same rfl rfl fun _ => rfl
  | editListing k l l' _ _ _ => exact h.of_same rfl rfl fun _ => rfl
  | abandon k l l' active _ _ _ _ _ _ => exact h.of_same rfl rfl fun _ => rfl
  | openAuction a _ _ _ _ _ => exact h.of_same rfl rfl fun _ => rfl
  | editAuction k a a' _ _ _ _ _ => exact h.of_same rfl rfl fun _ => rfl

/-- Closing offers keeps their amounts. -/
theorem Book.OffersPositive.of_amounts (h : b.OffersPositive)
    (hamounts : ∀ i o', b'.offer i = some o' → ∃ j o, b.offer j = some o ∧ o'.amount = o.amount) :
    b'.OffersPositive := by
  intro i o' ho'
  obtain ⟨j, o, ho, heq⟩ := hamounts i o' ho'
  rw [heq]
  exact h j o ho

/-- A stored offer changes its status. -/
theorem Book.OffersPositive.setStatus (h : b.OffersPositive)
    (ho : b.offer i = some o)
    (hb' : b'.offer = update b.offer i (some { o with status })) : b'.OffersPositive := by
  refine h.of_amounts fun j o' ho' => ?_
  rw [hb', update_apply] at ho'
  split at ho'
  · cases ho'
    exact ⟨i, o, ho, rfl⟩
  · exact ⟨j, o', ho', rfl⟩

/-- A new offer is for a positive amount. -/
theorem Book.OffersPositive.openOffer (h : b.OffersPositive)
    (hamount : 0 < o.amount) (hb' : b'.offer = update b.offer o.offerId (some o)) :
    b'.OffersPositive := by
  intro i o' ho'
  rw [hb', update_apply] at ho'
  split at ho'
  · cases ho'
    exact hamount
  · exact h i o' ho'

theorem Move.offersPositive (hm : Move kind b b') (h : b.OffersPositive) : b'.OffersPositive := by
  cases hm with
  | retire k l l' active b1 _ _ _ _ _ hpayment =>
    have h1 : b1.OffersPositive := by
      cases hpayment with
      | nothing => exact h
      | sale token price => exact h
      | offer i o ho _ _ => exact h.setStatus ho rfl
      | counter i o ho _ _ _ => exact h.setStatus ho rfl
    refine h1.of_amounts fun i o' ho' => ?_
    change b1.rejected (b1.pendingOffers k) i = some o' at ho'
    unfold Book.rejected at ho'
    split at ho'
    · obtain ⟨o, ho, rfl⟩ := Option.map_eq_some_iff.mp ho'
      refine ⟨i, o, ho, ?_⟩
      split <;> rfl
    · exact ⟨i, o', ho', rfl⟩
  | makeOffer o l _ _ hamount _ _ => exact h.openOffer hamount rfl
  | closeOffer i o status ho _ _ => exact h.setStatus ho rfl
  | counterOffer o l parent _ _ hamount _ _ => exact h.openOffer hamount rfl
  | _ => exact h

/-- Offer `i` is not a counter-offer. -/
theorem Move.counterParent_eq (hm : Move kind b b')
    (hkind : kind ≠ .counter i) : b'.counterParent i = b.counterParent i := by
  cases hm with
  | retire k l l' active b1 _ _ _ _ _ hpayment =>
    cases hpayment <;> rfl
  | counterOffer o l parent _ _ _ _ _ =>
    have hi : i ≠ o.offerId := fun heq => hkind (congrArg Kind.counter heq.symm)
    exact update_of_ne hi ..
  | _ => rfl

/-! ### Runs -/

variable {C : Type} {host : Host C}

theorem Reachable.offerBooked (hreach : Reachable host w) (i : Nat) : w.book.OfferBooked i :=
  hreach.invariant (I := (·.OfferBooked i)) (fun _ _ => rfl)
    fun _ _ _ hm hkeyed hb => hm.offerBooked hkeyed hb

theorem Reachable.offersPositive (hreach : Reachable host w) : w.book.OffersPositive :=
  hreach.invariant (fun _ _ ho => by cases ho) fun _ _ _ hm _ hb => hm.offersPositive hb

/-- The funds of offer `i` are conserved: no more is paid out than was deposited, and while the offer
is pending what is left is what it is owed. -/
structure World.OfferConserved (w : World C) (i : Nat) : Prop where
  covered : ∀ t, w.paidOut ⟨.offer i, t⟩ ≤ w.deposited ⟨.offer i, t⟩
  pending : ∀ o, w.offer i = some o → o.status = .pending →
    w.deposited ⟨.offer i, o.token⟩ - w.paidOut ⟨.offer i, o.token⟩ = o.amount

/-- The step is not a `counter_offer` that passes its checks and is given the id `i`. -/
def NoCounterOffer (host : Host C) (i : Nat) (w : World C) (s : Step C) : Prop :=
  ∀ env artist parent amount token expiresAt,
    s = .call env (.offer (.counterOffer artist parent amount token expiresAt)) →
      w.offerCount + 1 = i → ¬ CounterOfferDue host env w artist parent amount token

theorem NoCounterOffer.allows (h : NoCounterOffer host i w s) : Allows host (· ≠ .counter i) w s := by
  rintro kind hmakes rfl
  cases s with
  | call env op =>
    cases hmakes with
    | counter artist parent amount token expiresAt hdue =>
      exact h env artist parent amount token expiresAt rfl rfl hdue
  | external collections balances => exact hmakes

/-- **Offer funds.** Along every run in which offer `i` is not opened by `counter_offer`, the funds of
the offer are conserved. -/
theorem offer_funds_conserved (host : Host C) (balances : Address × Address → Int)
    (collections : C) (steps : List (Step C)) (i : Nat)
    (hrun : Run.Along (step host) (NoCounterOffer host i) (.fresh balances collections) steps) :
    (run host (.fresh balances collections) steps).OfferConserved i := by
  have hcounter := run_invariant (I := (·.counterParent i = none))
    (hrun.mono fun _ _ h => h.allows) rfl
    fun kind b b' hkind hm _ hb => (hm.counterParent_eq hkind).trans hb
  have hreach := reachable_run host balances collections steps
  have hbooked := hreach.offerBooked i (.inl hcounter)
  generalize run host (.fresh balances collections) steps = w at *
  refine ⟨fun t => ?_, fun o ho hpending => ?_⟩
  · have hpurse : w.deposited _ - w.paidOut _ = w.book.offerFunds i t := hbooked t
    have hfunds : 0 ≤ w.book.offerFunds i t := by
      unfold Book.offerFunds
      split
      · rename_i o ho
        have := hreach.offersPositive i o ho
        split <;> omega
      · exact Int.le_refl 0
    omega
  · refine (hbooked o.token).trans ?_
    rw [Book.offerFunds_of_some ho, if_pos ⟨hpending, rfl, hcounter⟩]

/-- Two listings of one artist with an offer each. -/
def twoOffers : List (Step Unit) :=
  [.call (.signedBy ⟨10⟩ 100) (.listing (.createListing ⟨10⟩
      ⟨1000000, "XLM", ⟨50⟩, ⟨60⟩, 7, 1, [⟨⟨10⟩, 10000⟩], none⟩)),
    .call (.signedBy ⟨10⟩ 100) (.listing (.createListing ⟨10⟩
      ⟨1000000, "XLM", ⟨50⟩, ⟨60⟩, 8, 1, [⟨⟨10⟩, 10000⟩], none⟩)),
    .call (.signedBy ⟨22⟩ 200) (.offer (.makeOffer ⟨22⟩ 2 3000000 ⟨50⟩ none)),
    .call (.signedBy ⟨20⟩ 200) (.offer (.makeOffer ⟨20⟩ 1 700000 ⟨50⟩ none))]

theorem offer_funds_conserved_twoOffers :
    let w := run (.accepting ⟨0⟩ ⟨10⟩) (.fresh (fundedBidders ⟨0⟩) ()) twoOffers
    w.OfferConserved 1 ∧ (w.offer 1).map Offer.status = some .pending ∧
      w.deposited ⟨.offer 1, ⟨50⟩⟩ = 3000000 := by
  refine ⟨offer_funds_conserved _ _ _ _ 1 ?_, by decide +kernel, by decide +kernel⟩
  simp [twoOffers, NoCounterOffer]

/-- The artist answers the offer on the first listing with a counter-offer, deposits nothing, and
withdraws it: the refund is paid from the deposit of the offer on the other listing. -/
theorem counter_offer_withdrawn_unpaid :
    let w := run (.accepting ⟨0⟩ ⟨10⟩) (.fresh (fundedBidders ⟨0⟩) ())
      (twoOffers ++ [.call (.signedBy ⟨10⟩ 300) (.offer (.counterOffer ⟨10⟩ 2 2000000 ⟨50⟩ none)),
          .call (.signedBy ⟨10⟩ 400) (.offer (.withdrawOffer ⟨10⟩ 3))])
    ¬ w.OfferConserved 3 ∧ w.deposited ⟨.offer 3, ⟨50⟩⟩ = 0 ∧
      w.paidOut ⟨.offer 3, ⟨50⟩⟩ = 2000000 := by
  intro w
  have hdeposited : w.deposited ⟨.offer 3, ⟨50⟩⟩ = 0 := by decide +kernel
  have hpaidOut : w.paidOut ⟨.offer 3, ⟨50⟩⟩ = 2000000 := by decide +kernel
  refine ⟨fun h => ?_, hdeposited, hpaidOut⟩
  have := h.covered ⟨50⟩
  omega

end ElcareHub.Marketplace
