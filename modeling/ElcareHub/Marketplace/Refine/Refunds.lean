import ElcareHub.Marketplace.Refine.Effects

/-!
# The refund loops

The listing exits carry two forms of one loop over a listing's pending offers: `rejectAndRefund`
rejects and pays offer by offer, while the settlements first mark all of them (`markRejected`) and
pay afterwards (`refundOffers`). Both come to `Book.refundAll`: an offer is paid once, in the state
in which it was pending, however often its id occurs in the list.
-/

namespace ElcareHub.Marketplace

open Call Function

variable {C : Type} {host : Host C} {env : Env} {w w' : World C} {u : Unit}

namespace Book

variable {b : Book} {i k : Nat} {ids : List Nat} {p : Purse}

theorem setOffers_offer : b.setOffers b.offer = b := rfl

theorem rejected_nil : b.rejected [] = b.offer := by
  funext i
  simp [rejected]

theorem refund_nil : b.refund [] p = 0 := by
  unfold refund
  split
  · split <;> simp
  · rfl

theorem refundAll_nil : b.refundAll [] = b := by
  simp only [refundAll, rejected_nil, refund_nil, Int.add_zero]

/-- Rejecting is idempotent: what follows the head of the list finds it already rejected. -/
theorem rejected_cons : b.rejected (i :: ids) = (b.setOffers (b.rejected [i])).rejected ids := by
  funext j
  unfold rejected setOffers
  by_cases hj : j = i
  · subst hj
    cases ho : b.offer j with
    | none => simp [ho]
    | some o =>
      by_cases hmem : j ∈ ids
      · by_cases hstatus : o.status = .pending <;> simp [ho, hstatus]
      · simp [ho, hmem]
  · by_cases hmem : j ∈ ids <;> simp [hj]

/-- The tail of the list does not pay for the head again. -/
theorem refund_cons : b.refund (i :: ids) p =
      b.refund [i] p + (b.setOffers (b.rejected [i])).refund ids p := by
  unfold refund setOffers rejected
  cases p.account with
  | offer j =>
    cases ho : b.offer j with
    | none =>
      by_cases hj : j = i
      · simp [ho]
      · simp [ho]
    | some o =>
      by_cases hj : j = i
      · subst hj
        by_cases hstatus : o.status = .pending <;> simp [ho, hstatus]
      · simp [ho, hj]
  | sale l => rfl
  | auction a => rfl
  | royaltyClaim s f => rfl

theorem refundAll_cons : b.refundAll (i :: ids) = (b.refundAll [i]).refundAll ids := by
  have hrefund : ∀ p, b.refund (i :: ids) p = b.refund [i] p + (b.refundAll [i]).refund ids p :=
    fun p => refund_cons
  simp only [refundAll, Book.mk.injEq, true_and]
  refine ⟨rejected_cons, funext fun p => ?_⟩
  rw [hrefund p, ← Int.add_assoc]
  rfl

theorem rejected_singleton_pending (ho : b.offer i = some o)
    (hpending : o.status = .pending) :
    b.rejected [i] = Function.update b.offer i (some { o with status := .rejected }) := by
  funext j
  by_cases hj : j = i
  · subst hj
    simp [rejected, ho, hpending]
  · simp [rejected, hj]

theorem refund_singleton_pending (ho : b.offer i = some o)
    (hpending : o.status = .pending) :
    b.refund [i] p = if p = ⟨.offer i, o.token⟩ then o.amount else 0 := by
  obtain ⟨account, token⟩ := p
  cases account with
  | offer j =>
    by_cases hj : j = i
    · subst hj
      simp [refund, ho, hpending, eq_comm]
    · cases hoj : b.offer j <;> simp [refund, hj, hoj]
  | _ => simp [refund]

/-- One pending offer is rejected and paid. -/
theorem refundAll_singleton_pending (ho : b.offer i = some o)
    (hpending : o.status = .pending) :
    b.refundAll [i] =
      (b.setOffer i { o with status := .rejected }).pay ⟨.offer i, o.token⟩ o.amount := by
  simp only [refundAll, setOffer, pay, Book.mk.injEq, true_and]
  refine ⟨rejected_singleton_pending ho hpending, funext fun p => ?_⟩
  rw [refund_singleton_pending ho hpending, update_apply]
  by_cases hp : p = ⟨.offer i, o.token⟩
  · rw [if_pos hp, if_pos hp, hp]
  · rw [if_neg hp, if_neg hp, Int.add_zero]

theorem rejected_singleton_closed (h : ∀ o, b.offer i = some o → o.status ≠ .pending) :
    b.rejected [i] = b.offer := by
  funext j
  by_cases hj : j = i
  · subst hj
    cases ho : b.offer j with
    | none => simp [rejected, ho]
    | some o => simp [rejected, ho, h o ho]
  · simp [rejected, hj]

theorem refund_singleton_closed (h : ∀ o, b.offer i = some o → o.status ≠ .pending) :
    b.refund [i] p = 0 := by
  unfold refund
  split
  · rename_i j _
    by_cases hj : j = i
    · subst hj
      cases ho : b.offer j with
      | none => rfl
      | some o => simp [h o ho]
    · cases b.offer j <;> simp [hj]
  · rfl

/-- An offer that is not pending is passed over. -/
theorem refundAll_singleton_closed (h : ∀ o, b.offer i = some o → o.status ≠ .pending) :
    b.refundAll [i] = b := by
  simp only [refundAll, rejected_singleton_closed h, refund_singleton_closed h, Int.add_zero]

/-- Rejecting keeps the ids of the offers. -/
theorem Keyed.refundAll (h : b.Keyed) (ids : List Nat) : (b.refundAll ids).Keyed where
  listing := h.listing
  auction := h.auction
  offer {k o} ho := by
    change b.rejected ids k = some o at ho
    unfold rejected at ho
    split at ho
    · obtain ⟨o', ho', rfl⟩ := Option.map_eq_some_iff.mp ho
      have := h.offer ho'
      split <;> exact this
    · exact h.offer ho
  counter := h.counter
  legacy := h.legacy

end Book

/-! ### Offer by offer -/

theorem rejectAndRefund_book (hkeyed : w.book.Keyed)
    (h : Returns (rejectAndRefund host env i) w u w') : w'.book = w.book.refundAll [i] := by
  obtain ⟨stored, w1, h1, h2⟩ := h.bind
  obtain ⟨hstored, rfl⟩ := h1.read
  rcases returns_onSome.mp h2 with ⟨o, rfl, h3⟩ | ⟨rfl, rfl⟩
  · rcases h3.when with ⟨hpending, h4⟩ | ⟨hclosed, rfl⟩
    · obtain ⟨w2, hsave, hpay⟩ := h4.seq
      obtain ⟨-, -, hbook⟩ := payTo_book hpay
      rw [hbook, saveOffer_book hsave (hkeyed.offer hstored).1,
        Book.refundAll_singleton_pending hstored hpending]
    · refine (Book.refundAll_singleton_closed fun o' ho' => ?_).symm
      obtain rfl : o = o' := by simpa using hstored.symm.trans ho'
      exact hclosed
  · refine (Book.refundAll_singleton_closed fun o' ho' => ?_).symm
    cases hstored.symm.trans ho'

theorem each_rejectAndRefund_book (hkeyed : w.book.Keyed)
    (h : Returns (each (rejectAndRefund host env) ids) w u w') : w'.book = w.book.refundAll ids := by
  induction ids generalizing w with
  | nil =>
    rw [returns_each_nil] at h
    rw [← h, Book.refundAll_nil]
  | cons i ids ih =>
    obtain ⟨w1, h1, h2⟩ := h.next
    have hbook := rejectAndRefund_book hkeyed h1
    rw [ih (hbook ▸ hkeyed.refundAll [i]) h2, hbook, ← Book.refundAll_cons]

/-- The refund sweep of a listing. -/
theorem refundPendingOffers_book (hkeyed : w.book.Keyed)
    (h : Returns (refundPendingOffers host env k) w u w') : w'.book = w.book.refundPending k := by
  have h2 := h.view
  obtain ⟨w2, h3, h4⟩ := h2.seq
  rw [setPendingOffers_book h4, each_rejectAndRefund_book hkeyed h3]
  rfl

/-! ### Marking first, paying afterwards -/

/-- What returning the funds of `os` pays out of the purse `p`. -/
def owedTo (os : List Offer) (p : Purse) : Int :=
  (os.map fun o => if p = ⟨.offer o.offerId, o.token⟩ then o.amount else 0).sum

/-- The transfers that return the funds of `os`. -/
def refundTransfers (os : List Offer) : List Transfer :=
  os.map fun o => ⟨.payout, .offer o.offerId, o.token, o.offerer, o.amount⟩

/-- What `markRejected` does: the pending offers among `ids` are rejected and returned, and what is
owed to them is what rejecting them one by one would have paid. -/
structure MarksRejected (b : Book) (ids : List Nat) (skip : Option Nat) (os : List Offer)
    (b' : Book) : Prop where
  book : b' = b.setOffers (b.rejected ids)
  owed : ∀ p, owedTo os p = b.refund ids p
  skipped : ∀ o ∈ os, skip ≠ some o.offerId

section MarksRejected

variable {b b' : Book} {i : Nat} {ids : List Nat} {skip : Option Nat} {os : List Offer} {o : Offer}

/-- An id that is passed over leaves the rest of the loop as it is. -/
theorem MarksRejected.pass (h : MarksRejected b ids skip os b')
    (hclosed : ∀ o, b.offer i = some o → o.status ≠ .pending) :
    MarksRejected b (i :: ids) skip os b' where
  book := by
    rw [h.book, Book.rejected_cons, Book.rejected_singleton_closed hclosed, Book.setOffers_offer]
  owed p := by
    rw [h.owed, Book.refund_cons, Book.refund_singleton_closed hclosed,
      Book.rejected_singleton_closed hclosed, Book.setOffers_offer, Int.zero_add]
  skipped := h.skipped

/-- A pending offer is rejected, and returned before those of the rest of the loop. -/
theorem MarksRejected.mark (h : MarksRejected (b.setOffers (b.rejected [i])) ids skip os b')
    (hoffer : b.offer i = some o) (hpending : o.status = .pending) (hid : o.offerId = i)
    (hskip : skip ≠ some i) : MarksRejected b (i :: ids) skip (o :: os) b' where
  book := by
    have hcons : b.rejected (i :: ids) = (b.setOffers (b.rejected [i])).rejected ids :=
      Book.rejected_cons
    rw [h.book, hcons]
    rfl
  owed p := by
    rw [Book.refund_cons, Book.refund_singleton_pending hoffer hpending, ← h.owed p, owedTo,
      List.map_cons, List.sum_cons, hid]
    rfl
  skipped o' ho' := by
    rcases List.mem_cons.mp ho' with rfl | ho'
    · rw [hid]
      exact hskip
    · exact h.skipped o' ho'

end MarksRejected

theorem markRejected_spec (hkeyed : w.book.Keyed)
    (hskip : ∀ i o, skip = some i → w.book.offer i = some o → o.status ≠ .pending)
    (h : Returns (markRejected announce skip k ids) w os w') :
    MarksRejected w.book ids skip os w'.book ∧ w'.transfers = w.transfers := by
  induction ids generalizing w os with
  | nil =>
    obtain ⟨rfl, rfl⟩ := h.pure
    refine ⟨⟨?_, fun p => ?_, by simp⟩, rfl⟩
    · rw [Book.rejected_nil, Book.setOffers_offer]
    · rw [Book.refund_nil]
      rfl
  | cons i ids ih =>
    obtain ⟨stored, w1, h1, h2⟩ := h.bind
    obtain ⟨hstored, rfl⟩ := h1.read
    cases stored with
    | none =>
      obtain ⟨hmarks, htransfers⟩ := ih hkeyed hskip h2
      refine ⟨hmarks.pass fun o ho => ?_, htransfers⟩
      cases hstored.symm.trans ho
    | some offer =>
      have hoffer : w.book.offer i = some offer := hstored
      have hid := (hkeyed.offer hoffer).1
      change Returns (if skip ≠ some i ∧ offer.status = .pending then _ else _) w os w' at h2
      by_cases hcond : skip ≠ some i ∧ offer.status = .pending
      · rw [if_pos hcond] at h2
        obtain ⟨w2, hsave, h3⟩ := h2.seq
        obtain ⟨w3, hemit, h4⟩ := h3.seq
        obtain ⟨os', w4, hrest, h5⟩ := h4.bind
        obtain ⟨rfl, rfl⟩ := h5.pure
        have hbook3 : w3.book = w.book.setOffers (w.book.rejected [i]) := by
          rw [Preserves.eq (f := World.book) hemit, saveOffer_book hsave hid,
            Book.rejected_singleton_pending hoffer hcond.2]
          rfl
        have hkeyed3 : w3.book.Keyed := by
          have hall := hkeyed.refundAll [i]
          rw [hbook3]
          exact ⟨hall.listing, hall.auction, hall.offer, hall.counter, hall.legacy⟩
        -- the offer to skip is another one, so that its record is as before
        have hskip3 : ∀ j o, skip = some j → w3.book.offer j = some o → o.status ≠ .pending := by
          intro j o hj ho
          rw [hbook3] at ho
          change w.book.rejected [i] j = some o at ho
          have hne : j ≠ i := fun heq => hcond.1 (heq ▸ hj)
          rw [Book.rejected, if_neg (by simpa using hne)] at ho
          exact hskip j o hj ho
        obtain ⟨hmarks, htransfers⟩ := ih hkeyed3 hskip3 hrest
        rw [hbook3] at hmarks
        refine ⟨hmarks.mark hoffer hcond.2 hid hcond.1, ?_⟩
        rw [htransfers, Preserves.eq (f := World.transfers) hemit,
          Preserves.eq (f := World.transfers) hsave]
      · rw [if_neg hcond] at h2
        obtain ⟨hmarks, htransfers⟩ := ih hkeyed hskip h2
        refine ⟨hmarks.pass fun o ho => ?_, htransfers⟩
        obtain rfl : offer = o := Option.mem_unique hoffer ho
        intro hpending
        by_cases hs : skip = some i
        · exact hskip i offer hs hoffer hpending
        · exact hcond ⟨hs, hpending⟩

theorem refundOffers_book (h : Returns (refundOffers host env os) w u w') :
    w'.transfers = w.transfers ++ refundTransfers os ∧
      w'.book = { w.book with paidOut := fun p => w.book.paidOut p + owedTo os p } := by
  induction os generalizing w with
  | nil =>
    rw [refundOffers, returns_each_nil] at h
    subst h
    simp [refundTransfers, owedTo]
  | cons o os ih =>
    obtain ⟨w1, h1, h2⟩ := h.next
    obtain ⟨-, htransfers1, hbook1⟩ := payTo_book h1
    obtain ⟨htransfers, hbook⟩ := ih h2
    refine ⟨by rw [htransfers, htransfers1]; simp [refundTransfers], ?_⟩
    rw [hbook, hbook1]
    simp only [Book.pay, Book.mk.injEq, true_and]
    funext p
    rw [update_apply, owedTo, owedTo, List.map_cons, List.sum_cons]
    by_cases hp : p = ⟨.offer o.offerId, o.token⟩
    · rw [if_pos hp, if_pos hp, hp, Int.add_assoc]
    · rw [if_neg hp, if_neg hp, Int.zero_add]

end ElcareHub.Marketplace
