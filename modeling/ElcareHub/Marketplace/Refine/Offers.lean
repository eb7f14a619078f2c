import ElcareHub.Marketplace.Refine.Auctions

/-!
# Offer calls make moves

An offer is opened with a deposit, and closed on one of four ways: with a refund, with the sale of
its listing, with the exit of its listing, or as the parent of a counter-offer. The counter-offer
itself is opened without a deposit; the buyer pays for it when it is accepted.
-/

namespace ElcareHub.Marketplace

open Call Function

variable {C : Type} {host : Host C} {env : Env} {w w' : World C} {u : Unit}
variable {o : Offer} {i k id : Nat} {offerer token artist buyer : Address} {amount : Int}
  {expiresAt : Option Nat}
variable {l : Listing} {parentOfferId : Nat}

/-! ### Opening and closing -/

theorem returns_requireOffer : Returns (requireOffer i) w o w' ↔ w.offer i = some o ∧ w = w' := by
  simp only [returns_bind, returns_view, returns_orAbort]
  constructor
  · rintro ⟨_, _, ⟨rfl, rfl⟩, ho, rfl⟩
    exact ⟨ho, rfl⟩
  · rintro ⟨ho, rfl⟩
    exact ⟨_, _, ⟨rfl, rfl⟩, ho, rfl⟩

theorem returns_requireOffer_bind :
    Returns (requireOffer k >>= f) w b w' ↔ ∃ o, w.offer k = some o ∧ Returns (f o) w b w' :=
  returns_lookup fun _ _ => returns_requireOffer

/-- The record a new offer is entered with. -/
def Offer.opened (env : Env) (id listingId : Nat) (offerer : Address) (amount : Int)
    (token : Address) (expiresAt : Option Nat) : Offer :=
  { offerId := id, listingId, offerer, amount, token, status := .pending,
    createdAt := env.sequence, expiresAt }

theorem openOffer_book (h : Returns (openOffer env k offerer amount token expiresAt) w id w') :
    id = w.book.offerCount + 1 ∧
      w'.book = w.book.openOffer (.opened env id k offerer amount token expiresAt) := by
  obtain ⟨i, w1, hcount, h⟩ := h.bind
  obtain ⟨hid, hw1⟩ := returns_counter hcount
  have e1 : w1.book = { w.book with offerCount := i } := congrArg World.book hw1
  obtain ⟨w2, hsave, h⟩ := h.seq
  have e2 := saveOffer_book hsave rfl
  obtain ⟨_, _, w4, e4, h⟩ := h.skip₂ e2
  obtain ⟨w5, hadd, h⟩ := h.seq
  obtain ⟨rfl, rfl⟩ := h.pure
  refine ⟨hid, ?_⟩
  rw [setPendingOffers_book hadd.view, show w4.listingPendingOffers = w4.book.pendingOffers from rfl,
    e4, e1]
  subst hid
  rfl

/-- The book after `make_offer`: an offer of somebody other than the artist is opened on an active
listing with less than the maximal number of open offers, and its amount is deposited. -/
theorem makeOffer_book (h : Returns (makeOffer host env offerer k amount token expiresAt) w id w') :
    id = w.book.offerCount + 1 ∧ 0 < amount ∧
      (∃ l, w.book.listing k = some l ∧ l.status = .active ∧ l.artist ≠ offerer) ∧
      (w.book.pendingOffers k).length < maxOffersPerListing ∧
      w'.book = (w.book.openOffer (.opened env id k offerer amount token expiresAt)).deposit
        ⟨.offer id, token⟩ amount := by
  obtain ⟨_, _, w2, e, h⟩ := h.skip₂ (f := World.book) rfl
  obtain ⟨l, hlisting, h⟩ := returns_requireListing_bind.mp h
  have hlisting' : w.book.listing k = some l := e ▸ hlisting
  obtain ⟨_, w3, e3, h⟩ := h.skip e
  obtain ⟨hactive, h⟩ := h.check
  obtain ⟨hartist, h⟩ := h.check
  obtain ⟨hamount, h⟩ := h.check
  obtain ⟨_, _, w6, e6, h⟩ := h.skip₂ e3
  obtain ⟨hroom, h⟩ := h.check
  have hroom' : (w.book.pendingOffers k).length < maxOffersPerListing := by
    rw [← e6]
    exact Nat.lt_of_not_le hroom
  replace h := h.view
  obtain ⟨w8, hdeposit, h⟩ := h.seq
  obtain ⟨-, -, e8⟩ := depositFrom_book hdeposit
  obtain ⟨i, w9, hopen, h⟩ := h.bind
  obtain ⟨hid, e9⟩ := openOffer_book hopen
  obtain ⟨_, w10, e10, h⟩ := h.skip e9
  obtain ⟨rfl, rfl⟩ := h.pure
  have hcount' : w6.offerCount = w.book.offerCount := congrArg Book.offerCount e6
  rw [e8, hcount', e6] at e10 hid
  refine ⟨hid, by omega, ⟨l, hlisting', by simpa using hactive, hartist⟩, hroom', ?_⟩
  rw [e10]
  subst hid
  rfl

theorem makeOffer_move (h : Returns (makeOffer host env offerer k amount token expiresAt) w id w') :
    Move .ordinary w.book w'.book := by
  obtain ⟨hid, hamount, ⟨l, hlisting, hactive, -⟩, -, hbook⟩ := makeOffer_book h
  rw [hbook]
  exact .makeOffer (.opened env id k offerer amount token expiresAt) l hid rfl hamount hlisting
    hactive

/-- A pending offer is closed with a refund. -/
theorem closeOffer_move (hkeyed : w.book.Keyed)
    (hoffer : w.book.offer i = some o) (hpending : o.status = .pending)
    (hclosed : status ≠ .pending) (h : Returns (closeOffer host env o i status) w u w') :
    Move .ordinary w.book w'.book := by
  obtain ⟨w1, hpay, h⟩ := h.seq
  obtain ⟨w2, hsave, h⟩ := h.seq
  rw [removePendingOffer_book h, saveOffer_book hsave (hkeyed.offer hoffer).1, (payTo_book hpay).2.2]
  exact .closeOffer i o status hoffer hpending hclosed

theorem withdrawOffer_move (hkeyed : w.book.Keyed)
    (h : Returns (withdrawOffer host env offerer i) w u w') : Move .ordinary w.book w'.book := by
  obtain ⟨_, w1, e, h⟩ := h.skip (f := World.book) rfl
  obtain ⟨o, hoffer, h⟩ := returns_requireOffer_bind.mp h
  have hoffer' : w.book.offer i = some o := e ▸ hoffer
  obtain ⟨_, w2, e2, h⟩ := h.skip e
  obtain ⟨hpending, h⟩ := h.check
  obtain ⟨w3, hclose, h⟩ := h.seq
  have hmove := closeOffer_move (e2 ▸ hkeyed) (e2 ▸ hoffer') (by simpa using hpending) (by simp)
    hclose
  rw [h.last (f := World.book) rfl, ← e2]
  exact hmove

theorem rejectOffer_move (hkeyed : w.book.Keyed)
    (h : Returns (rejectOffer host env artist i) w u w') : Move .ordinary w.book w'.book := by
  obtain ⟨_, w1, e, h⟩ := h.skip (f := World.book) rfl
  obtain ⟨o, hoffer, h⟩ := returns_requireOffer_bind.mp h
  have hoffer' : w.book.offer i = some o := e ▸ hoffer
  obtain ⟨l, -, h⟩ := returns_requireListing_bind.mp h
  obtain ⟨_, w2, e2, h⟩ := h.skip e
  obtain ⟨hpending, h⟩ := h.check
  obtain ⟨w3, hclose, h⟩ := h.seq
  have hmove := closeOffer_move (e2 ▸ hkeyed) (e2 ▸ hoffer') (by simpa using hpending) (by simp)
    hclose
  rw [h.last (f := World.book) rfl, ← e2]
  exact hmove

theorem reclaimOffer_move (hkeyed : w.book.Keyed)
    (h : Returns (reclaimOffer host env i) w u w') : Move .ordinary w.book w'.book := by
  obtain ⟨o, hoffer, h⟩ := returns_requireOffer_bind.mp h
  obtain ⟨hpending, h⟩ := h.check
  obtain ⟨_, _, w2, e, h⟩ := h.skip₂ (f := World.book) rfl
  obtain ⟨w3, hclose, h⟩ := h.seq
  have hoffer' : w.book.offer i = some o := hoffer
  have hmove := closeOffer_move (e ▸ hkeyed) (e ▸ hoffer') (by simpa using hpending) (by simp) hclose
  rw [h.last (f := World.book) rfl, ← e]
  exact hmove

theorem sweepOffer_moves (hkeyed : w.book.Keyed)
    (h : Returns (sweepOffer host env i) w swept w') : Moves OnlyOrdinary w.book w'.book := by
  obtain ⟨stored, w1, hload, h⟩ := h.bind
  obtain ⟨hstored, rfl⟩ := hload.read
  cases stored with
  | none =>
    obtain ⟨-, rfl⟩ := h.pure
    exact .refl _
  | some o =>
    rcases returns_ite.mp h with ⟨⟨hpending, -⟩, h⟩ | ⟨-, h⟩
    · obtain ⟨w1, hsave, h⟩ := h.seq
      obtain ⟨w2, hremove, h⟩ := h.seq
      obtain ⟨w3, hpay, h⟩ := h.seq
      have hoffer : w.book.offer i = some o := hstored
      rw [h.last (payTo_book hpay).2.2, removePendingOffer_book hremove,
        saveOffer_book hsave (hkeyed.offer hoffer).1]
      exact .ordinary (.closeOffer i o .expired hoffer hpending (by simp))
    · obtain ⟨-, rfl⟩ := h.pure
      exact .refl _

theorem sweepExpiredOffers_moves (hkeyed : w.book.Keyed)
    (h : Returns (sweepExpiredOffers host env ids) w n w') : Moves OnlyOrdinary w.book w'.book := by
  obtain ⟨_, w1, e, h⟩ := h.skip (f := World.book) rfl
  obtain ⟨swept, w2, hsweep, h⟩ := h.bind
  have hmoves := moves_collect (fun hk hc => sweepOffer_moves hk hc) (e ▸ hkeyed) hsweep
  rw [h.last (f := World.book) rfl, ← e]
  exact hmoves

/-! ### Acceptance -/

/-- Once accepted, an offer is no longer pending. -/
theorem Book.not_pending_of_accepted {b : Book} {offer : Nat → Option Offer}
    (hoffers : b.offer = Function.update offer i (some { o with status := .accepted }))
    (ho' : b.offer i = some o') : o'.status ≠ .pending := by
  rw [hoffers, update_self] at ho'
  cases ho'
  simp

theorem acceptSettle_exits (hkeyed : w.book.Keyed) (hoffer : w.book.offer i = some o)
    (hlisting : w.book.listing k = some l) (hactive : l.status = .active)
    (hartist : l.artist = artist) (h : Returns (acceptSettle host env artist o i l k) w u w') :
    Exits k w.book
        ((w.book.setOffer i { o with status := .accepted }).pay ⟨.offer i, o.token⟩ o.amount)
        w'.book ∧
      ∃ os, (∀ o' ∈ os, o'.offerId ≠ i) ∧
        (l.deal k (.offer i) o.token o.amount).Settled host env [] (refundTransfers os) w w' := by
  subst hartist
  have hid := hkeyed.listing hlisting
  obtain ⟨w1, hsaveOffer, h⟩ := h.seq
  obtain ⟨w2, hsave, h⟩ := h.seq
  obtain ⟨w3, hindex, h⟩ := h.seq
  replace h := h.view
  obtain ⟨os, w4, hmark, h⟩ := h.bind
  obtain ⟨w5, hclear, h⟩ := h.seq
  obtain ⟨w6, haccepted, h⟩ := h.seq
  obtain ⟨⟨fee, payouts⟩, w7, hpay, h⟩ := h.bind
  obtain ⟨w8, hrecord, h⟩ := h.seq
  obtain ⟨w9, hrelease, hrefund⟩ := h.seq
  rw [hid.1] at hmark hclear
  have e1 := saveOffer_book hsaveOffer (hkeyed.offer hoffer).1
  have e2 := saveListing_book hsave hid.1
  obtain ⟨active, hremove, e3⟩ := removeFromActiveListings_book hindex
  rw [e2, e1] at hremove e3
  have hkeyed3 : w3.book.Keyed := by
    rw [e3]
    exact ((hkeyed.setStatus hoffer .accepted).setListing
      (l := { l with status := .sold, owner := some o.offerer }) hid.1 hid.2).setActive active
  -- the accepted offer is among the siblings, but no longer pending
  have hskip : ∀ j o', some i = some j → w3.book.offer j = some o' → o'.status ≠ .pending := by
    rintro j o' ⟨⟩ ho'
    exact Book.not_pending_of_accepted (congrArg Book.offer e3) ho'
  obtain ⟨⟨e4, howed, hskipped⟩, -⟩ := markRejected_spec hkeyed3 hskip hmark
  have htill : w6.till = w.till := by
    rw [Preserves.eq (f := World.till) haccepted, Preserves.eq (f := World.till) hclear,
      Preserves.eq (f := World.till) hmark, Preserves.eq (f := World.till) hindex,
      Preserves.eq (f := World.till) hsave, Preserves.eq (f := World.till) hsaveOffer]
  refine ⟨?_, os, fun o' ho' heq => hskipped o' ho' (heq ▸ rfl),
    Deal.Settled.of_parts (l.deal k (.offer i) o.token o.amount) [] ?_ (congrArg Prod.snd htill) hpay
      hrecord hrelease hrefund⟩
  · have e5 := haccepted.last (setPendingOffers_book hclear)
    have e6 := (l.deal k (.offer i) o.token o.amount).book_of_parts hpay hrecord hrelease hrefund
    have hids : w3.listingPendingOffers k = w.book.pendingOffers k :=
      congrFun (congrArg Book.pendingOffers e3) k
    simp only [howed, e5, e4, e3, hids] at e6
    exact ⟨l, { l with status := .sold, owner := some o.offerer }, active, hlisting, hactive,
      ⟨rfl, rfl, rfl⟩, by simp, hremove, e6⟩
  · rw [List.append_nil]
    exact congrArg Prod.fst htill

/-- `accept_offer` settles a pending offer on an active listing. -/
theorem acceptOffer_cases (h : Returns (acceptOffer host env artist i) w u w') :
    ∃ o l w1 w2, w1.desk = w.desk ∧ w.offer i = some o ∧ o.status = .pending ∧
      w.listing o.listingId = some l ∧ l.status = .active ∧ l.artist = artist ∧
      w'.desk = w2.desk ∧ w'.events = w2.events ∧
      Returns (acceptSettle host env artist o i l o.listingId) w1 () w2 := by
  obtain ⟨_, _, w2, e, h⟩ := h.skip₂ (f := World.desk) rfl
  obtain ⟨o, hoffer, h⟩ := returns_requireOffer_bind.mp h
  have hoffer' : w.offer i = some o := by
    change w.desk.1.1.offer i = some o
    rw [← e]
    exact hoffer
  obtain ⟨_, w3, e3, h⟩ := h.skip e
  obtain ⟨l, hlisting, h⟩ := returns_requireListing_bind.mp h
  have hlisting' : w.listing o.listingId = some l := by
    change w.desk.1.1.listing o.listingId = some l
    rw [← e3]
    exact hlisting
  obtain ⟨_, w4, e4, h⟩ := h.skip e3
  obtain ⟨hartist, h⟩ := h.check
  obtain ⟨hopen, h⟩ := h.check
  obtain ⟨hpending, hactive⟩ : o.status = .pending ∧ l.status = .active := by simpa using hopen
  obtain ⟨_, _, _, w8, e8, h⟩ := h.skip₃ e4
  obtain ⟨w9, hsettle, hlock⟩ := h.seq
  exact ⟨o, l, w8, w9, e8, hoffer', hpending, hlisting', hactive, not_not.mp hartist,
    Preserves.eq hlock, Preserves.eq hlock, hsettle⟩

theorem acceptOffer_move (hkeyed : w.book.Keyed)
    (h : Returns (acceptOffer host env artist i) w u w') : Move .ordinary w.book w'.book := by
  obtain ⟨o, l, w1, w2, e, hoffer, hpending, hlisting, hactive, hartist, e', -, hsettle⟩ :=
    acceptOffer_cases h
  have e1 := book_of_desk e
  have hexits := (acceptSettle_exits (e1 ▸ hkeyed) (by rw [e1]; exact hoffer)
    (by rw [e1]; exact hlisting) hactive hartist hsettle).1
  rw [e1] at hexits
  rw [book_of_desk e']
  exact hexits.move (.offer i o hoffer hpending rfl)

/-! ### Counter-offers -/

/-- The checks of `counter_offer`. -/
structure CounterOfferDue (host : Host C) (env : Env) (w : World C) (artist : Address)
    (parentOfferId : Nat) (amount : Int) (token : Address) : Prop where
  authorised : env.auth artist = true
  positive : 0 < amount
  parent : ∃ o l, w.offer parentOfferId = some o ∧ o.status = .pending ∧
    w.listing o.listingId = some l ∧ l.artist = artist ∧ l.status = .active ∧ token ≠ l.collection
  asset : token ≠ host.self
  accepted : tokenAccepted w.config token = true

namespace Book

variable {b : Book} {ids : List Nat}

/-- An offer that is closed may leave the list before or after the others are rejected. -/
theorem rejected_erase (h : ∀ o, b.offer i = some o → o.status ≠ .pending) :
    b.rejected (ids.erase i) = b.rejected ids := by
  funext j
  by_cases hj : j = i
  · subst hj
    have hself : ∀ js, b.rejected js j = b.offer j := by
      intro js
      cases ho : b.offer j with
      | none => simp [rejected, ho]
      | some o => simp [rejected, ho, h o ho]
    rw [hself, hself]
  · simp [rejected, List.mem_erase_of_ne hj]

theorem refund_erase (h : ∀ o, b.offer i = some o → o.status ≠ .pending) (p : Purse) :
    b.refund (ids.erase i) p = b.refund ids p := by
  unfold refund
  split
  · rename_i j _
    cases ho : b.offer j with
    | none => rfl
    | some o =>
      by_cases hj : j = i
      · subst hj
        simp [h o ho]
      · simp [List.mem_erase_of_ne hj]
  · rfl

end Book

/-- Marking the siblings of an offer that has just left the pending set is marking the whole set: the
offer itself is closed and passed over. -/
theorem closeSiblings_book {w1 : World C}
    (hkeyed : w1.book.Keyed) (hclosed : ∀ o, w1.book.offer i = some o → o.status ≠ .pending)
    (hleave : w2.book = w1.book.setPending k ((w1.book.pendingOffers k).erase i))
    (hmark : Returns (markRejected true (some i) k (w2.listingPendingOffers k)) w2 os w3)
    (hclear : Returns (clearPendingOffers k) w3 u w4) :
    w4.book = (w1.book.setOffers (w1.book.rejected (w1.book.pendingOffers k))).setPending k [] ∧
      (∀ p, owedTo os p = w1.book.refund (w1.book.pendingOffers k) p) ∧ ∀ o ∈ os, o.offerId ≠ i := by
  have hids : w2.listingPendingOffers k = (w1.book.pendingOffers k).erase i := by
    have h := congrFun (congrArg Book.pendingOffers hleave) k
    exact h.trans (update_self ..)
  have hskip : ∀ j o, some i = some j → w2.book.offer j = some o → o.status ≠ .pending := by
    rintro j o ⟨⟩ ho
    rw [hleave] at ho
    exact hclosed o ho
  obtain ⟨⟨hbook, howed, hskipped⟩, -⟩ :=
    markRejected_spec (hleave ▸ hkeyed.setPending k _) hskip hmark
  have hrejected : w2.book.rejected (w2.listingPendingOffers k) =
      w1.book.rejected (w1.book.pendingOffers k) := by
    rw [hids, ← Book.rejected_erase hclosed, hleave]
    rfl
  refine ⟨?_, fun p => ?_, fun o ho heq => hskipped o ho (heq ▸ rfl)⟩
  · rw [setPendingOffers_book hclear, hbook, hrejected, hleave]
    simp only [Book.setOffers, Book.setPending, update_idem]
  · rw [howed, hids, ← Book.refund_erase hclosed, hleave]
    rfl

theorem acceptCounterSettle_exits (hkeyed : w.book.Keyed) (hoffer : w.book.offer i = some o)
    (hlisting : w.book.listing k = some l) (hactive : l.status = .active)
    (h : Returns (acceptCounterSettle host env buyer o i l k) w u w') :
    Exits k w.book
        (((w.book.setOffer i { o with status := .accepted }).deposit ⟨.offer i, o.token⟩
          o.amount).pay ⟨.offer i, o.token⟩ o.amount) w'.book ∧
      ∃ os, (∀ o' ∈ os, o'.offerId ≠ i) ∧ (l.deal k (.offer i) o.token o.amount).Settled host env
          [⟨.deposit, .offer i, o.token, buyer, o.amount⟩] (refundTransfers os) w w' := by
  have hid := hkeyed.listing hlisting
  obtain ⟨w1, hsaveOffer, h⟩ := h.seq
  obtain ⟨w2, hsave, h⟩ := h.seq
  obtain ⟨w3, hindex, h⟩ := h.seq
  obtain ⟨w4, hleave, h⟩ := h.seq
  replace h := h.view
  obtain ⟨os, w5, hmark, h⟩ := h.bind
  obtain ⟨w6, hclear, h⟩ := h.seq
  obtain ⟨w7, haccepted, h⟩ := h.seq
  obtain ⟨w8, hdeposit, h⟩ := h.seq
  obtain ⟨⟨fee, payouts⟩, w9, hpay, h⟩ := h.bind
  obtain ⟨w10, hrecord, h⟩ := h.seq
  obtain ⟨w11, hrelease, hrefund⟩ := h.seq
  have e1 := saveOffer_book hsaveOffer (hkeyed.offer hoffer).1
  have e2 := saveListing_book hsave hid.1
  obtain ⟨active, hremove, e3⟩ := removeFromActiveListings_book hindex
  have e4 := removePendingOffer_book hleave
  rw [e2, e1] at hremove e3
  have hkeyed3 : w3.book.Keyed := by
    rw [e3]
    exact ((hkeyed.setStatus hoffer .accepted).setListing
      (l := { l with status := .sold, owner := some buyer }) hid.1 hid.2).setActive active
  have hclosed : ∀ o', w3.book.offer i = some o' → o'.status ≠ .pending := by
    intro o' ho'
    exact Book.not_pending_of_accepted (congrArg Book.offer e3) ho'
  obtain ⟨e6, howed, hskipped⟩ := closeSiblings_book hkeyed3 hclosed e4 hmark hclear
  obtain ⟨-, htransfers, e8⟩ := depositFrom_book hdeposit
  have htill : w7.till = w.till := by
    rw [Preserves.eq (f := World.till) haccepted, Preserves.eq (f := World.till) hclear,
      Preserves.eq (f := World.till) hmark, Preserves.eq (f := World.till) hleave,
      Preserves.eq (f := World.till) hindex, Preserves.eq (f := World.till) hsave,
      Preserves.eq (f := World.till) hsaveOffer]
  have haccounts : w8.accounts = w.accounts := by
    rw [Preserves.eq (f := World.accounts) hdeposit]
    exact congrArg Prod.snd htill
  refine ⟨?_, os, hskipped, Deal.Settled.of_parts (l.deal k (.offer i) o.token o.amount)
    [⟨.deposit, .offer i, o.token, buyer, o.amount⟩] ?_ haccounts hpay hrecord hrelease hrefund⟩
  · have e7 := haccepted.last e6
    have e9 := (l.deal k (.offer i) o.token o.amount).book_of_parts hpay hrecord hrelease hrefund
    simp only [howed, e8, e7, e3] at e9
    exact ⟨l, { l with status := .sold, owner := some buyer }, active, hlisting, hactive,
      ⟨rfl, rfl, rfl⟩, by simp, hremove, e9⟩
  · rw [htransfers, show w7.transfers = w.transfers from congrArg Prod.fst htill]

/-- `accept_counter_offer` settles a pending counter-offer on an active listing. -/
theorem acceptCounterOffer_cases (h : Returns (acceptCounterOffer host env buyer i) w u w') :
    ∃ o l w1 w2, w1.desk = w.desk ∧ w.offer i = some o ∧ o.status = .pending ∧
      (w.counterOfferParent i).isSome ∧ w.listing o.listingId = some l ∧ l.status = .active ∧
      w'.desk = w2.desk ∧ w'.events = w2.events ∧
      Returns (acceptCounterSettle host env buyer o i l o.listingId) w1 () w2 := by
  obtain ⟨_, _, w2, e, h⟩ := h.skip₂ (f := World.desk) rfl
  obtain ⟨o, hoffer, h⟩ := returns_requireOffer_bind.mp h
  have hoffer' : w.offer i = some o := by
    change w.desk.1.1.offer i = some o
    rw [← e]
    exact hoffer
  obtain ⟨hcounter, h⟩ := h.check
  have hcounter' : (w.counterOfferParent i).isSome := by
    change (w.desk.1.1.counterParent i).isSome
    rw [← e, Option.isSome_iff_ne_none]
    exact fun hnone => hcounter (Option.isNone_iff_eq_none.mpr hnone)
  obtain ⟨hpending, h⟩ := h.check
  obtain ⟨_, _, w4, e4, h⟩ := h.skip₂ e
  obtain ⟨l, hlisting, h⟩ := returns_requireListing_bind.mp h
  have hlisting' : w.listing o.listingId = some l := by
    change w.desk.1.1.listing o.listingId = some l
    rw [← e4]
    exact hlisting
  obtain ⟨_, w5, e5, h⟩ := h.skip e4
  obtain ⟨hactive, h⟩ := h.check
  obtain ⟨_, _, w7, e7, h⟩ := h.skip₂ e5
  obtain ⟨w8, hsettle, hlock⟩ := h.seq
  exact ⟨o, l, w7, w8, e7, hoffer', by simpa using hpending, hcounter', hlisting',
    by simpa using hactive, Preserves.eq hlock,
    Preserves.eq hlock, hsettle⟩

theorem acceptCounterOffer_move (hkeyed : w.book.Keyed)
    (h : Returns (acceptCounterOffer host env buyer i) w u w') : Move .ordinary w.book w'.book := by
  obtain ⟨o, l, w1, w2, e, hoffer, hpending, hcounter, hlisting, hactive, e', -, hsettle⟩ :=
    acceptCounterOffer_cases h
  have e1 := book_of_desk e
  have hexits := (acceptCounterSettle_exits (e1 ▸ hkeyed) (by rw [e1]; exact hoffer)
    (by rw [e1]; exact hlisting) hactive hsettle).1
  rw [e1] at hexits
  rw [book_of_desk e']
  exact hexits.move (.counter i o hoffer hpending rfl hcounter)

/-- The book after `counter_offer`: the parent is closed with a refund, and an offer that nobody has
paid for is opened in answer to it. -/
def Book.counterOffer (b : Book) (parent : Nat) (o counter : Offer) : Book :=
  { (b.closeOffer parent o .rejected).openOffer counter with
    counterParent := Function.update b.counterParent counter.offerId (some parent) }

theorem counterOffer_book (hkeyed : w.book.Keyed)
    (h : Returns (counterOffer host env artist parentOfferId amount token expiresAt) w id w') :
    CounterOfferDue host env w artist parentOfferId amount token ∧ id = w.book.offerCount + 1 ∧
      ∃ o, w.book.offer parentOfferId = some o ∧ w'.book = w.book.counterOffer parentOfferId o
          (.opened env id o.listingId artist amount token expiresAt) := by
  obtain ⟨hauth, h⟩ := h.check
  obtain ⟨hamount, h⟩ := h.check
  obtain ⟨o, hoffer, h⟩ := returns_requireOffer_bind.mp h
  obtain ⟨hpending, h⟩ := h.check
  obtain ⟨l, hlisting, h⟩ := returns_requireListing_bind.mp h
  obtain ⟨hartist, h⟩ := h.check
  obtain ⟨hactive, h⟩ := h.check
  obtain ⟨w1, hasset, h⟩ := h.seq
  obtain ⟨hself, hlast⟩ := hasset.check
  obtain ⟨hcollection, rfl⟩ := hlast.passed
  obtain ⟨w1, hpolicy, h⟩ := h.seq
  have hcheck := hpolicy.view
  obtain ⟨haccepted, rfl⟩ := hcheck.passed
  have hdue : CounterOfferDue host env w artist parentOfferId amount token :=
    ⟨by simpa using hauth, by omega, ⟨o, l, hoffer, by simpa using hpending, hlisting,
      by simpa using hartist, by simpa using hactive, fun heq => hcollection (by rw [heq])⟩, hself,
      by simpa using haccepted⟩
  have hoffer' : w.book.offer parentOfferId = some o := hoffer
  -- the parent
  obtain ⟨w1, hsave, h⟩ := h.seq
  obtain ⟨w2, hremove, h⟩ := h.seq
  obtain ⟨w3, hpay, h⟩ := h.seq
  have e3 : w3.book = w.book.closeOffer parentOfferId o .rejected := by
    rw [(payTo_book hpay).2.2, removePendingOffer_book hremove,
      saveOffer_book hsave (hkeyed.offer hoffer').1]
    rfl
  -- the counter-offer
  obtain ⟨_, w4, e4, h⟩ := h.skip e3
  obtain ⟨i, w5, hopen, h⟩ := h.bind
  obtain ⟨hid, e5⟩ := openOffer_book hopen
  obtain ⟨w6, hset, h⟩ := h.seq
  have e6 := setCounterOfferParent_book hset
  obtain ⟨_, _, w8, e8, h⟩ := h.skip₂ e6
  obtain ⟨rfl, rfl⟩ := h.pure
  rw [e4] at hid e5
  refine ⟨hdue, hid, o, hoffer', ?_⟩
  rw [e8, e5]
  rfl

/-- `counter_offer` closes its parent with a refund, and then opens an offer that nobody has paid
for. -/
theorem counterOffer_moves (hkeyed : w.book.Keyed)
    (h : Returns (counterOffer host env artist parentOfferId amount token expiresAt) w id w') :
    CounterOfferDue host env w artist parentOfferId amount token ∧
      Moves (fun kind => kind = .ordinary ∨ kind = .counter (w.book.offerCount + 1)) w.book
        w'.book := by
  obtain ⟨hdue, hid, o, hoffer, hbook⟩ := counterOffer_book hkeyed h
  refine ⟨hdue, ?_⟩
  obtain ⟨o', l, ho', hpending, hlisting, -, hactive, -⟩ := hdue.parent
  obtain rfl : o' = o := Option.mem_unique ho' hoffer
  have hclose : Move .ordinary w.book (w.book.closeOffer parentOfferId o' .rejected) :=
    .closeOffer parentOfferId o' .rejected hoffer hpending (by simp)
  have hcounter := Move.counterOffer (b := w.book.closeOffer parentOfferId o' .rejected)
    (.opened env id o'.listingId artist amount token expiresAt) l parentOfferId hid rfl
    hdue.positive hlisting hactive
  rw [hbook]
  exact (Moves.single (.inl rfl) hclose).trans (.single (.inr (congrArg Kind.counter hid)) hcounter)

theorem claimRoyalty_move
    (h : Returns (claimRoyalty host env recipient settlementId isListing) w r w') :
    Move .ordinary w.book w'.book := by
  obtain ⟨_, _, w2, e, h⟩ := h.skip₂ (f := World.book) rfl
  obtain ⟨claim, w3, e, h⟩ := h.skip e
  obtain ⟨_, w4, e, h⟩ := h.skip e
  obtain ⟨w5, hpay, h⟩ := h.seq
  rw [h.last (payTo_book hpay).2.2, e]
  exact .claimRoyalty settlementId isListing claim.token claim.amount

/-- Offer calls other than `counter_offer` make ordinary moves. -/
theorem offerOp_moves {op : OfferOp} (hop : ∀ a i x t e, op ≠ .counterOffer a i x t e)
    (hkeyed : w.book.Keyed) (h : Returns (op.exec host env) w u w') :
    Moves OnlyOrdinary w.book w'.book := by
  cases op with
  | makeOffer offerer k amount token expiresAt =>
    obtain ⟨id, h⟩ := h.discard
    exact .ordinary (makeOffer_move h)
  | withdrawOffer offerer i => exact .ordinary (withdrawOffer_move hkeyed h)
  | rejectOffer artist i => exact .ordinary (rejectOffer_move hkeyed h)
  | acceptOffer artist i => exact .ordinary (acceptOffer_move hkeyed h)
  | reclaimOffer i => exact .ordinary (reclaimOffer_move hkeyed h)
  | sweepExpiredOffers ids =>
    obtain ⟨n, h⟩ := h.discard
    exact sweepExpiredOffers_moves hkeyed h
  | counterOffer artist i amount token expiresAt => exact (hop _ _ _ _ _ rfl).elim
  | acceptCounterOffer buyer i => exact .ordinary (acceptCounterOffer_move hkeyed h)
  | claimRoyalty recipient settlementId isListing =>
    obtain ⟨r, h⟩ := h.discard
    exact .ordinary (claimRoyalty_move h)

end ElcareHub.Marketplace
