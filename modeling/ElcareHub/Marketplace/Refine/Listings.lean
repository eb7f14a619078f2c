import ElcareHub.Marketplace.Refine.Keyed
import ElcareHub.Marketplace.Refine.Payout

/-!
# Listing calls make moves

Creation, updates, purchase, cancellation and expiry, each as the move of the book it makes. The
exits write the listing, the index, the offers and the escrow record in different orders; on the book
they commute.
-/

namespace ElcareHub.Marketplace

open Call Function

set_option synthInstance.maxSize 100000000

variable {C : Type} {host : Host C} {env : Env} {w w' : World C} {u : Unit} {k id : Nat} {l : Listing}
  {b : Book} {artist buyer : Address}
variable {b' b1 : Book} {caller seller collection recipient admin : Address}
  {tokenId feeBps : Nat} {r fromBuyer : Bool} {w1 w2 w3 w4 : World C} {fee : Int}
  {rs : List Recipient} {payouts : List RecipientPayout} {os : List Offer}

/-- Only ordinary moves. -/
def OnlyOrdinary (kind : Kind) : Prop := kind = .ordinary

theorem Moves.ordinary (h : Move .ordinary b b') : Moves OnlyOrdinary b b' :=
  .single rfl h

/-! ### Shared parts -/

theorem returns_requireListing :
    Returns (requireListing k) w l w' ↔ w.listing k = some l ∧ w = w' := by
  simp only [returns_bind, returns_view, returns_orAbort]
  constructor
  · rintro ⟨_, _, ⟨rfl, rfl⟩, hl, rfl⟩
    exact ⟨hl, rfl⟩
  · rintro ⟨hl, rfl⟩
    exact ⟨_, _, ⟨rfl, rfl⟩, hl, rfl⟩

theorem returns_requireListing_bind {β : Type} {f : Listing → Tx C β} {b : β} :
    Returns (requireListing k >>= f) w b w' ↔ ∃ l, w.listing k = some l ∧ Returns (f l) w b w' :=
  returns_lookup fun _ _ => returns_requireListing

/-- After its circuit breaker, an entry point asks for the authority of its caller. -/
theorem authorised_of_returns {rest : Unit → Unit → Tx C α}
    (h : Returns (breaker >>= fun r => requireAuth env caller >>= rest r) w a w') :
    env.auth caller = true := by
  obtain ⟨w1, -, h⟩ := h.seq
  obtain ⟨w2, hauth, -⟩ := h.seq
  simpa using (hauth.passed).1

/-- A token is taken into custody only when no record for it exists. -/
theorem escrowNft_book (h : Returns (escrowNft host seller collection tokenId isListing id) w u w') :
    w.book.escrow (collection, tokenId) = none ∧
      w'.book = w.book.setEscrow (collection, tokenId) (some ⟨isListing, id⟩) := by
  obtain ⟨_, _, w2, e, h⟩ := h.skip₂ (f := World.book) rfl
  obtain ⟨hfree, h⟩ := h.check
  obtain ⟨w5, h3, h⟩ := h.seq
  have hset : w5.book = w2.book.setEscrow _ _ := congrArg World.book h3.update.symm
  rw [e] at hset
  refine ⟨?_, h.last hset⟩
  rw [← e]
  exact Option.not_isSome_iff_eq_none.mp hfree

theorem releaseNft_book (h : Returns (releaseNft host env collection tokenId recipient id) w u w') :
    w'.book = w.book.setEscrow (collection, tokenId) none := by
  obtain ⟨_, w1, e, h⟩ := h.skip (f := World.book) rfl
  obtain ⟨w2, h1, h⟩ := h.seq
  have hclear := clearEscrowRecord_book h1
  rw [e] at hclear
  exact h.last hclear

theorem releaseListing_book (h : Returns (releaseListing host env l recipient id) w u w') :
    w'.book = w.book.setEscrow (l.collection, l.tokenId) none := by
  unfold releaseListing at h
  split at h
  · obtain ⟨_, w1, e, h⟩ := h.skip (f := World.book) rfl
    obtain ⟨w2, h1, h⟩ := h.seq
    have hclear := clearEscrowRecord_book h1
    rw [e] at hclear
    exact h.last hclear
  · exact releaseNft_book h

/-! ### Creation and updates -/

theorem createListingInner_move (h : Returns (createListingInner host env artist request) w id w') :
    Move .ordinary w.book w'.book := by
  obtain ⟨_, _, _, _, w4, e, h⟩ := h.skip₄ (f := World.book) rfl
  obtain ⟨_, _, _, _, w8, e, h⟩ := h.skip₄ e
  obtain ⟨_, _, w10, e, h⟩ := h.skip₂ e
  obtain ⟨listingId, w11, hcount, h⟩ := h.bind
  obtain ⟨hid, hw11⟩ := returns_counter hcount
  have e1 : w11.book = { w10.book with listingCount := listingId } := congrArg World.book hw11
  obtain ⟨w12, hsave, h⟩ := h.seq
  obtain ⟨_, w13, e2, h⟩ := h.skip (saveListing_book hsave rfl)
  obtain ⟨w14, hadd, h⟩ := h.seq
  obtain ⟨active, hactive, e3⟩ := addToActiveListings_book hadd
  obtain ⟨_, w15, e4, h⟩ := h.skip e3
  obtain ⟨w16, hescrow, h⟩ := h.seq
  obtain ⟨hfree, e5⟩ := escrowNft_book hescrow
  obtain ⟨_, w17, e6, h⟩ := h.skip e5
  have hfinal := h.last e6
  replace hid := hid.trans (congrArg (·.listingCount + 1) e)
  rw [e1, e] at e2
  rw [e2] at hactive e4
  rw [e4] at hfree hfinal
  rw [hfinal]
  subst hid
  exact .openListing _ active rfl rfl hfree hactive

/-- A listing is saved again with the same token and status. -/
theorem editListing_move {l' : Listing}
    (h : Returns (saveListing l') w u w') (e : w.book = b) (hkeyed : b.Keyed)
    (hlisting : b.listing k = some l) (hsame : l.SameAsset l') (hstatus : l'.status = l.status) :
    Move .ordinary b w'.book := by
  rw [saveListing_book h (hsame.id.trans (hkeyed.listing hlisting).1), e]
  exact .editListing k l l' hlisting hsame hstatus

theorem updateListingInner_move (hkeyed : w.book.Keyed)
    (h : Returns (updateListingInner host env artist request) w r w') :
    Move .ordinary w.book w'.book := by
  obtain ⟨l, hlisting, h⟩ := returns_requireListing_bind.mp h
  obtain ⟨_, _, _, _, w4, e, h⟩ := h.skip₄ rfl
  obtain ⟨_, _, _, _, w8, e, h⟩ := h.skip₄ e
  obtain ⟨_, _, w10, e, h⟩ := h.skip₂ e
  obtain ⟨w11, hsave, h⟩ := h.seq
  have hmove := editListing_move hsave e hkeyed hlisting ⟨rfl, rfl, rfl⟩ rfl
  obtain ⟨_, _, w13, e', h⟩ := h.skip₂ (f := World.book) rfl
  rw [h.last e']
  exact hmove

theorem updateListingPrice_move (hkeyed : w.book.Keyed)
    (h : Returns (updateListingPrice env seller k newPrice) w r w') :
    Move .ordinary w.book w'.book := by
  obtain ⟨_, _, w2, e, h⟩ := h.skip₂ (f := World.book) rfl
  obtain ⟨l, hlisting, h⟩ := returns_requireListing_bind.mp h
  have hlisting' : w.book.listing k = some l := e ▸ hlisting
  obtain ⟨_, _, _, _, w6, e, h⟩ := h.skip₄ e
  obtain ⟨_, w7, e, h⟩ := h.skip e
  obtain ⟨w8, hsave, h⟩ := h.seq
  have hmove := editListing_move hsave e hkeyed hlisting' ⟨rfl, rfl, rfl⟩ rfl
  obtain ⟨_, w9, e', h⟩ := h.skip (f := World.book) rfl
  rw [h.last e']
  exact hmove

theorem setListingReservation_move (hkeyed : w.book.Keyed)
    (h : Returns (setListingReservation env seller k reservedFor start stop) w u w') :
    Move .ordinary w.book w'.book := by
  obtain ⟨_, w1, e, h⟩ := h.skip (f := World.book) rfl
  obtain ⟨l, hlisting, h⟩ := returns_requireListing_bind.mp h
  have hlisting' : w.book.listing k = some l := e ▸ hlisting
  obtain ⟨_, _, _, w4, e, h⟩ := h.skip₃ e
  obtain ⟨w5, hsave, h⟩ := h.seq
  have hmove := editListing_move hsave e hkeyed hlisting' ⟨rfl, rfl, rfl⟩ rfl
  rw [h.last (f := World.book) rfl]
  exact hmove

theorem reconcileListingOwner_moves (hkeyed : w.book.Keyed)
    (h : Returns (reconcileListingOwner env caller k expectedOwner newOwner) w u w') :
    Moves OnlyOrdinary w.book w'.book := by
  obtain ⟨_, w1, e, h⟩ := h.skip (f := World.book) rfl
  obtain ⟨l, hlisting, h⟩ := returns_requireListing_bind.mp h
  have hlisting' : w.book.listing k = some l := e ▸ hlisting
  obtain ⟨_, w2, e, h⟩ := h.skip e
  split at h
  · exact .of_eq (h.last e)
  · obtain ⟨w3, hsave, h⟩ := h.seq
    have hmove := editListing_move hsave e hkeyed hlisting' ⟨rfl, rfl, rfl⟩ rfl
    rw [h.last (f := World.book) rfl]
    exact .ordinary hmove

/-! ### Exits -/

/-- Listing `k` leaves the market: `b1` is the book with what was settled, and every open offer of the
listing is refunded. -/
def Exits (k : Nat) (b b1 b' : Book) : Prop :=
  ∃ l l' active, b.listing k = some l ∧ l.status = .active ∧ l.SameAsset l' ∧ l'.status ≠ .active ∧
    b.active.remove k = some active ∧ b' = (b1.refundPending k).closeListing k l' active

theorem Exits.move (h : Exits k b b1 b') (hpayment : Payment k b b1) : Move .ordinary b b' := by
  obtain ⟨l, l', active, hlisting, hactive, hsame, hclosed, hremove, rfl⟩ := h
  exact .retire k l l' active b1 hlisting hactive hsame hclosed hremove hpayment

theorem Exits.closed (h : Exits k b b1 b') : ∃ l', b'.listing k = some l' ∧ l'.status ≠ .active := by
  obtain ⟨l, l', active, -, -, -, hclosed, -, rfl⟩ := h
  exact ⟨l', update_self .., hclosed⟩

/-- The payout of a deal and its record, the release of the token, and the refunds. -/
theorem Deal.Settled.of_parts (d : Deal) [Preserves World.transfers release]
    [Preserves World.accounting release] [∀ e, Keeps World.events (e ∈ ·) release]
    (before : List Transfer) (hbefore : w1.transfers = w.transfers ++ before)
    (haccounts : w1.accounts = w.accounts) (hpay : Returns (distributePayoutTracked host env d.account d.token d.collection d.gross d.seller
      d.recipients buyer fromBuyer feeBps d.id d.isListing) w1 (fee, payouts) w2) (hrecord : Returns (recordSettlement env d.id d.listingId d.auctionId rs d.token d.gross fee
      payouts) w2 () w3) (hrelease : Returns release w3 () w4)
    (hrefund : Returns (refundOffers host env os) w4 u w') :
    d.Settled host env
      (before ++ if fromBuyer then [⟨.deposit, d.account, d.token, buyer, d.gross⟩] else [])
      (refundTransfers os) w w' := by
  obtain ⟨legs, hlegs, rfl, rfl, htransfers, -, haccounting, hconfig, -⟩ :=
    distributePayoutTracked_spec hpay
  have hrefundEvents : Preserves World.events (refundOffers host env os) := by
    infer_instance
  have hrefundAccounting : Preserves World.accounting (refundOffers host env os) := by
    infer_instance
  have hpaid := Keeps.keeps hrelease (recordSettlement_event hrecord)
  refine ⟨legs, hlegs.congr haccounts, ?_, ?_, hrefundEvents.eq hrefund ▸ hpaid⟩
  · rw [(refundOffers_book hrefund).1, Preserves.eq (f := World.transfers) hrelease,
      Preserves.eq (f := World.transfers) hrecord, htransfers, hbefore]
    simp only [List.append_assoc]
  · have hnone : w2.config.treasury = none → legs.collected = 0 := by
      rw [hconfig]
      exact hlegs.collected_of_no_treasury
    rw [hrefundAccounting.eq hrefund, Preserves.eq (f := World.accounting) hrelease,
      recordSettlement_accounting hlegs.gross_nonneg hlegs.collected_nonneg hnone hrecord,
      haccounting, show w1.accounting = w.accounting from congrArg (·.2.2) haccounts]

/-- What the same parts leave in the book: the deal paid from its purse, the token's record cleared and
the refunds paid. -/
theorem Deal.book_of_parts (d : Deal) (hpay : Returns (distributePayoutTracked host env d.account d.token d.collection d.gross d.seller
      d.recipients buyer fromBuyer feeBps d.id d.isListing) w1 (fee, payouts) w2) (hrecord : Returns (recordSettlement env d.id d.listingId d.auctionId rs d.token d.gross fee
      payouts) w2 () w3) (hrelease : Returns (releaseListing host env l recipient id) w3 () w4)
    (hrefund : Returns (refundOffers host env os) w4 u w') :
    let b := ((if fromBuyer then w1.book.deposit ⟨d.account, d.token⟩ d.gross else w1.book).pay
      ⟨d.account, d.token⟩ d.gross).setEscrow (l.collection, l.tokenId) none
    w'.book = { b with paidOut := fun p => b.paidOut p + owedTo os p } := by
  obtain ⟨legs, -, -, -, -, hpaid, -⟩ := distributePayoutTracked_spec hpay
  rw [(refundOffers_book hrefund).2, releaseListing_book hrelease, hrecord.last hpaid]

/-- An active listing is closed and its open offers are refunded, nothing else being settled. -/
theorem Move.retireUnsold
    (hlisting : b.listing k = some l) (hactive : l.status = .active)
    (hremove : b.active.remove k = some active) :
    Move .ordinary b
      ((b.refundPending k).closeListing k { l with status := .cancelled } active) :=
  .retire k l _ active b hlisting hactive ⟨rfl, rfl, rfl⟩ (by simp) hremove .nothing

theorem buyExpired_move (hkeyed : w.book.Keyed)
    (hlisting : w.book.listing k = some l) (hactive : l.status = .active)
    (h : Returns (buyExpired host env l k exp) w u w') : Move .ordinary w.book w'.book := by
  have hid := hkeyed.listing hlisting
  obtain ⟨w1, hsave, h⟩ := h.seq
  obtain ⟨w2, hindex, h⟩ := h.seq
  obtain ⟨w3, hrefund, h⟩ := h.seq
  have e1 := saveListing_book hsave hid.1
  obtain ⟨active, hremove, e2⟩ := removeFromActiveListings_book hindex
  rw [e1] at hremove e2
  have hkeyed2 : w2.book.Keyed := by
    rw [e2]
    exact (hkeyed.setListing (l := { l with status := .cancelled }) hid.1 hid.2).setActive active
  have e3 := refundPendingOffers_book hkeyed2 hrefund
  obtain ⟨_, _, w5, e5, h⟩ := h.skip₂ e3
  rw [releaseListing_book h, e5, e2]
  exact Move.retireUnsold hlisting hactive hremove

/-- The purchase: the sale is settled on its own purse, the open offers are refunded. -/
theorem buySettle_exits (hkeyed : w.book.Keyed)
    (hlisting : w.book.listing k = some l) (hactive : l.status = .active)
    (h : Returns (buySettle host env buyer l k) w u w') : Exits k w.book
        ((w.book.deposit ⟨.sale k, l.token⟩ l.price).pay ⟨.sale k, l.token⟩ l.price) w'.book ∧
      ∃ os, (l.deal k (.sale k) l.token l.price).Settled host env
        [⟨.deposit, .sale k, l.token, buyer, l.price⟩] (refundTransfers os) w w' := by
  have hid := hkeyed.listing hlisting
  obtain ⟨w1, hsave, h⟩ := h.seq
  obtain ⟨w2, hindex, h⟩ := h.seq
  replace h := h.view
  obtain ⟨os, w3, hmark, h⟩ := h.bind
  obtain ⟨w4, hclear, h⟩ := h.seq
  obtain ⟨w5, hsold, h⟩ := h.seq
  obtain ⟨⟨fee, payouts⟩, w6, hpay, h⟩ := h.bind
  obtain ⟨w7, hrecord, h⟩ := h.seq
  obtain ⟨w8, hrelease, hrefund⟩ := h.seq
  have htill : w5.till = w.till := by
    rw [Preserves.eq (f := World.till) hsold, Preserves.eq (f := World.till) hclear,
      Preserves.eq (f := World.till) hmark, Preserves.eq (f := World.till) hindex,
      Preserves.eq (f := World.till) hsave]
  refine ⟨?_, os, Deal.Settled.of_parts (l.deal k (.sale k) l.token l.price) [] ?_
    (congrArg Prod.snd htill) hpay hrecord hrelease hrefund⟩
  · have e1 := saveListing_book hsave hid.1
    obtain ⟨active, hremove, e2⟩ := removeFromActiveListings_book hindex
    rw [e1] at hremove e2
    have hkeyed2 : w2.book.Keyed := by
      rw [e2]
      exact (hkeyed.setListing (l := { l with status := .sold, owner := some buyer }) hid.1
        hid.2).setActive active
    obtain ⟨⟨e3, howed, -⟩, -⟩ := markRejected_spec hkeyed2 (by simp) hmark
    have e4 := hsold.last (setPendingOffers_book hclear)
    have e5 := (l.deal k (.sale k) l.token l.price).book_of_parts hpay hrecord hrelease hrefund
    have hids : w2.listingPendingOffers k = w.book.pendingOffers k :=
      congrFun (congrArg Book.pendingOffers e2) k
    simp only [howed, e4, e3, e2, hids] at e5
    exact ⟨l, { l with status := .sold, owner := some buyer }, active, hlisting, hactive,
      ⟨rfl, rfl, rfl⟩, by simp, hremove, e5⟩
  · rw [List.append_nil]
    exact congrArg Prod.fst htill

theorem transitionListingToCancelled_move
    (hkeyed : w.book.Keyed) (hlisting : w.book.listing k = some l)
    (h : Returns (transitionListingToCancelled host env l k cancelledBy reason true) w u w') :
    Move .ordinary w.book w'.book := by
  have hid := hkeyed.listing hlisting
  obtain ⟨hactive, h⟩ := h.check
  obtain ⟨w2, hwhen, h⟩ := h.seq
  obtain ⟨-, hrefund⟩ | ⟨hfalse, -⟩ := hwhen.when
  · obtain ⟨w3, hsave, h⟩ := h.seq
    obtain ⟨w4, hindex, h⟩ := h.seq
    have e2 := refundPendingOffers_book hkeyed hrefund
    have e3 := saveListing_book hsave hid.1
    obtain ⟨active, hremove, e4⟩ := removeFromActiveListings_book hindex
    rw [e3, e2] at hremove e4
    obtain ⟨_, w5, e5, h⟩ := h.skip e4
    rw [releaseListing_book h, e5]
    exact Move.retireUnsold hlisting (by simpa using hactive) hremove
  · exact (hfalse rfl).elim

theorem cancelListingInner_move (hkeyed : w.book.Keyed)
    (h : Returns (cancelListingInner host env artist k) w u w') : Move .ordinary w.book w'.book := by
  obtain ⟨l, hlisting, h⟩ := returns_requireListing_bind.mp h
  have hid := hkeyed.listing hlisting
  obtain ⟨-, h⟩ := h.check
  obtain ⟨hactive, h⟩ := h.check
  obtain ⟨w1, hrefund, h⟩ := h.seq
  have e1 := refundPendingOffers_book hkeyed hrefund
  -- the transition is told not to refund again
  obtain ⟨_, w2, e2, h⟩ := h.skip e1
  obtain ⟨w3, hwhen, h⟩ := h.seq
  obtain ⟨hfalse, -⟩ | ⟨-, rfl⟩ := hwhen.when
  · cases hfalse
  · obtain ⟨w3, hsave, h⟩ := h.seq
    obtain ⟨w4, hindex, h⟩ := h.seq
    have e3 := saveListing_book hsave hid.1
    obtain ⟨active, hremove, e4⟩ := removeFromActiveListings_book hindex
    rw [e3, e2] at hremove e4
    obtain ⟨_, w5, e5, h⟩ := h.skip e4
    rw [releaseListing_book h, e5]
    exact Move.retireUnsold hlisting (by simpa using hactive) hremove

/-- The checks of `expire_listing`: the listing is active and its expiry time has come. -/
def ExpiryDue (env : Env) (w : World C) (k : Nat) : Prop :=
  ∃ l, w.listing k = some l ∧ l.status = .active ∧ (reachedExpiry env l.expiresAt).isSome

/-- `expire_listing` closes the listing over its open offers; without open offers that is an ordinary
exit. -/
theorem expireListing_moves (hkeyed : w.book.Keyed)
    (h : Returns (expireListing host env k) w u w') :
    ExpiryDue env w k ∧
      Moves (fun kind => kind = .ordinary ∨ kind = .abandon k ∧ w.book.pendingOffers k ≠ [])
        w.book w'.book := by
  obtain ⟨l, hlisting, h⟩ := returns_requireListing_bind.mp h
  have hid := hkeyed.listing hlisting
  obtain ⟨hactive, h⟩ := h.check
  obtain ⟨exp, hexp, h⟩ := h.found
  obtain ⟨hreached, h⟩ := h.check
  refine ⟨⟨l, hlisting, by simpa using hactive, ?_⟩, ?_⟩
  · simpa [reachedExpiry, hexp] using hreached
  obtain ⟨w3, hsave, h⟩ := h.seq
  obtain ⟨w4, hindex, h⟩ := h.seq
  have e3 := saveListing_book hsave hid.1
  obtain ⟨active, hremove, e4⟩ := removeFromActiveListings_book hindex
  rw [e3] at hremove e4
  obtain ⟨_, _, w6, e6, h⟩ := h.skip₂ e4
  rw [releaseListing_book h, e6]
  by_cases hopen : w.book.pendingOffers k = []
  · have hmove := Move.retireUnsold (b := w.book) hlisting (by simpa using hactive) hremove
    -- without open offers there is nothing to refund
    rw [Book.refundPending, hopen, Book.refundAll_nil, Book.setPending, ← hopen,
      update_eq_self] at hmove
    exact .single (.inl rfl) hmove
  · exact .single (.inr ⟨rfl, hopen⟩)
      (.abandon k l _ active hlisting (by simpa using hactive) ⟨rfl, rfl, rfl⟩ (by simp) hremove
        hopen)

/-! ### The entry points -/

/-- `buy_artwork` acts on an active listing, and either clears it away because it has expired, or
sells it. -/
theorem buyArtwork_cases (h : Returns (buyArtwork host env buyer k) w r w') :
    ∃ l w1 w2, w1.desk = w.desk ∧ w.listing k = some l ∧ l.status = .active ∧
      w'.desk = w2.desk ∧ w'.events = w2.events ∧
      ((r = false ∧ ∃ exp, reachedExpiry env l.expiresAt = some exp ∧
          Returns (buyExpired host env l k exp) w1 () w2) ∨
        (r = true ∧ reachedExpiry env l.expiresAt = none ∧
          Returns (buySettle host env buyer l k) w1 () w2)) := by
  obtain ⟨_, _, _, w3, e, h⟩ := h.skip₃ (f := World.desk) rfl
  obtain ⟨l, hlisting, h⟩ := returns_requireListing_bind.mp h
  have hlisting' : w.listing k = some l := by
    change w.desk.1.1.listing k = some l
    rw [← e]
    exact hlisting
  obtain ⟨_, _, _, _, w7, e, h⟩ := h.skip₄ e
  obtain ⟨hactive, h⟩ := h.check
  obtain ⟨_, _, w9, e, h⟩ := h.skip₂ e
  have hactive' : l.status = .active := by simpa using hactive
  split at h
  · rename_i exp hexpired
    obtain ⟨w10, hexit, h⟩ := h.seq
    obtain ⟨w11, hlock, h⟩ := h.seq
    obtain ⟨rfl, rfl⟩ := h.pure
    exact ⟨l, w9, w10, e, hlisting', hactive', Preserves.eq hlock,
      Preserves.eq hlock, .inl ⟨rfl, exp, hexpired, hexit⟩⟩
  · rename_i hunexpired
    obtain ⟨_, _, w11, e, h⟩ := h.skip₂ e
    obtain ⟨w12, hexit, h⟩ := h.seq
    obtain ⟨w13, hlock, h⟩ := h.seq
    obtain ⟨rfl, rfl⟩ := h.pure
    exact ⟨l, w11, w12, e, hlisting', hactive', Preserves.eq hlock,
      Preserves.eq hlock, .inr ⟨rfl, hunexpired, hexit⟩⟩

theorem buyArtwork_move (hkeyed : w.book.Keyed) (h : Returns (buyArtwork host env buyer k) w r w') :
    Move .ordinary w.book w'.book := by
  obtain ⟨l, w1, w2, e, hlisting, hactive, e', -, hcases⟩ := buyArtwork_cases h
  have e1 := book_of_desk e
  rw [book_of_desk e', ← e1]
  rw [← e1] at hkeyed
  have hlisting1 : w1.book.listing k = some l := by
    rw [e1]
    exact hlisting
  rcases hcases with ⟨-, exp, -, hexit⟩ | ⟨-, -, hexit⟩
  · exact buyExpired_move hkeyed hlisting1 hactive hexit
  · exact (buySettle_exits hkeyed hlisting1 hactive hexit).1.move (.sale l.token l.price)

section Batches

variable {α β : Type} {K : Kind → Prop}

/-- A loop of calls that make moves makes moves. -/
theorem moves_each (hc : ∀ {a w u w'}, w.book.Keyed → Returns (c a) w u w' → Moves K w.book w'.book)
    (hkeyed : w.book.Keyed) (h : Returns (each c as) w u w') : Moves K w.book w'.book := by
  induction as generalizing w with
  | nil =>
    rw [returns_each_nil] at h
    exact .of_eq (by rw [h])
  | cons a as ih =>
    obtain ⟨w1, h1, h2⟩ := h.next
    have hhead := hc hkeyed h1
    exact hhead.trans (ih (hhead.keyed hkeyed) h2)

theorem moves_collect
    (hc : ∀ {a w b w'}, w.book.Keyed → Returns (c a) w b w' → Moves K w.book w'.book)
    (hkeyed : w.book.Keyed) (h : Returns (collect c as) w bs w') : Moves K w.book w'.book := by
  induction as generalizing w bs with
  | nil =>
    obtain ⟨-, rfl⟩ := returns_collect_nil.mp h
    exact .refl _
  | cons a as ih =>
    obtain ⟨b, w1, h1, bs', w2, h2, -, rfl⟩ := returns_collect_cons.mp h
    have hhead := hc hkeyed h1
    exact hhead.trans (ih (hhead.keyed hkeyed) h2)

end Batches

theorem cancelArtistListingAt_moves (hkeyed : w.book.Keyed)
    (h : Returns (cancelArtistListingAt host env admin artist pos) w u w') :
    Moves OnlyOrdinary w.book w'.book := by
  obtain ⟨k, -, h⟩ := h.found
  obtain ⟨stored, w1, h1, h⟩ := h.bind
  obtain ⟨hstored, rfl⟩ := h1.read
  rcases returns_onSome.mp h with ⟨l, rfl, h⟩ | ⟨-, rfl⟩
  · rcases h.when with ⟨-, h⟩ | ⟨-, rfl⟩
    · exact .ordinary (transitionListingToCancelled_move hkeyed hstored h)
    · exact .refl _
  · exact .refl _

theorem cancelArtistListings_moves (hkeyed : w.book.Keyed)
    (h : Returns (cancelArtistListings host env admin artist maxItems) w n w') :
    Moves OnlyOrdinary w.book w'.book := by
  obtain ⟨_, _, w2, e, h⟩ := h.skip₂ (f := World.book) rfl
  split at h
  · obtain ⟨_, w3, e, h⟩ := h.skip e
    obtain ⟨w4, hsweep, h⟩ := h.seq
    have hmoves := moves_each (fun hk hc => cancelArtistListingAt_moves hk hc) (e ▸ hkeyed) hsweep
    obtain ⟨_, w5, e', h⟩ := h.skip (f := World.book) rfl
    rw [h.last e', ← e]
    exact hmoves
  · obtain ⟨_, w3, e, h⟩ := h.skip e
    exact .of_eq (h.last e)

/-- Listing calls other than `expire_listing` make ordinary moves. -/
theorem listingOp_moves {op : ListingOp} (hop : ∀ k, op ≠ .expireListing k)
    (hkeyed : w.book.Keyed) (h : Returns (op.exec host env) w u w') :
    Moves OnlyOrdinary w.book w'.book := by
  cases op with
  | createListing artist request =>
    obtain ⟨id, h⟩ := h.discard
    obtain ⟨_, w1, e, h⟩ := h.skip (f := World.book) rfl
    obtain ⟨_, w2, e, h⟩ := h.skip e
    obtain ⟨_, w3, e, h⟩ := h.skip e
    rw [← e]
    exact .ordinary (createListingInner_move h)
  | createListings artist requests =>
    obtain ⟨ids, h⟩ := h.discard
    obtain ⟨_, w1, e, h⟩ := h.skip (f := World.book) rfl
    obtain ⟨_, w2, e, h⟩ := h.skip e
    obtain ⟨_, w3, e, h⟩ := h.skip e
    obtain ⟨_, w4, e, h⟩ := h.skip e
    rw [← e]
    exact moves_collect (fun _ hc => .ordinary (createListingInner_move hc)) (e ▸ hkeyed) h
  | updateListing artist request =>
    obtain ⟨r, h⟩ := h.discard
    obtain ⟨_, w1, e, h⟩ := h.skip (f := World.book) rfl
    obtain ⟨_, w2, e, h⟩ := h.skip e
    rw [← e]
    exact .ordinary (updateListingInner_move (e ▸ hkeyed) h)
  | updateListings artist requests =>
    obtain ⟨rs, h⟩ := h.discard
    obtain ⟨_, w1, e, h⟩ := h.skip (f := World.book) rfl
    obtain ⟨_, w2, e, h⟩ := h.skip e
    obtain ⟨_, w3, e, h⟩ := h.skip e
    obtain ⟨_, w4, e, h⟩ := h.skip e
    rw [← e]
    exact moves_collect (fun hk hc => .ordinary (updateListingInner_move hk hc)) (e ▸ hkeyed) h
  | updateListingPrice seller k newPrice =>
    obtain ⟨r, h⟩ := h.discard
    exact .ordinary (updateListingPrice_move hkeyed h)
  | setListingReservation seller k reservedFor start stop =>
    exact .ordinary (setListingReservation_move hkeyed h)
  | reconcileListingOwner caller k expectedOwner newOwner =>
    exact reconcileListingOwner_moves hkeyed h
  | buyArtwork buyer k =>
    obtain ⟨r, h⟩ := h.discard
    exact .ordinary (buyArtwork_move hkeyed h)
  | cancelListing artist k =>
    obtain ⟨r, h⟩ := h.discard
    obtain ⟨_, w1, e, h⟩ := h.skip (f := World.book) rfl
    obtain ⟨w2, hcancel, h⟩ := h.seq
    have hmove := cancelListingInner_move (e ▸ hkeyed) hcancel
    rw [h.last (f := World.book) rfl, ← e]
    exact .ordinary hmove
  | cancelListings owner ks =>
    obtain ⟨n, h⟩ := h.discard
    obtain ⟨_, _, _, w3, e, h⟩ := h.skip₃ (f := World.book) rfl
    obtain ⟨w4, hcancel, h⟩ := h.seq
    have hmoves := moves_each (fun hk hc => .ordinary (cancelListingInner_move hk hc)) (e ▸ hkeyed)
      hcancel
    rw [h.last (f := World.book) rfl, ← e]
    exact hmoves
  | cancelArtistListings admin artist maxItems =>
    obtain ⟨n, h⟩ := h.discard
    exact cancelArtistListings_moves hkeyed h
  | expireListing k => exact (hop k rfl).elim

end ElcareHub.Marketplace
