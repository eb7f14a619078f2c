import ElcareHub.Marketplace.Refine.Steps

/-!
# Open offers and closed listings

The pending set of a listing holds exactly its pending offers, in every reachable state. Every exit
of a listing refunds and clears that set, except one: `expire_listing` closes the listing over its
open offers, where the expiry branch of `buy_artwork` refunds them.
-/

namespace ElcareHub.Marketplace

open Call hiding update
open Function

variable {b b' b1 : Book} {i j k : Nat} {o : Offer} {kind : Kind}

namespace Book

/-- Offer `i` is pending on listing `k`. -/
def OpenOn (b : Book) (k i : Nat) : Prop :=
  ∃ o, b.offer i = some o ∧ o.listingId = k ∧ o.status = .pending

/-- The pending sets hold the pending offers, each once. -/
structure PendingExact (b : Book) : Prop where
  exact : ∀ k i, i ∈ b.pendingOffers k ↔ b.OpenOn k i
  nodup : ∀ k, (b.pendingOffers k).Nodup

/-- When listing `k` is closed its pending set is empty. -/
def QuietWhenClosed (b : Book) (k : Nat) : Prop :=
  ∀ l, b.listing k = some l → l.status ≠ .active → b.pendingOffers k = []

theorem OpenOn.unique (h : b.OpenOn k i) (h' : b.OpenOn j i) : k = j := by
  obtain ⟨o, ho, rfl, -⟩ := h
  obtain ⟨o', ho', rfl, -⟩ := h'
  rw [Option.mem_unique ho ho']

theorem openOn_congr (h : b'.offer i = b.offer i) : b'.OpenOn k i ↔ b.OpenOn k i := by
  unfold OpenOn
  rw [h]

theorem PendingExact.of_same (h : b.PendingExact) (hpending : b'.pendingOffers = b.pendingOffers)
    (hoffer : b'.offer = b.offer) : b'.PendingExact where
  exact k i := by
    rw [hpending, openOn_congr (congrFun hoffer i)]
    exact h.exact k i
  nodup k := by
    rw [hpending]
    exact h.nodup k

/-- A new offer is entered on both sides. -/
theorem PendingExact.openOffer (h : b.PendingExact) (hkeyed : b.Keyed)
    (hid : o.offerId = b.offerCount + 1) (hpending : o.status = .pending) :
    (b.openOffer o).PendingExact := by
  have hnew : ∀ k, o.offerId ∉ b.pendingOffers k := by
    intro k hmem
    obtain ⟨o', ho', -⟩ := (h.exact k _).mp hmem
    have := (hkeyed.offer ho').2
    omega
  have hlist : ∀ k, (b.openOffer o).pendingOffers k =
      if k = o.listingId then b.pendingOffers o.listingId ++ [o.offerId] else b.pendingOffers k :=
    fun k => update_apply ..
  have hoffer : ∀ i, (b.openOffer o).offer i = if i = o.offerId then some o else b.offer i :=
    fun i => update_apply ..
  refine ⟨fun k i => ?_, fun k => ?_⟩
  · by_cases hi : i = o.offerId
    · subst hi
      unfold OpenOn
      rw [hlist, hoffer]
      by_cases hk : k = o.listingId
      · simp [hk, hpending]
      · simp [hk, hnew k, Ne.symm hk]
    · rw [openOn_congr ((hoffer i).trans (if_neg hi)), ← h.exact, hlist]
      by_cases hk : k = o.listingId
      · simp [hk, hi]
      · simp [hk]
  · rw [hlist]
    split
    · exact List.Nodup.append (h.nodup _) (List.nodup_singleton _)
        (List.disjoint_singleton.mpr (hnew _))
    · exact h.nodup k

/-- An offer that is closed leaves the set of its listing. -/
theorem PendingExact.closeOffer (h : b.PendingExact)
    (ho : b.offer i = some o) (hclosed : status ≠ .pending) :
    (b.closeOffer i o status).PendingExact := by
  have hlist : ∀ k, (b.closeOffer i o status).pendingOffers k =
      if k = o.listingId then (b.pendingOffers o.listingId).erase i else b.pendingOffers k :=
    fun k => update_apply ..
  have hoffer : ∀ j, (b.closeOffer i o status).offer j =
      if j = i then some { o with status } else b.offer j := fun j => update_apply ..
  refine ⟨fun k j => ?_, fun k => ?_⟩
  · by_cases hj : j = i
    · subst hj
      have hleft : j ∉ (b.closeOffer j o status).pendingOffers k := by
        rw [hlist]
        split
        · exact (h.nodup _).not_mem_erase
        · rename_i hk
          rw [h.exact]
          rintro ⟨o', ho', hk', -⟩
          obtain rfl : o = o' := Option.mem_unique ho ho'
          exact hk hk'.symm
      have hright : ¬ (b.closeOffer j o status).OpenOn k j := by
        rintro ⟨o', ho', -, hpending⟩
        rw [hoffer, if_pos rfl] at ho'
        cases ho'
        exact hclosed hpending
      exact iff_of_false hleft hright
    · rw [openOn_congr ((hoffer j).trans (if_neg hj)), ← h.exact, hlist]
      split
      · rename_i hk
        rw [List.mem_erase_of_ne hj, hk]
      · rfl
  · rw [hlist]
    split
    · exact (h.nodup _).erase i
    · exact h.nodup k

/-- The exit of listing `k`: whatever offer of `k` was settled before, the pending ones among the set
are rejected, and the set is cleared. -/
theorem PendingExact.refundPending (h : b.PendingExact)
    (hpending : b1.pendingOffers = b.pendingOffers) (hopen : ∀ j i, b1.OpenOn j i → b.OpenOn j i)
    (hother : ∀ j i, j ≠ k → (b1.OpenOn j i ↔ b.OpenOn j i)) : (b1.refundPending k).PendingExact := by
  have hlist : ∀ j, (b1.refundPending k).pendingOffers j =
      if j = k then [] else b.pendingOffers j := by
    intro j
    rw [← hpending]
    exact update_apply ..
  have hoffer : (b1.refundPending k).offer = b1.rejected (b.pendingOffers k) := by
    rw [← hpending]
    rfl
  -- what is pending after the exit was pending before it, and not in the set of `k`
  have hafter : ∀ j i, (b1.refundPending k).OpenOn j i ↔ b1.OpenOn j i ∧ i ∉ b.pendingOffers k := by
    intro j i
    unfold OpenOn
    rw [hoffer]
    by_cases hmem : i ∈ b.pendingOffers k
    · refine iff_of_false ?_ fun hboth => hboth.2 hmem
      rintro ⟨o, ho, -, hstatus⟩
      simp only [rejected, hmem, if_true, Option.map_eq_some_iff] at ho
      obtain ⟨o', -, rfl⟩ := ho
      split at hstatus
      · cases hstatus
      · rename_i hnot
        exact hnot hstatus
    · simp [rejected, hmem]
  refine ⟨fun j i => ?_, fun j => ?_⟩
  · rw [hlist, hafter]
    by_cases hj : j = k
    · subst hj
      rw [if_pos rfl]
      refine iff_of_false List.not_mem_nil ?_
      rintro ⟨hopen', hnot⟩
      exact hnot ((h.exact j i).mpr (hopen j i hopen'))
    · rw [if_neg hj, hother j i hj, h.exact]
      refine ⟨fun hjo => ⟨hjo, fun hmem => ?_⟩, And.left⟩
      exact hj (hjo.unique ((h.exact k i).mp hmem))
  · rw [hlist]
    split
    · exact List.nodup_nil
    · exact h.nodup j

end Book

/-- A payment settles at most one offer of the listing, and opens none. -/
theorem Payment.openOn (h : Payment k b b1) :
    b1.pendingOffers = b.pendingOffers ∧ (∀ j i, b1.OpenOn j i → b.OpenOn j i) ∧
      ∀ j i, j ≠ k → (b1.OpenOn j i ↔ b.OpenOn j i) := by
  -- accepting offer `i` of listing `k`
  have haccept {i : Nat} {o : Offer} {b2 : Book} (hoffer : b.offer i = some o)
      (hlisting : o.listingId = k)
      (hb2 : b2.offer = update b.offer i (some { o with status := .accepted })) :
      (∀ j i', b2.OpenOn j i' → b.OpenOn j i') ∧
        ∀ j i', j ≠ k → (b2.OpenOn j i' ↔ b.OpenOn j i') := by
    have hother : ∀ j i', i' ≠ i → (b2.OpenOn j i' ↔ b.OpenOn j i') := fun j i' hi =>
      Book.openOn_congr (by rw [hb2, update_of_ne hi])
    have hnot : ∀ j, ¬ b2.OpenOn j i := by
      rintro j ⟨o', ho', -, hstatus⟩
      rw [hb2, update_self] at ho'
      cases ho'
      cases hstatus
    refine ⟨fun j i' hopen => ?_, fun j i' hj => ?_⟩
    · by_cases hi : i' = i
      · exact (hnot j (hi ▸ hopen)).elim
      · exact (hother j i' hi).mp hopen
    · by_cases hi : i' = i
      · subst hi
        refine iff_of_false (hnot j) ?_
        rintro ⟨o', ho', hj', -⟩
        obtain rfl : o = o' := Option.mem_unique hoffer ho'
        exact hj (hj'.symm.trans hlisting)
      · exact hother j i' hi
  cases h with
  | nothing => exact ⟨rfl, fun _ _ => id, fun _ _ _ => Iff.rfl⟩
  | sale token price => exact ⟨rfl, fun _ _ => id, fun _ _ _ => Iff.rfl⟩
  | offer i o hoffer _ hlisting => exact ⟨rfl, haccept hoffer hlisting rfl⟩
  | counter i o hoffer _ hlisting _ => exact ⟨rfl, haccept hoffer hlisting rfl⟩

/-- Every move keeps the pending sets exact. -/
theorem Move.pendingExact (hm : Move kind b b') (hkeyed : b.Keyed)
    (h : b.PendingExact) : b'.PendingExact := by
  cases hm with
  | retire k l l' active b1 _ _ _ _ _ hpayment =>
    obtain ⟨hpending, hopen, hother⟩ := hpayment.openOn
    exact (h.refundPending hpending hopen hother).of_same rfl rfl
  | makeOffer o l hid hpending _ _ _ => exact (h.openOffer hkeyed hid hpending).of_same rfl rfl
  | closeOffer i o status hoffer _ hclosed => exact h.closeOffer hoffer hclosed
  | counterOffer o l parent hid hpending _ _ _ =>
    exact (h.openOffer hkeyed hid hpending).of_same rfl rfl
  | _ => exact h.of_same rfl rfl

/-! ### Closed listings -/

namespace Book.QuietWhenClosed

theorem of_same (h : b.QuietWhenClosed k) (hlisting : b'.listing k = b.listing k)
    (hpending : b'.pendingOffers k = b.pendingOffers k) : b'.QuietWhenClosed k := by
  intro l hl
  rw [hpending]
  exact h l (hlisting ▸ hl)

/-- A listing record is saved, and the pending set of `k` is the same. -/
theorem of_setListing (h : b.QuietWhenClosed k) (hlisting : b'.listing = update b.listing j (some l))
    (hpending : b'.pendingOffers k = b.pendingOffers k)
    (hself : j = k → l.status ≠ .active → b.pendingOffers k = []) : b'.QuietWhenClosed k := by
  intro l' hl' hclosed
  rw [hpending]
  rw [hlisting, update_apply] at hl'
  split at hl'
  · rename_i hk
    cases hl'
    exact hself hk.symm hclosed
  · exact h l' hl' hclosed

/-- An offer is opened on an active listing. -/
theorem openOffer (h : b.QuietWhenClosed k)
    (hlisting : b.listing o.listingId = some l) (hactive : l.status = .active) :
    (b.openOffer o).QuietWhenClosed k := by
  intro l' hl' hclosed
  have hk : k ≠ o.listingId := by
    rintro rfl
    obtain rfl : l = l' := Option.mem_unique hlisting hl'
    exact hclosed hactive
  exact (update_of_ne hk ..).trans (h l' hl' hclosed)

end Book.QuietWhenClosed

/-- Every move but the exit of listing `k` over its open offers leaves no open offer on `k` when it is
closed. -/
theorem Move.quietWhenClosed (hm : Move kind b b')
    (hkind : kind ≠ .abandon k) (h : b.QuietWhenClosed k) : b'.QuietWhenClosed k := by
  cases hm with
  | openListing l active _ hactive _ _ =>
    exact h.of_setListing rfl rfl fun _ hclosed => (hclosed hactive).elim
  | editListing j l l' hlisting _ hstatus =>
    refine h.of_setListing rfl rfl fun hj hclosed => ?_
    exact h l (hj ▸ hlisting) (hstatus ▸ hclosed)
  | retire j l l' active b1 _ _ _ _ _ hpayment =>
    obtain ⟨hpending, -, -⟩ := hpayment.openOn
    intro l'' hl'' hclosed
    change update b1.pendingOffers j [] k = []
    by_cases hk : k = j
    · rw [hk, update_self]
    · rw [update_of_ne hk, hpending]
      refine h l'' ?_ hclosed
      change update b1.listing j (some l') k = some l'' at hl''
      rwa [update_of_ne hk, hpayment.listing_eq.1] at hl''
  | abandon j l l' active _ _ _ _ _ _ =>
    exact h.of_setListing rfl rfl fun hj => (hkind (hj ▸ rfl)).elim
  | makeOffer o l _ _ _ hlisting hactive => exact h.openOffer hlisting hactive
  | closeOffer i o status _ _ _ =>
    intro l hl hclosed
    have hnil := h l hl hclosed
    change update b.pendingOffers o.listingId _ k = []
    rw [update_apply]
    split
    · rename_i hk
      rw [← hk, hnil, List.erase_nil]
    · exact hnil
  | counterOffer o l parent _ _ _ hlisting hactive => exact h.openOffer hlisting hactive
  | _ => exact h.of_same rfl rfl

/-! ### Runs -/

variable {C : Type} {host : Host C}

theorem Reachable.pendingExact (hreach : Reachable host w) : w.book.PendingExact :=
  hreach.invariant ⟨fun _ _ => by simp [Book.OpenOn, Book.empty], fun _ => List.nodup_nil⟩
    fun _ _ _ hm hkeyed hb => hm.pendingExact hkeyed hb

/-! ### The number of open offers -/

theorem Payment.pendingOffers_eq (h : Payment k b b1) :
    b1.pendingOffers = b.pendingOffers ∧ b1.offerCount = b.offerCount := by
  cases h <;> exact ⟨rfl, rfl⟩

theorem Move.offerCount_le (hm : Move kind b b') : b.offerCount ≤ b'.offerCount := by
  cases hm with
  | retire k l l' active b1 _ _ _ _ _ hpayment => exact hpayment.pendingOffers_eq.2.ge
  | makeOffer | counterOffer => exact Nat.le_succ _
  | _ => exact le_rfl

/-- A move that opens no offer adds nothing to a pending set. -/
theorem Move.pending_sublist (hm : Move kind b b') (hcount : b'.offerCount = b.offerCount) (k : Nat) :
    (b'.pendingOffers k).Sublist (b.pendingOffers k) := by
  cases hm with
  | retire j l l' active b1 _ _ _ _ _ hpayment =>
    show (update b1.pendingOffers j [] k).Sublist _
    rw [hpayment.pendingOffers_eq.1, update_apply]
    split
    · exact List.nil_sublist _
    · exact List.Sublist.refl _
  | closeOffer i o status =>
    show (update b.pendingOffers o.listingId _ k).Sublist _
    rw [update_apply]
    split
    · rename_i hk
      rw [hk]
      exact List.erase_sublist
    · exact List.Sublist.refl _
  | makeOffer | counterOffer => exact absurd hcount (Nat.succ_ne_self b.offerCount)
  | _ => exact List.Sublist.refl _

theorem Moves.offerCount_le (h : Moves K b b') : b.offerCount ≤ b'.offerCount :=
  h.invariant (I := fun b1 => b.offerCount ≤ b1.offerCount)
    (fun _ _ _ _ hm hle => hle.trans hm.offerCount_le) le_rfl

/-- What holds across every move that opens no offer holds across every sequence of moves that opens
none. -/
theorem Moves.of_quiet {R : Book → Book → Prop}
    (h : Moves K b b') (hcount : b'.offerCount = b.offerCount) (hrefl : ∀ b, R b b)
    (htrans : ∀ {b b1 b2}, R b b1 → R b1 b2 → R b b2)
    (hmove : ∀ {kind b b1}, Move kind b b1 → b1.offerCount = b.offerCount → R b b1) : R b b' := by
  induction h with
  | refl => exact hrefl b
  | tail hmoves hstep ih =>
    obtain ⟨kind, -, hm⟩ := hstep
    -- the counter never falls, so it stood still in both parts
    have hle := Moves.offerCount_le hmoves
    have hle' := hm.offerCount_le
    exact htrans (ih (by omega)) (hmove hm (by omega))

theorem Moves.pending_sublist (h : Moves K b b') (hcount : b'.offerCount = b.offerCount) (k : Nat) :
    (b'.pendingOffers k).Sublist (b.pendingOffers k) :=
  h.of_quiet (R := fun b b' => (b'.pendingOffers k).Sublist (b.pendingOffers k)) hcount
    (fun _ => List.Sublist.refl _) (fun hfirst hsecond => hsecond.trans hfirst)
    fun hm hquiet => hm.pending_sublist hquiet k

/-- No listing has more open offers than `make_offer` admits. -/
def Book.OfferLimit (b : Book) : Prop :=
  ∀ k, (b.pendingOffers k).length ≤ maxOffersPerListing

/-- A new offer on a listing that has room for it. -/
theorem Book.OfferLimit.openOffer (h : b.OfferLimit)
    (hroom : (b.pendingOffers o.listingId).length < maxOffersPerListing) :
    (b.openOffer o).OfferLimit := by
  intro k
  show (update b.pendingOffers o.listingId _ k).length ≤ _
  rw [update_apply]
  split
  · rw [List.length_append]
    exact hroom
  · exact h k

/-- A counter-offer takes the place of its parent. -/
theorem Book.OfferLimit.counterOffer (h : b.OfferLimit) (hexact : b.PendingExact)
    (hoffer : b.offer parent = some o)
    (hpending : o.status = .pending) (hsame : counter.listingId = o.listingId) :
    (b.counterOffer parent o counter).OfferLimit := by
  have hmem : parent ∈ b.pendingOffers o.listingId :=
    (hexact.exact _ _).mpr ⟨o, hoffer, rfl, hpending⟩
  have hafter : ∀ k, (b.closeOffer parent o .rejected).pendingOffers k =
      if k = o.listingId then (b.pendingOffers o.listingId).erase parent else b.pendingOffers k :=
    fun k => update_apply ..
  have hclosed : (b.closeOffer parent o .rejected).OfferLimit := by
    intro k
    rw [hafter]
    split
    · exact List.length_erase_le.trans (h _)
    · exact h k
  have hroom : ((b.closeOffer parent o .rejected).pendingOffers counter.listingId).length <
      maxOffersPerListing := by
    rw [hsame, hafter, if_pos rfl, List.length_erase_of_mem hmem]
    have hpos := List.length_pos_of_mem hmem
    have hle := h o.listingId
    omega
  exact hclosed.openOffer hroom

/-- Every call keeps the limit. -/
theorem op_offerLimit {op : Op} (hreach : Reachable host w)
    (h : Returns (op.exec host env) w () w') (hlimit : w.book.OfferLimit) : w'.book.OfferLimit := by
  by_cases hop : Field.offerCount ∈ op.footprint
  · -- only two entry points open offers
    rcases op with op | op | op | op | op <;> cases op <;>
      simp [Op.footprint, ListingOp.footprint, AuctionOp.footprint, OfferOp.footprint] at hop
    case offer.makeOffer offerer k amount token expiresAt =>
      obtain ⟨id, h⟩ := h.discard
      obtain ⟨-, -, -, hroom, hbook⟩ := makeOffer_book h
      rw [hbook]
      exact hlimit.openOffer hroom
    case offer.counterOffer artist parent amount token expiresAt =>
      obtain ⟨id, h⟩ := h.discard
      obtain ⟨hdue, -, o, hoffer, hbook⟩ := counterOffer_book hreach.keyed h
      obtain ⟨o', l, ho', hpending, -⟩ := hdue.parent
      obtain rfl : o' = o := Option.mem_unique ho' hoffer
      rw [hbook]
      exact hlimit.counterOffer hreach.pendingExact hoffer hpending rfl
  · have hcount : w'.book.offerCount = w.book.offerCount := op_frame h hop
    intro k
    exact ((op_moves hreach.keyed h).pending_sublist hcount k).length_le.trans (hlimit k)

/-- **The pending sets are exact**: in every reachable state the pending set of a listing holds the
ids of the offers on it that are pending, each once, and never more than the limit. -/
theorem pending_offers_exact (host : Host C) (balances : Address × Address → Int) (collections : C)
    (steps : List (Step C)) (k : Nat) :
    let w := run host (.fresh balances collections) steps
    (w.listingPendingOffers k).Nodup ∧ (∀ i, i ∈ w.listingPendingOffers k ↔
        ∃ o, w.offer i = some o ∧ o.listingId = k ∧ o.status = .pending) ∧
      (w.listingPendingOffers k).length ≤ maxOffersPerListing := by
  intro w
  have hreach : Reachable host w := reachable_run host balances collections steps
  have hlimit := hreach.induction (fun _ _ _ => Nat.zero_le _)
    (fun _ _ _ _ => op_offerLimit) fun _ _ _ h => h
  exact ⟨hreach.pendingExact.nodup k, hreach.pendingExact.exact k, hlimit k⟩

/-- The listing `k` is active, or no offer on it is open: its pending set is empty and none of its
offers is pending. -/
def World.NoLiveOfferOnDead (w : World C) (k : Nat) : Prop :=
  ∀ l, w.listing k = some l → l.status ≠ .active →
    w.listingPendingOffers k = [] ∧ ∀ i o, w.offer i = some o → o.listingId = k → o.status ≠ .pending

/-- The step is not an `expire_listing` on listing `k` that passes its checks while offers on `k` are
open. -/
def ExpiresQuietly (k : Nat) (w : World C) (s : Step C) : Prop :=
  ∀ env, s = .call env (.listing (.expireListing k)) → ExpiryDue env w k →
    w.listingPendingOffers k = []

theorem ExpiresQuietly.allows (h : ExpiresQuietly k w s) : Allows host (· ≠ .abandon k) w s := by
  rintro kind hmakes rfl
  cases s with
  | call env op =>
    cases hmakes with
    | abandon _ hdue hopen => exact hopen (h env rfl hdue)
  | external collections balances => exact hmakes

/-- **No live offer on a dead listing**, along every run in which listing `k` is not expired over open
offers. -/
theorem no_live_offer_on_dead_listing (host : Host C) (balances : Address × Address → Int)
    (collections : C) (steps : List (Step C)) (k : Nat)
    (hrun : Run.Along (step host) (ExpiresQuietly k) (.fresh balances collections) steps) :
    (run host (.fresh balances collections) steps).NoLiveOfferOnDead k := by
  have hquiet := run_invariant
    (hrun.mono fun _ _ h => h.allows) (fun _ hl => by cases hl)
    fun kind b b' hkind hm _ hb => hm.quietWhenClosed hkind hb
  have hexact := (reachable_run host balances collections steps).pendingExact
  intro l hl hclosed
  have hnil := hquiet l hl hclosed
  refine ⟨hnil, fun i o ho hk hpending => ?_⟩
  have hmem := (hexact.exact k i).mpr ⟨o, ho, hk, hpending⟩
  rw [hnil] at hmem
  exact List.not_mem_nil hmem

/-- A listing that expires at time 500, and an offer on it. -/
def offerOnListing : List (Step Unit) :=
  [.call (.signedBy ⟨10⟩ 100) (.listing (.createListing ⟨10⟩
      ⟨1000000, "XLM", ⟨50⟩, ⟨60⟩, 7, 1, [⟨⟨10⟩, 10000⟩], some 500⟩)),
    .call (.signedBy ⟨20⟩ 200) (.offer (.makeOffer ⟨20⟩ 1 700000 ⟨50⟩ none))]

theorem no_live_offer_on_dead_listing_bought :
    let w := run (.accepting ⟨0⟩ ⟨10⟩) (.fresh (fundedBidders ⟨0⟩) ())
      (offerOnListing ++ [.call (.signedBy ⟨21⟩ 300) (.listing (.buyArtwork ⟨21⟩ 1))])
    w.NoLiveOfferOnDead 1 ∧ (w.listing 1).map Listing.status = some .sold ∧
      (w.offer 1).map Offer.status = some .rejected := by
  refine ⟨no_live_offer_on_dead_listing _ _ _ _ 1 ?_, by decide +kernel, by decide +kernel⟩
  simp [offerOnListing, ExpiresQuietly]

/-- The listing expires and anybody calls `expire_listing`: the listing is cancelled, and the offer on
it stays pending and in the pending set. -/
theorem expired_listing_keeps_live_offer :
    let w := run (.accepting ⟨0⟩ ⟨10⟩) (.fresh (fundedBidders ⟨0⟩) ())
      (offerOnListing ++ [.call (.signedBy ⟨30⟩ 600) (.listing (.expireListing 1))])
    ¬ w.NoLiveOfferOnDead 1 ∧ (w.listing 1).map Listing.status = some .cancelled ∧
      w.listingPendingOffers 1 = [1] ∧ (w.offer 1).map Offer.status = some .pending := by
  intro w
  have hstatus : (w.listing 1).map Listing.status = some .cancelled := by decide +kernel
  have hpending : w.listingPendingOffers 1 = [1] := by decide +kernel
  refine ⟨fun h => ?_, hstatus, hpending, by decide +kernel⟩
  obtain ⟨l, hl, hl'⟩ := Option.map_eq_some_iff.mp hstatus
  have hnil := (h l hl (by simp [hl'])).1
  rw [hpending] at hnil
  cases hnil

end ElcareHub.Marketplace
