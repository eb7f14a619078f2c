import ElcareHub.Marketplace.Refine.Frames

/-!
# What the writes do to the book

One lemma per storage write and token movement, and the loops that reject and refund the pending
offers of a listing.

Records are saved under the id they carry, so that these lemmas need the book to be `Keyed` where a
record is loaded under one id and saved again.
-/

namespace ElcareHub.Marketplace

open Call hiding update
open Function

variable {C : Type} {host : Host C} {env : Env} {w w' : World C} {u : Unit}
variable {k i n : Nat} {x : Int} {token : Address}
variable {c src dst : Address} {account : Account}

/-- Records carry the id they are stored under, ids do not exceed the counters, and there are no
index vectors of an earlier version. -/
structure Book.Keyed (b : Book) : Prop where
  listing : ∀ {k l}, b.listing k = some l → l.listingId = k ∧ k ≤ b.listingCount
  auction : ∀ {k a}, b.auction k = some a → a.auctionId = k ∧ k ≤ b.auctionCount
  offer : ∀ {k o}, b.offer k = some o → o.offerId = k ∧ k ≤ b.offerCount
  counter : ∀ {k}, (b.counterParent k).isSome → k ≤ b.offerCount
  legacy : b.legacy = .empty

/-! ### Records and indexes -/

theorem saveListing_book (h : Returns (saveListing l) w u w') (hid : l.listingId = k) :
    w'.book = w.book.setListing k l := by
  rw [saveListing, returns_update] at h
  subst h hid
  rfl

theorem saveAuction_book (h : Returns (saveAuction a) w u w') (hid : a.auctionId = k) :
    w'.book = w.book.setAuction k a := by
  rw [saveAuction, returns_update] at h
  subst h hid
  rfl

theorem saveOffer_book (h : Returns (saveOffer o) w u w') (hid : o.offerId = k) :
    w'.book = w.book.setOffer k o := by
  rw [saveOffer, returns_update] at h
  subst h hid
  rfl

theorem setPendingOffers_book (h : Returns (setPendingOffers k ids) w u w') :
    w'.book = w.book.setPending k ids := by
  rw [setPendingOffers, returns_update] at h
  subst h
  rfl

theorem removePendingOffer_book (h : Returns (removePendingOffer k i) w u w') :
    w'.book = w.book.setPending k ((w.book.pendingOffers k).erase i) := by
  have h2 := h.view
  exact setPendingOffers_book h2

theorem clearEscrowRecord_book (h : Returns (clearEscrowRecord c t) w u w') :
    w'.book = w.book.setEscrow (c, t) none := by
  rw [clearEscrowRecord, returns_update] at h
  subst h
  rfl

theorem setCounterOfferParent_book (h : Returns (setCounterOfferParent i j) w u w') :
    w'.book =
      { w.book with counterParent := update w.book.counterParent i (some j) } := by
  rw [setCounterOfferParent, returns_update] at h
  subst h
  rfl

/-- A counter is incremented by one, or the call traps. -/
theorem checkedI128_eq_some (h : checkedI128 x = some y) : y = x := by
  simp only [checkedI128, Option.ite_none_right_eq_some, Option.some.injEq] at h
  exact h.2.symm

theorem returns_addU64 (h : Returns (addU64 a b : Tx C Nat) w n w') : n = a + b ∧ w' = w := by
  simp only [returns_orAbort, Option.ite_none_right_eq_some, Option.some.injEq] at h
  exact ⟨h.1.2.symm, h.2.symm⟩

/-- A counter that is raised by one and returned. -/
theorem returns_counter {set : Nat → World C → World C}
    (h : Returns (view count >>= fun n => addU64 n 1 >>= fun n =>
      Call.update (set n) >>= fun _ => pure n) w n w') : n = count w + 1 ∧ w' = set n w := by
  simp only [returns_bind, returns_update] at h
  obtain ⟨c, w1, ⟨rfl, rfl⟩, m, w2, hadd, -, w3, rfl, rfl, rfl⟩ := h
  obtain ⟨rfl, rfl⟩ := returns_addU64 hadd
  exact ⟨rfl, rfl⟩

/-! ### The active-listing index -/

theorem addToActiveListings_book (h : Returns (addToActiveListings k) w u w') :
    ∃ active, w.book.active.add k = some active ∧ w'.book = w.book.setActive active := by
  have h2 := h.view
  by_cases hpos : (w.activeListingPos k).isSome
  · rw [if_pos hpos] at h2
    obtain ⟨-, rfl⟩ := h2
    exact ⟨w.book.active, if_pos hpos, rfl⟩
  · rw [if_neg hpos] at h2
    simp only [setIndex, returns_bind, returns_orAbort, returns_update] at h2
    obtain ⟨pos, w2, ⟨rfl, rfl⟩, -, w3, ⟨ix, w4, ⟨rfl, rfl⟩, ix', w5, ⟨hix, rfl⟩, rfl⟩, rfl⟩ := h2
    refine ⟨⟨ix', update w.activeListingPos k (some (w.index .activeListings).len),
      w.staleSlots⟩, ?_, ?_⟩
    · unfold ActiveIndex.add
      rw [if_neg (show ¬ (w.book.active.pos k).isSome from hpos)]
      change ((w.index .activeListings).append k).map _ = _
      rw [hix]
      rfl
    · rfl

theorem removeFromActiveListings_book (h : Returns (removeFromActiveListings k) w u w') :
    ∃ active, w.book.active.remove k = some active ∧ w'.book = w.book.setActive active := by
  obtain ⟨present, w1, h1, h2⟩ := h.bind
  obtain ⟨hpos, rfl⟩ := h1.read
  cases present with
  | none =>
    obtain ⟨-, rfl⟩ := h2.pure
    refine ⟨w.book.active, ?_, rfl⟩
    unfold ActiveIndex.remove
    rw [show w.book.active.pos k = none from hpos]
  | some pos =>
    have h4 := h2.view
    have hremove : w.book.active.remove k = if (w.index .activeListings).get pos ≠ some k then
          some { w.book.active with stale := w.staleSlots + 1 }
        else ((w.index .activeListings).swapRemove pos).map fun r =>
          ⟨r.1, update (ActiveIndex.movePos w.activeListingPos pos r.2) k none,
            w.staleSlots⟩ := by
      unfold ActiveIndex.remove
      rw [show w.book.active.pos k = some pos from hpos]
      rfl
    rw [hremove]
    by_cases hheld : (w.index .activeListings).get pos ≠ some k
    · rw [if_pos hheld] at h4 ⊢
      rw [returns_update] at h4
      subst h4
      exact ⟨_, rfl, rfl⟩
    · rw [if_neg hheld] at h4 ⊢
      simp only [setIndex, returns_bind, returns_orAbort, returns_update, returns_onSome] at h4
      obtain ⟨ix, w3, ⟨rfl, rfl⟩, ⟨ix', moved⟩, w4, ⟨hswap, rfl⟩, -, w5, rfl, -, w6, hmoved, rfl⟩ :=
        h4
      rw [hswap]
      refine ⟨_, rfl, ?_⟩
      rcases hmoved with ⟨m, rfl, rfl⟩ | ⟨rfl, rfl⟩ <;>
        · rfl

/-! ### Token movements -/

theorem Purse.holds_iff {p : Purse} :
    p.holds d t = true ↔ t.direction = d ∧ p = ⟨t.account, t.token⟩ := by
  obtain ⟨account, token⟩ := p
  rw [Purse.holds, decide_eq_true_iff, Purse.mk.injEq, eq_comm (a := t.account),
    eq_comm (a := t.token)]

/-- The total of a purse when one more movement is logged. -/
theorem tally_log (p : Purse) (d : Direction) (ts : List Transfer) (t : Transfer) :
    Tally.tally (p.holds d) Transfer.amount (ts ++ [t]) = Tally.tally (p.holds d) Transfer.amount ts +
        if t.direction = d ∧ p = ⟨t.account, t.token⟩ then t.amount else 0 := by
  rw [Tally.tally_append, Tally.tally_cons, Tally.tally_nil, Int.add_zero]
  simp only [Purse.holds_iff]

/-- A movement in the other direction leaves the totals alone. -/
theorem tally_log_other (d : Direction) (ts : List Transfer) (t : Transfer)
    (hd : t.direction ≠ d) :
    (fun p : Purse => Tally.tally (p.holds d) Transfer.amount (ts ++ [t])) =
      fun p => Tally.tally (p.holds d) Transfer.amount ts := by
  funext p
  rw [tally_log, if_neg fun h => hd h.1, Int.add_zero]

/-- A movement is added to the total of its purse. -/
theorem tally_log_same (d : Direction) (ts : List Transfer) (t : Transfer)
    (hd : t.direction = d) :
    (fun p : Purse => Tally.tally (p.holds d) Transfer.amount (ts ++ [t])) =
      update (fun p : Purse => Tally.tally (p.holds d) Transfer.amount ts)
        ⟨t.account, t.token⟩
        (Tally.tally (Purse.holds ⟨t.account, t.token⟩ d) Transfer.amount ts + t.amount) := by
  funext p
  rw [tally_log, update_apply]
  by_cases hp : p = ⟨t.account, t.token⟩
  · rw [if_pos ⟨hd, hp⟩, if_pos hp, hp]
  · rw [if_neg fun h => hp h.2, if_neg hp, Int.add_zero]

/-- A successful token transfer moves a non-negative amount and changes balances only. -/
theorem returns_tokenTransfer (h : Returns (tokenTransfer env token src dst x) w u w') :
    0 ≤ x ∧ ∃ balances, w' = { w with balances } := by
  rw [tokenTransfer, returns_attempt] at h
  split at h
  · cases h
  · rename_i hok
    cases h
    exact ⟨Int.not_lt.mp fun hneg => hok (.inl hneg), _, rfl⟩

/-- A payment is not negative, and is booked on its purse. -/
theorem payTo_book (h : Returns (payTo host env account token dst x) w u w') :
    0 ≤ x ∧ w'.transfers = w.transfers ++ [⟨.payout, account, token, dst, x⟩] ∧
      w'.book = w.book.pay ⟨account, token⟩ x := by
  obtain ⟨w1, h1, h2⟩ := h.seq
  obtain ⟨hx, balances, rfl⟩ := returns_tokenTransfer h1
  rw [logTransfer, returns_update] at h2
  subst h2
  refine ⟨hx, rfl, ?_⟩
  have hdeposited := tally_log_other .deposit w.transfers
    ⟨.payout, account, token, dst, x⟩ (by simp)
  have hpaidOut := tally_log_same .payout w.transfers
    ⟨.payout, account, token, dst, x⟩ rfl
  exact congr (congrArg _ hdeposited) hpaidOut

/-- A deposit is not negative, and is booked on its purse. -/
theorem depositFrom_book (h : Returns (depositFrom host env account token src x) w u w') :
    0 ≤ x ∧ w'.transfers = w.transfers ++ [⟨.deposit, account, token, src, x⟩] ∧
      w'.book = w.book.deposit ⟨account, token⟩ x := by
  obtain ⟨w1, h1, h2⟩ := h.seq
  obtain ⟨hx, balances, rfl⟩ := returns_tokenTransfer h1
  rw [logTransfer, returns_update] at h2
  subst h2
  refine ⟨hx, rfl, ?_⟩
  have hdeposited := tally_log_same .deposit w.transfers
    ⟨.deposit, account, token, src, x⟩ rfl
  have hpaidOut := tally_log_other .payout w.transfers
    ⟨.deposit, account, token, src, x⟩ (by simp)
  exact congr (congrArg _ hdeposited) hpaidOut

end ElcareHub.Marketplace
