import ElcareHub.Marketplace.Refine.Refunds

/-!
# Every move keeps the keys

Records are stored under the id they carry, and new ids come after all ids in use.
-/

namespace ElcareHub.Marketplace

open Function

variable {k : Nat} {l : Listing} {o : Offer} {b1 : Book}

namespace Book.Keyed

variable {b : Book}
variable {a : Auction} {b' : Book}

theorem setListing (h : b.Keyed) (hid : l.listingId = k) (hle : k ≤ b.listingCount) :
    (b.setListing k l).Keyed where
  listing {j l'} hl := by
    change update b.listing k (some l) j = some l' at hl
    rw [update_apply] at hl
    split at hl
    · rename_i hj
      cases hl
      exact ⟨hid.trans hj.symm, hj ▸ hle⟩
    · exact h.listing hl
  auction := h.auction
  offer := h.offer
  counter := h.counter
  legacy := h.legacy

theorem setAuction (h : b.Keyed) (hid : a.auctionId = k) (hle : k ≤ b.auctionCount) :
    (b.setAuction k a).Keyed where
  listing := h.listing
  auction {j a'} ha := by
    change update b.auction k (some a) j = some a' at ha
    rw [update_apply] at ha
    split at ha
    · rename_i hj
      cases ha
      exact ⟨hid.trans hj.symm, hj ▸ hle⟩
    · exact h.auction ha
  offer := h.offer
  counter := h.counter
  legacy := h.legacy

theorem setOffer (h : b.Keyed) (hid : o.offerId = k) (hle : k ≤ b.offerCount) :
    (b.setOffer k o).Keyed where
  listing := h.listing
  auction := h.auction
  offer {j o'} ho := by
    change update b.offer k (some o) j = some o' at ho
    rw [update_apply] at ho
    split at ho
    · rename_i hj
      cases ho
      exact ⟨hid.trans hj.symm, hj ▸ hle⟩
    · exact h.offer ho
  counter := h.counter
  legacy := h.legacy

/-- A stored offer changes its status. -/
theorem setStatus (h : b.Keyed) (hoffer : b.offer i = some o) (status : OfferStatus) :
    (b.setOffer i { o with status }).Keyed :=
  h.setOffer (o := { o with status }) (h.offer hoffer).1 (h.offer hoffer).2

theorem pay (h : b.Keyed) (p : Purse) (x : Int) : (b.pay p x).Keyed :=
  ⟨h.listing, h.auction, h.offer, h.counter, h.legacy⟩

theorem deposit (h : b.Keyed) (p : Purse) (x : Int) : (b.deposit p x).Keyed :=
  ⟨h.listing, h.auction, h.offer, h.counter, h.legacy⟩

theorem setPending (h : b.Keyed) (k : Nat) (ids : List Nat) : (b.setPending k ids).Keyed :=
  ⟨h.listing, h.auction, h.offer, h.counter, h.legacy⟩

theorem setEscrow (h : b.Keyed) (asset : Address × Nat) (r : Option EscrowRecord) :
    (b.setEscrow asset r).Keyed :=
  ⟨h.listing, h.auction, h.offer, h.counter, h.legacy⟩

theorem setActive (h : b.Keyed) (active : ActiveIndex) : (b.setActive active).Keyed :=
  ⟨h.listing, h.auction, h.offer, h.counter, h.legacy⟩

theorem refundPending (h : b.Keyed) (k : Nat) : (b.refundPending k).Keyed :=
  (h.refundAll _).setPending k []

theorem closeListing (h : b.Keyed) (hid : l.listingId = k) (hle : k ≤ b.listingCount)
    (active : ActiveIndex) : (b.closeListing k l active).Keyed :=
  ((h.setListing hid hle).setEscrow (l.collection, l.tokenId) none).setActive active

theorem openListing (h : b.Keyed) (hid : l.listingId = b.listingCount + 1) (active : ActiveIndex) :
    (b.openListing l active).Keyed where
  listing {j l'} hl := by
    change update b.listing l.listingId (some l) j = some l' at hl
    change _ ∧ j ≤ b.listingCount + 1
    rw [update_apply] at hl
    split at hl
    · rename_i hj
      cases hl
      exact ⟨hj.symm, by omega⟩
    · have := h.listing hl
      exact ⟨this.1, by omega⟩
  auction := h.auction
  offer := h.offer
  counter := h.counter
  legacy := h.legacy

theorem openAuction (h : b.Keyed) (hid : a.auctionId = b.auctionCount + 1) :
    (b.openAuction a).Keyed where
  listing := h.listing
  auction {j a'} ha := by
    change update b.auction a.auctionId (some a) j = some a' at ha
    change _ ∧ j ≤ b.auctionCount + 1
    rw [update_apply] at ha
    split at ha
    · rename_i hj
      cases ha
      exact ⟨hj.symm, by omega⟩
    · have := h.auction ha
      exact ⟨this.1, by omega⟩
  offer := h.offer
  counter := h.counter
  legacy := h.legacy

theorem openOffer (h : b.Keyed) (hid : o.offerId = b.offerCount + 1) : (b.openOffer o).Keyed where
  listing := h.listing
  auction := h.auction
  offer {j o'} ho := by
    change update b.offer o.offerId (some o) j = some o' at ho
    change _ ∧ j ≤ b.offerCount + 1
    rw [update_apply] at ho
    split at ho
    · rename_i hj
      cases ho
      exact ⟨hj.symm, by omega⟩
    · have := h.offer ho
      exact ⟨this.1, by omega⟩
  counter hc := Nat.le_succ_of_le (h.counter hc)
  legacy := h.legacy

theorem payment (h : b.Keyed) (hp : Payment k b b1) : b1.Keyed := by
  cases hp with
  | nothing => exact h
  | sale token price => exact (h.deposit _ _).pay _ _
  | offer i o hoffer _ _ => exact (h.setStatus hoffer .accepted).pay _ _
  | counter i o hoffer _ _ _ => exact ((h.setStatus hoffer .accepted).deposit _ _).pay _ _

end Book.Keyed

/-- A payment leaves listings and counters alone. -/
theorem Payment.listing_eq (hp : Payment k b b1) :
    b1.listing = b.listing ∧ b1.listingCount = b.listingCount := by
  cases hp <;> exact ⟨rfl, rfl⟩

/-- A payment touches neither the records on sale nor the escrow index. -/
theorem Payment.custody_eq (hp : Payment k b b1) :
    b1.listing = b.listing ∧ b1.auction = b.auction ∧ b1.escrow = b.escrow := by
  cases hp <;> exact ⟨rfl, rfl, rfl⟩

theorem Move.keyed (hm : Move kind b b') (h : b.Keyed) : b'.Keyed := by
  cases hm with
  | openListing l active hid _ _ _ => exact h.openListing hid active
  | editListing k l l' hlisting hsame _ =>
    have := h.listing hlisting
    exact h.setListing (hsame.id.trans this.1) this.2
  | retire k l l' active b1 hlisting _ hsame _ _ hpayment =>
    have := h.listing hlisting
    refine ((h.payment hpayment).refundPending k).closeListing (hsame.id.trans this.1) ?_ active
    change k ≤ b1.listingCount
    rw [hpayment.listing_eq.2]
    exact this.2
  | abandon k l l' active hlisting _ hsame _ _ _ =>
    have := h.listing hlisting
    exact h.closeListing (hsame.id.trans this.1) this.2 active
  | openAuction a hid _ _ _ _ => exact h.openAuction hid
  | editAuction k a a' hauction hsame _ _ _ =>
    have := h.auction hauction
    exact h.setAuction (hsame.id.trans this.1) this.2
  | bid k a a' hauction _ hsame _ _ _ =>
    have := h.auction hauction
    exact ((h.setAuction (hsame.id.trans this.1) this.2).pay _ _).deposit _ _
  | closeAuction k a a' hauction _ hsame _ =>
    have := h.auction hauction
    exact ((h.setAuction (hsame.id.trans this.1) this.2).pay _ _).setEscrow _ _
  | losingRefund k a x _ _ _ => exact h.pay _ _
  | makeOffer o l hid _ _ _ _ => exact (h.openOffer hid).deposit _ _
  | closeOffer i o status hoffer _ _ => exact ((h.setStatus hoffer status).setPending _ _).pay _ _
  | counterOffer o l parent hid _ _ _ _ =>
    have h' := h.openOffer hid
    refine ⟨h'.listing, h'.auction, h'.offer, fun {k} hc => ?_, h'.legacy⟩
    change (update b.counterParent o.offerId (some parent) k).isSome at hc
    rw [update_apply] at hc
    split at hc
    · rename_i hk
      exact Nat.le_of_eq (hk.trans hid)
    · exact h'.counter hc
  | claimRoyalty settlementId isListing token x => exact h.pay _ _

/-- Sequences of moves keep the keys. -/
theorem Moves.keyed (hm : Moves K b b') (h : b.Keyed) : b'.Keyed :=
  hm.invariant (fun _ _ _ _ hmove hb => hmove.keyed hb) h

end ElcareHub.Marketplace
