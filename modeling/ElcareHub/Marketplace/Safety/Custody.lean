import ElcareHub.Lib.Mutual
import ElcareHub.Marketplace.Refine.Steps

/-!
# Custody: the escrow index is exact and exclusive

An escrow record stands for exactly one active listing or auction, and every active listing or
auction has one. Read as partial maps, the index (from tokens to records) and the active sales (from
records to tokens) are inverse to each other. A sale opens where the index has no entry, and every
exit closes the sale and its entry together.
-/

namespace ElcareHub.Marketplace

open Function

variable {l : Listing} {a : Auction} {r : EscrowRecord}

/-- The token an active listing sells. -/
def Listing.onSale (l : Listing) : Option (Address × Nat) :=
  if l.status = .active then some (l.collection, l.tokenId) else none

/-- The token an active auction sells. -/
def Auction.onSale (a : Auction) : Option (Address × Nat) :=
  if a.status = .active then some (a.collection, a.tokenId) else none

namespace Book

/-- The token sold by the active listing or auction that `r` names. -/
def sale (b : Book) (r : EscrowRecord) : Option (Address × Nat) :=
  if r.isListing then (b.listing r.id).bind Listing.onSale
  else (b.auction r.id).bind Auction.onSale

/-- The escrow index and the active sales are inverse to each other. -/
def CustodyExact (b : Book) : Prop := Mutual b.escrow b.sale

variable {b b' : Book} {k : Nat}

theorem sale_of_setListing (hlisting : b'.listing = update b.listing k (some l))
    (hauction : b'.auction = b.auction) : b'.sale = update b.sale ⟨true, k⟩ l.onSale := by
  funext ⟨isListing, j⟩
  unfold sale
  rw [hlisting, hauction]
  cases isListing
  · simp
  · by_cases hj : j = k <;> simp [hj]

theorem sale_of_setAuction (hlisting : b'.listing = b.listing)
    (hauction : b'.auction = update b.auction k (some a)) :
    b'.sale = update b.sale ⟨false, k⟩ a.onSale := by
  funext ⟨isListing, j⟩
  unfold sale
  rw [hlisting, hauction]
  cases isListing
  · by_cases hj : j = k <;> simp [hj]
  · simp

theorem sale_listing (h : b.listing k = some l) : b.sale ⟨true, k⟩ = l.onSale := by
  simp [sale, h]

theorem sale_auction (h : b.auction k = some a) : b.sale ⟨false, k⟩ = a.onSale := by
  simp [sale, h]

/-- Ids beyond the counters are not on sale. -/
theorem Keyed.sale_new_listing (h : b.Keyed) : b.sale ⟨true, b.listingCount + 1⟩ = none := by
  cases hl : b.listing (b.listingCount + 1) with
  | none => simp [sale, hl]
  | some l =>
    have := (h.listing hl).2
    omega

theorem Keyed.sale_new_auction (h : b.Keyed) : b.sale ⟨false, b.auctionCount + 1⟩ = none := by
  cases ha : b.auction (b.auctionCount + 1) with
  | none => simp [sale, ha]
  | some a =>
    have := (h.auction ha).2
    omega

end Book

theorem Listing.onSale_of_active (h : l.status = .active) :
    l.onSale = some (l.collection, l.tokenId) := if_pos h

theorem Listing.onSale_of_closed (h : l.status ≠ .active) : l.onSale = none := if_neg h

theorem Auction.onSale_of_active (h : a.status = .active) :
    a.onSale = some (a.collection, a.tokenId) := if_pos h

theorem Auction.onSale_of_closed (h : a.status ≠ .active) : a.onSale = none := if_neg h

theorem Listing.SameAsset.onSale (h : l.SameAsset l')
    (hstatus : l'.status = l.status) : l'.onSale = l.onSale := by
  unfold Listing.onSale
  rw [hstatus, h.collection, h.tokenId]

theorem Auction.SameAsset.onSale (h : a.SameAsset a')
    (hstatus : a'.status = a.status) : a'.onSale = a.onSale := by
  unfold Auction.onSale
  rw [hstatus, h.collection, h.tokenId]

namespace Book.CustodyExact

variable {b b' : Book} {k : Nat}

/-- A move that changes neither the index nor what is on sale. -/
theorem of_same (h : b.CustodyExact) (hescrow : b'.escrow = b.escrow) (hsale : b'.sale = b.sale) :
    b'.CustodyExact := by
  unfold CustodyExact
  rw [hescrow, hsale]
  exact h

/-- A listing or auction record is replaced by one that is on sale as the old one was. -/
theorem of_resave (h : b.CustodyExact)
    (hescrow : b'.escrow = b.escrow) (hsale : b'.sale = update b.sale r asset)
    (hsame : b.sale r = asset) : b'.CustodyExact := by
  refine h.of_same hescrow ?_
  rw [hsale, ← hsame, update_eq_self]

/-- A sale opens. -/
theorem of_open (h : b.CustodyExact) (hescrow : b'.escrow = update b.escrow asset (some r))
    (hsale : b'.sale = update b.sale r (some asset)) (hfree : b.escrow asset = none)
    (hnew : b.sale r = none) : b'.CustodyExact := by
  unfold CustodyExact
  rw [hescrow, hsale]
  exact h.insert hfree hnew

/-- A sale closes. -/
theorem of_close (h : b.CustodyExact) (r : EscrowRecord) (asset : Address × Nat)
    (hescrow : b'.escrow = update b.escrow asset none)
    (hsale : b'.sale = update b.sale r none) (hopen : b.sale r = some asset) : b'.CustodyExact := by
  unfold CustodyExact
  rw [hescrow, hsale]
  exact h.erase hopen

theorem empty : Book.empty.CustodyExact := by
  have hsale : Book.empty.sale = fun _ => none := by
    funext r
    simp [sale, Book.empty]
  unfold CustodyExact
  rw [hsale]
  exact Mutual.empty

/-- A listing leaves the market, whatever was settled before. -/
theorem closeListing (h : b.CustodyExact) {b1 : Book} {active : ActiveIndex}
    (hlisting : b.listing k = some l) (hactive : l.status = .active) (hsame : l.SameAsset l')
    (hclosed : l'.status ≠ .active) (hb1 : b1.listing = b.listing) (hb1' : b1.auction = b.auction)
    (hescrow : b1.escrow = b.escrow) : (b1.closeListing k l' active).CustodyExact := by
  have hasset : (l'.collection, l'.tokenId) = (l.collection, l.tokenId) := by
    rw [hsame.collection, hsame.tokenId]
  refine h.of_close ⟨true, k⟩ (l.collection, l.tokenId) ?_ ?_ ?_
  · change update b1.escrow (l'.collection, l'.tokenId) none = _
    rw [hasset, hescrow]
  · rw [← Listing.onSale_of_closed hclosed]
    refine Book.sale_of_setListing ?_ hb1'
    change update b1.listing k (some l') = _
    rw [hb1]
  · rw [Book.sale_listing hlisting, Listing.onSale_of_active hactive]

end Book.CustodyExact

/-- Every move keeps custody exact. -/
theorem Move.custodyExact (hm : Move kind b b') (hkeyed : b.Keyed)
    (h : b.CustodyExact) : b'.CustodyExact := by
  cases hm with
  | openListing l active hid hactive hfree _ =>
    refine h.of_open rfl ?_ hfree ?_
    · rw [← Listing.onSale_of_active hactive]
      exact Book.sale_of_setListing rfl rfl
    · rw [hid]
      exact hkeyed.sale_new_listing
  | editListing k l l' hlisting hsame hstatus =>
    refine h.of_resave rfl (Book.sale_of_setListing rfl rfl) ?_
    rw [Book.sale_listing hlisting, hsame.onSale hstatus]
  | retire k l l' active b1 hlisting hactive hsame hclosed _ hpayment =>
    obtain ⟨hl, ha, he⟩ := hpayment.custody_eq
    exact h.closeListing hlisting hactive hsame hclosed hl ha he
  | abandon k l l' active hlisting hactive hsame hclosed _ _ =>
    exact h.closeListing hlisting hactive hsame hclosed rfl rfl rfl
  | openAuction a hid hactive _ _ hfree =>
    refine h.of_open rfl ?_ hfree ?_
    · rw [← Auction.onSale_of_active hactive]
      exact Book.sale_of_setAuction rfl rfl
    · rw [hid]
      exact hkeyed.sale_new_auction
  | editAuction k a a' hauction hsame hstatus _ _ =>
    refine h.of_resave rfl (Book.sale_of_setAuction rfl rfl) ?_
    rw [Book.sale_auction hauction, hsame.onSale hstatus]
  | bid k a a' hauction hactive hsame hstatus _ _ =>
    refine h.of_resave rfl (Book.sale_of_setAuction rfl rfl) ?_
    rw [Book.sale_auction hauction, hsame.onSale (hstatus.trans hactive.symm)]
  | closeAuction k a a' hauction hactive hsame hclosed =>
    refine h.of_close ⟨false, k⟩ _ rfl ?_ ?_
    · rw [← Auction.onSale_of_closed hclosed]
      exact Book.sale_of_setAuction rfl rfl
    · rw [Book.sale_auction hauction, Auction.onSale_of_active hactive]
  | losingRefund k a x _ _ _ => exact h.of_same rfl rfl
  | makeOffer o l _ _ _ _ _ => exact h.of_same rfl rfl
  | closeOffer i o status _ _ _ => exact h.of_same rfl rfl
  | counterOffer o l parent _ _ _ _ _ => exact h.of_same rfl rfl
  | claimRoyalty settlementId isListing token x => exact h.of_same rfl rfl

/-! ### Every reachable state -/

variable {C : Type} {host : Host C}

theorem Reachable.custodyExact (hreach : Reachable host w) : w.book.CustodyExact :=
  hreach.invariant .empty fun _ _ _ hm hkeyed hb => hm.custodyExact hkeyed hb

/-- The listing or auction named by `r` is active and sells `asset`. -/
def World.ActiveSale (w : World C) (asset : Address × Nat) (r : EscrowRecord) : Prop :=
  if r.isListing then
    ∃ l, w.listing r.id = some l ∧ l.status = .active ∧ (l.collection, l.tokenId) = asset
  else ∃ a, w.auction r.id = some a ∧ a.status = .active ∧ (a.collection, a.tokenId) = asset

theorem activeSale_iff {w : World C} : w.ActiveSale asset r ↔ w.book.sale r = some asset := by
  obtain ⟨isListing, k⟩ := r
  cases isListing
  · change (∃ a, w.auction k = some a ∧ _) ↔ (w.auction k).bind Auction.onSale = some asset
    simp [Option.bind_eq_some_iff, Auction.onSale]
  · change (∃ l, w.listing k = some l ∧ _) ↔ (w.listing k).bind Listing.onSale = some asset
    simp [Option.bind_eq_some_iff, Listing.onSale]

/-- **Custody is exact and exclusive.** After every run, a token has an escrow record exactly when
exactly one active listing or auction sells it; the record names that listing or auction; and no two
active sales share a token. -/
theorem escrow_index_exact (host : Host C) (balances : Address × Address → Int) (collections : C)
    (steps : List (Step C)) (asset : Address × Nat) :
    let w := run host (.fresh balances collections) steps
    ((w.escrowedToken asset).isSome ↔ ∃! r, w.ActiveSale asset r) ∧
      (∀ r, w.escrowedToken asset = some r ↔ w.ActiveSale asset r) ∧
      ∀ r r', w.ActiveSale asset r → w.ActiveSale asset r' → r = r' := by
  intro w
  have h : Mutual w.book.escrow w.book.sale :=
    (reachable_run host balances collections steps).custodyExact
  simp only [activeSale_iff]
  exact ⟨h.isSome_iff, fun r => h asset r, fun r r' hr hr' => h.unique hr hr'⟩

end ElcareHub.Marketplace
