import ElcareHub.Marketplace.Refine.Steps
import Mathlib.Data.List.DropRight

/-!
# Which calls settle a deal

Four entry points settle: a purchase, the acceptance of an offer or of a counter-offer, and the end of
an auction that has a winner. What such a call settles is known before it runs (`Op.deal`): a purchase
settles unless the listing has expired, the end of an auction settles if there was a bid. A call that
returns has settled that deal, and a call without one leaves the accounting alone (`op_deal`).

The second half rests on the claim records. The only other entry point that writes the accounting is
`claim_royalty`, and it asks for a record that is still open; but a record is written and closed by
the same payment, so that no call ever finds an open one (`Reachable.allClaimed`).
-/

namespace ElcareHub.Marketplace

open Call Function

set_option synthInstance.maxSize 100000000

variable {C : Type} {host : Host C} {env : Env} {w w' : World C}
variable {id k i : Nat} {isListing r : Bool} {buyer : Address} {u : Unit}

/-! ### Deals -/

/-- The deal that a call settles, if it returns. -/
def Op.deal (env : Env) (w : World C) : Op → Option Deal
  | .listing (.buyArtwork _ listingId) => do
    let listing ← w.listing listingId
    match reachedExpiry env listing.expiresAt with
    | some _ => none
    | none => some (listing.deal listingId (.sale listingId) listing.token listing.price)
  | .offer (.acceptOffer _ offerId) => do
    let offer ← w.offer offerId
    let listing ← w.listing offer.listingId
    some (listing.deal offer.listingId (.offer offerId) offer.token offer.amount)
  | .offer (.acceptCounterOffer _ counterOfferId) => do
    let counter ← w.offer counterOfferId
    let listing ← w.listing counter.listingId
    some (listing.deal counter.listingId (.offer counterOfferId) counter.token counter.amount)
  | .auction (.finalizeAuction _ auctionId) => do
    let auction ← w.auction auctionId
    let _ ← auction.highestBidder
    some (auction.deal auctionId)
  | _ => none

/-- The listing or auction that settlements are recorded under is still on the market. -/
def World.Open (w : World C) (id : Nat) : Bool → Prop
  | true => ∃ l, w.listing id = some l ∧ l.status = .active
  | false => ∃ a, w.auction id = some a ∧ a.status = .active

/-- The listing or auction that settlements are recorded under is closed. -/
def World.Closed (w : World C) (id : Nat) : Bool → Prop
  | true => ∃ l, w.listing id = some l ∧ l.status ≠ .active
  | false => ∃ a, w.auction id = some a ∧ a.status ≠ .active

theorem World.Open.not_closed (h : w.Open id isListing) : ¬ w.Closed id isListing := by
  cases isListing with
  | true =>
    rintro ⟨l, hl, hclosed⟩
    obtain ⟨l', hl', hopen⟩ := h
    obtain rfl : l = l' := Option.mem_unique hl hl'
    exact hclosed hopen
  | false =>
    rintro ⟨a, ha, hclosed⟩
    obtain ⟨a', ha', hopen⟩ := h
    obtain rfl : a = a' := Option.mem_unique ha ha'
    exact hclosed hopen

/-- From `w` to `w'` a call settles the deal `d` and closes what was sold. What it moves before the
legs of the deal comes in, and what it moves after them is on other accounts: the refunds of the
offers that are closed. -/
structure Deal.SettledBy (host : Host C) (env : Env) (d : Deal) (w w' : World C) : Prop where
  opened : w.Open d.id d.isListing
  closed : w'.Closed d.id d.isListing
  settled : ∃ before after, (∀ t ∈ before, t.direction = .deposit) ∧
    (∀ t ∈ after, t.account ≠ d.account) ∧ d.Settled host env before after w w'

theorem refundTransfers_account (h : ∀ o ∈ os, .offer o.offerId ≠ account) :
    ∀ t ∈ refundTransfers os, t.direction = .payout ∧ t.account ≠ account := by
  intro t ht
  obtain ⟨o, ho, rfl⟩ := List.mem_map.mp ht
  exact ⟨rfl, h o ho⟩

/-! ### The legs in the transfer log -/

namespace Deal

variable (d : Deal) (host : Host C) (w w' : World C)

/-- What a call from `w` to `w'` has paid out on the account of the deal. -/
def legs : List Transfer :=
  (w'.transfers.drop w.transfers.length).filter fun t =>
    decide (t.direction = .payout ∧ t.account = d.account)

/-- The royalty is paid first. -/
def royaltyLegs : List Transfer := (d.legs w w').take (d.royalty host w).toList.length

/-- The shares are paid last, one for each recipient. -/
def shareLegs : List Transfer := (d.legs w w').rtake d.recipients.length

/-- The protocol fee is what is paid to the treasury between the two. -/
def feeLegs : List Transfer :=
  (((d.legs w w').drop (d.royalty host w).toList.length).rdrop d.recipients.length).filter fun t =>
    decide (w.config.treasury = some t.counterparty)

variable {d host w w'}

/-- Of the movements of a settlement, those on the account of the deal that go out are its legs. -/
theorem legs_of_transfers {legs : Legs}
    (hbefore : ∀ t ∈ before, t.direction = .deposit) (hafter : ∀ t ∈ after, t.account ≠ d.account)
    (h : w'.transfers = w.transfers ++ before ++ legs.transfers d ++ after) :
    d.legs w w' = legs.transfers d := by
  have hdrop : w'.transfers.drop w.transfers.length = before ++ legs.transfers d ++ after := by
    rw [h, List.append_assoc, List.append_assoc, List.drop_left, List.append_assoc]
  have hnone : before.filter (fun t =>
      decide (t.direction = .payout ∧ t.account = d.account)) = [] := by
    refine List.filter_eq_nil_iff.mpr fun t ht => ?_
    simp [hbefore t ht]
  have hnone' : after.filter (fun t =>
      decide (t.direction = .payout ∧ t.account = d.account)) = [] := by
    refine List.filter_eq_nil_iff.mpr fun t ht => ?_
    simp [hafter t ht]
  have hall : (legs.transfers d).filter (fun t =>
      decide (t.direction = .payout ∧ t.account = d.account)) = legs.transfers d := by
    refine List.filter_eq_self.mpr fun t ht => ?_
    obtain ⟨p, -, rfl⟩ := List.mem_map.mp ht
    simp [payoutTransfer]
  rw [Deal.legs, hdrop, List.filter_append, List.filter_append, hnone, hnone', hall,
    List.nil_append, List.append_nil]

/-- **The legs of a settlement**, as the transfer log and as the accounts have them. -/
theorem SettledBy.legs (h : d.SettledBy host env w w') : ∃ legs : Legs, legs.Of host w d ∧
      d.royaltyLegs host w w' = legs.royalty.toList.map (payoutTransfer d.account d.token) ∧
      d.feeLegs host w w' = legs.fee.toList.map (payoutTransfer d.account d.token) ∧
      d.shareLegs w w' = legs.shares.map (payoutTransfer d.account d.token) ∧ w'.accounting =
        (w.accounting.payAll d.id d.isListing d.token env.sequence legs.payouts).settle d.token
          d.gross legs.collected := by
  obtain ⟨before, after, hbefore, hafter, legs, hlegs, htransfers, haccounting, -⟩ := h.settled
  have hsplit : d.legs w w' = legs.royalty.toList.map (payoutTransfer d.account d.token) ++
      (legs.fee.toList.map (payoutTransfer d.account d.token) ++
        legs.shares.map (payoutTransfer d.account d.token)) := by
    rw [legs_of_transfers hbefore hafter htransfers, Legs.transfers, List.map_append,
      List.map_append, List.append_assoc]
  have hroyalty : (d.royalty host w).toList.length =
      (legs.royalty.toList.map (payoutTransfer d.account d.token)).length := by
    rw [hlegs.royalty, List.length_map]
  have hshares : d.recipients.length =
      (legs.shares.map (payoutTransfer d.account d.token)).length := by
    have := congrArg List.length hlegs.shares
    simpa using this.symm
  refine ⟨legs, hlegs, ?_, ?_, ?_, haccounting⟩
  · rw [royaltyLegs, hsplit, hroyalty, List.take_left]
  · rw [feeLegs, hsplit, hroyalty, List.drop_left, hshares, List.rdrop_append_length]
    refine List.filter_eq_self.mpr fun t ht => ?_
    obtain ⟨p, hp, rfl⟩ := List.mem_map.mp ht
    exact decide_eq_true (hlegs.fee p (Option.mem_toList.mp hp)).1
  · rw [shareLegs, hsplit, hshares, ← List.append_assoc, List.rtake, List.length_append,
      Nat.add_sub_cancel, List.drop_left]

end Deal

/-! ### The settling calls -/

/-- A purchase settles, unless the listing has expired. -/
theorem buyArtwork_deal (hkeyed : w.book.Keyed) (h : Returns (buyArtwork host env buyer k) w r w') :
    ∃ l, w.listing k = some l ∧
      ((∃ exp, reachedExpiry env l.expiresAt = some exp ∧ w'.accounting = w.accounting) ∨
        (reachedExpiry env l.expiresAt = none ∧
          (l.deal k (.sale k) l.token l.price).SettledBy host env w w')) := by
  obtain ⟨l, w1, w2, e, hlisting, hactive, e', hevents, hcases⟩ := buyArtwork_cases h
  refine ⟨l, hlisting, ?_⟩
  rcases hcases with ⟨-, exp, hexpired, hexit⟩ | ⟨-, hunexpired, hsettle⟩
  · left
    have haccounting : w2.accounting = w1.accounting := by
      exact Preserves.eq hexit
    refine ⟨exp, hexpired, ?_⟩
    rw [accounting_of_desk e', haccounting, accounting_of_desk e]
  · right
    have e1 := book_of_desk e
    obtain ⟨hexits, os, hsettled⟩ := buySettle_exits (e1 ▸ hkeyed) (by rw [e1]; exact hlisting)
      hactive hsettle
    rw [← book_of_desk e'] at hexits
    refine ⟨hunexpired, ⟨l, hlisting, hactive⟩, hexits.closed, _, _, by simp, fun t ht => ?_,
      hsettled.around (till_of_desk e) (till_of_desk e') hevents⟩
    exact (refundTransfers_account (by simp [Listing.deal]) t ht).2

theorem acceptOffer_deal (hkeyed : w.book.Keyed)
    (h : Returns (acceptOffer host env artist i) w u w') :
    ∃ o l, w.offer i = some o ∧ w.listing o.listingId = some l ∧
      (l.deal o.listingId (.offer i) o.token o.amount).SettledBy host env w w' := by
  obtain ⟨o, l, w1, w2, e, hoffer, -, hlisting, hactive, hartist, e', hevents, hsettle⟩ :=
    acceptOffer_cases h
  have e1 := book_of_desk e
  obtain ⟨hexits, os, hos, hsettled⟩ := acceptSettle_exits (e1 ▸ hkeyed) (by rw [e1]; exact hoffer)
    (by rw [e1]; exact hlisting) hactive hartist hsettle
  rw [← book_of_desk e'] at hexits
  refine ⟨o, l, hoffer, hlisting, ⟨l, hlisting, hactive⟩, hexits.closed, _, _, by simp,
    fun t ht => ?_, hsettled.around (till_of_desk e) (till_of_desk e') hevents⟩
  exact (refundTransfers_account (by simpa [Listing.deal] using hos) t ht).2

theorem acceptCounterOffer_deal (hkeyed : w.book.Keyed)
    (h : Returns (acceptCounterOffer host env buyer i) w u w') :
    ∃ o l, w.offer i = some o ∧ w.listing o.listingId = some l ∧
      (l.deal o.listingId (.offer i) o.token o.amount).SettledBy host env w w' := by
  obtain ⟨o, l, w1, w2, e, hoffer, -, -, hlisting, hactive, e', hevents, hsettle⟩ :=
    acceptCounterOffer_cases h
  have e1 := book_of_desk e
  obtain ⟨hexits, os, hos, hsettled⟩ := acceptCounterSettle_exits (e1 ▸ hkeyed)
    (by rw [e1]; exact hoffer) (by rw [e1]; exact hlisting) hactive hsettle
  rw [← book_of_desk e'] at hexits
  refine ⟨o, l, hoffer, hlisting, ⟨l, hlisting, hactive⟩, hexits.closed, _, _, by simp,
    fun t ht => ?_, hsettled.around (till_of_desk e) (till_of_desk e') hevents⟩
  exact (refundTransfers_account (by simpa [Listing.deal] using hos) t ht).2

/-- The end of an auction settles if there was a bid. -/
theorem finalizeAuction_deal (hkeyed : w.book.Keyed)
    (h : Returns (finalizeAuction host env caller k) w u w') : ∃ a, w.auction k = some a ∧
      ((a.highestBidder = none ∧ w'.accounting = w.accounting) ∨
        ((∃ winner, a.highestBidder = some winner) ∧ (a.deal k).SettledBy host env w w')) := by
  obtain ⟨a, w1, w2, e, hauction, hactive, e', hevents, hout⟩ := finalizeAuction_cases h
  refine ⟨a, hauction, ?_⟩
  cases hbidder : a.highestBidder with
  | none =>
    left
    have haccounting : w2.accounting = w1.accounting := by
      simp only [finalizeOutcome, hbidder, finalizeUnsold] at hout
      exact Preserves.eq hout
    refine ⟨rfl, ?_⟩
    rw [accounting_of_desk e', haccounting, accounting_of_desk e]
  | some winner =>
    right
    obtain ⟨hbook, hsettled⟩ := finalizeOutcome_won hkeyed hauction hbidder e hout
    have hclosed : w'.auction k = some { a with status := .finalized } := by
      rw [show w'.auction = w2.auction from congrArg Book.auction (book_of_desk e'),
        show w2.auction = _ from congrArg Book.auction hbook]
      exact update_self ..
    exact ⟨⟨winner, rfl⟩, ⟨a, hauction, hactive⟩, ⟨_, hclosed, by simp⟩, [], [], by simp, by simp,
      hsettled.around rfl (till_of_desk e') hevents⟩

/-! ### Claims -/

/-- No payout is still to be claimed. -/
def Accounting.AllClaimed (a : Accounting) : Prop :=
  ∀ key claim, a.royaltyClaim key = some claim → claim.claimed = true

/-- `claim_royalty` finds nothing to pay when everything is claimed. -/
theorem claimRoyalty_aborts (hclaimed : w.accounting.AllClaimed) :
    ¬ Returns (claimRoyalty host env recipient id isListing) w r w' := by
  intro h
  obtain ⟨-, h⟩ := h.check
  obtain ⟨claim, hclaim, h⟩ := h.found
  obtain ⟨w1, hopen, h⟩ := h.seq
  exact (hopen.passed).1 (hclaimed _ claim hclaim)

theorem Accounting.AllClaimed.payAll {a : Accounting} (h : a.AllClaimed) (id : Nat)
    (isListing : Bool) (token : Address) (sequence : Nat) (ps : List RecipientPayout) :
    (a.payAll id isListing token sequence ps).AllClaimed := by
  induction ps generalizing a with
  | nil => exact h
  | cons p ps ih =>
    refine ih fun key claim hclaim => ?_
    change Function.update a.royaltyClaim (id, isListing, p.address) _ key = some claim at hclaim
    by_cases hkey : key = (id, isListing, p.address)
    · rw [hkey, update_self] at hclaim
      cases hclaim
      rfl
    · rw [update_of_ne hkey] at hclaim
      exact h key claim hclaim

theorem Deal.SettledBy.allClaimed {d : Deal} (h : d.SettledBy host env w w')
    (hw : w.accounting.AllClaimed) : w'.accounting.AllClaimed := by
  obtain ⟨_, _, -, -, legs, -, -, haccounting, -⟩ := h.settled
  rw [haccounting]
  exact hw.payAll d.id d.isListing d.token env.sequence legs.payouts

/-! ### Every call -/

/-- **What a call does to the accounts**: it settles its deal, or leaves the accounting alone. -/
theorem op_deal {op : Op} (hkeyed : w.book.Keyed) (hclaimed : w.accounting.AllClaimed)
    (h : Returns (op.exec host env) w () w') : (op.deal env w = none ∧ w'.accounting = w.accounting) ∨
      ∃ d, op.deal env w = some d ∧ d.SettledBy host env w w' := by
  by_cases hoff : Field.accounting ∈ op.footprint
  · cases op with
    | admin op => simp [Op.footprint] at hoff
    | maintenance op => simp [Op.footprint] at hoff
    | listing op =>
      cases op with
      | buyArtwork buyer k =>
        obtain ⟨r, hbuy⟩ := h.discard
        obtain ⟨l, hlisting, hcases⟩ := buyArtwork_deal hkeyed hbuy
        rcases hcases with ⟨exp, hexpired, haccounting⟩ | ⟨hunexpired, hsettled⟩
        · exact .inl ⟨by simp [Op.deal, hlisting, hexpired], haccounting⟩
        · exact .inr ⟨_, by simp [Op.deal, hlisting, hunexpired], hsettled⟩
      | _ => simp [Op.footprint, ListingOp.footprint] at hoff
    | auction op =>
      cases op with
      | finalizeAuction caller k =>
        obtain ⟨a, hauction, hcases⟩ := finalizeAuction_deal hkeyed h
        rcases hcases with ⟨hnone, haccounting⟩ | ⟨⟨winner, hwinner⟩, hsettled⟩
        · exact .inl ⟨by simp [Op.deal, hauction, hnone], haccounting⟩
        · exact .inr ⟨_, by simp [Op.deal, hauction, hwinner], hsettled⟩
      | _ => simp [Op.footprint, AuctionOp.footprint] at hoff
    | offer op =>
      cases op with
      | acceptOffer artist i =>
        obtain ⟨o, l, hoffer, hlisting, hsettled⟩ := acceptOffer_deal hkeyed h
        exact .inr ⟨_, by simp [Op.deal, hoffer, hlisting], hsettled⟩
      | acceptCounterOffer buyer i =>
        obtain ⟨o, l, hoffer, hlisting, hsettled⟩ := acceptCounterOffer_deal hkeyed h
        exact .inr ⟨_, by simp [Op.deal, hoffer, hlisting], hsettled⟩
      | claimRoyalty recipient id isListing =>
        obtain ⟨r, hclaim⟩ := h.discard
        exact (claimRoyalty_aborts hclaimed hclaim).elim
      | _ => simp [Op.footprint, OfferOp.footprint] at hoff
  · left
    have hsame : w'.accounting = w.accounting := op_frame h hoff
    refine ⟨?_, hsame⟩
    -- every call that can settle lists the accounting in its footprint
    unfold Op.deal
    split <;> first
      | rfl
      | exact absurd (by simp [Op.footprint, ListingOp.footprint, AuctionOp.footprint,
          OfferOp.footprint]) hoff

theorem Reachable.allClaimed (hreach : Reachable host w) : w.accounting.AllClaimed := by
  refine hreach.induction (I := fun w => w.accounting.AllClaimed) ?_ ?_ ?_
  · intro balances collections key claim hclaim
    cases hclaim
  · intro env op w w' hreach h hw
    rcases op_deal hreach.keyed hw h with ⟨-, hsame⟩ | ⟨d, -, hsettled⟩
    · rw [hsame]
      exact hw
    · exact hsettled.allClaimed hw
  · intro w collections balances hw
    exact hw

end ElcareHub.Marketplace
