import ElcareHub.Lib.Overwrite
import ElcareHub.Marketplace.Refine.Deals
import ElcareHub.Marketplace.Safety.Lifecycle

/-!
# The records of the payouts

A settlement leaves one claim record under its id for each address it pays as royalty receiver or as
recipient. The records are written payout by payout, and a second payout to the same address replaces
the record of the first. The recipients of a sale are different addresses, so that this happens in one
case only: the royalty receiver is a recipient as well. The records are then exact unless the royalty
comes to nothing (`royalty_claims_exact_iff`).

A listing or auction is settled once. Its records are written in one call, over nothing
(`Reachable.claimsClosed`), and stay as they are afterwards (`claims_settled_for_good`).
-/

namespace ElcareHub.Marketplace

open Call

variable {C : Type} {host : Host C} {env : Env} {w w' : World C}
variable {d : Deal} {isListing : Bool} {p : Address}
variable {rs : List Recipient} {op : Op} {id sequence : Nat} {a : Accounting} {token : Address}
  {ps : List RecipientPayout}

/-! ### Recipients -/

/-- The recipients that pass the checks are different from each other and from those before them. -/
theorem recipientsFault_nodup (h : recipientsFault prior total rs = none) :
    (∀ q ∈ prior, ∀ r ∈ rs, q.address ≠ r.address) ∧ (rs.map Recipient.address).Nodup := by
  induction rs generalizing prior total with
  | nil => exact ⟨fun _ _ r hr => (by cases hr), List.nodup_nil⟩
  | cons r rs ih =>
    simp only [recipientsFault] at h
    split at h
    · cases h
    split at h
    · cases h
    rename_i hnew
    split at h
    · cases h
    obtain ⟨hprior, hnodup⟩ := ih h
    have hfirst : ∀ q ∈ prior, q.address ≠ r.address := by
      simpa using hnew
    refine ⟨fun q hq s hs => ?_, List.nodup_cons.mpr ⟨fun hmem => ?_, hnodup⟩⟩
    · rcases List.mem_cons.mp hs with rfl | hs
      · exact hfirst q hq
      · exact hprior q (List.mem_append_left _ hq) s hs
    · obtain ⟨s, hs, heq⟩ := List.mem_map.mp hmem
      exact hprior r (by simp) s hs heq.symm

theorem ValidRecipients.nodup (h : ValidRecipients rs) : (rs.map Recipient.address).Nodup :=
  (recipientsFault_nodup h.faultless).2

/-- Every listing has recipients that have passed their checks. -/
theorem Reachable.listing_recipients (hreach : Reachable host w) :
    ∀ k l, w.listing k = some l → ValidRecipients l.recipients := by
  refine hreach.induction (I := fun w => ∀ k l, w.listing k = some l →
    ValidRecipients l.recipients) ?_ ?_ ?_
  · intro balances collections k l hl
    cases hl
  · intro env op w w' hreach h hw
    refine op_forall_listing hreach.keyed h (fun k l hnew => ?_) (fun l l' hedit hl => ?_) hw
    · cases hnew with
      | opened artist createdAt request hrequest hprice hrecipients => exact hrecipients
    · cases hedit with
      | revise request hrequest hprice hrecipients => exact hrecipients
      | reprice | reserve | reconcile | close => exact hl
  · intro w collections balances hw
    exact hw

/-- Every auction has recipients that have passed their checks. -/
theorem Reachable.auction_recipients (hreach : Reachable host w) :
    ∀ k a, w.auction k = some a → ValidRecipients a.recipients := by
  refine hreach.induction (I := fun w => ∀ k a, w.auction k = some a →
    ValidRecipients a.recipients) ?_ ?_ ?_
  · intro balances collections k a ha
    cases ha
  · intro env op w w' hreach h hw
    refine op_forall_auction hreach.keyed h (fun k a hnew => ?_) (fun a a' hedit ha => ?_)
      (fun a bidder amount _ ha => ha) hw
    · cases hnew with
      | opened _ _ _ _ _ _ _ _ hrecipients => exact hrecipients
    · cases hedit with
      | reserve | close => exact ha
  · intro w collections balances hw
    exact hw

/-- A deal has the recipients of the listing or auction it sells. -/
theorem Op.deal_recipients (h : op.deal env w = some d) :
    (∃ l, w.listing d.id = some l ∧ d.recipients = l.recipients) ∨
      ∃ a, w.auction d.id = some a ∧ d.recipients = a.recipients := by
  unfold Op.deal at h
  split at h
  · obtain ⟨l, hl, h⟩ := Option.bind_eq_some_iff.mp h
    split at h
    · cases h
    · cases h
      exact .inl ⟨l, hl, rfl⟩
  · obtain ⟨o, ho, h⟩ := Option.bind_eq_some_iff.mp h
    obtain ⟨l, hl, h⟩ := Option.bind_eq_some_iff.mp h
    cases h
    exact .inl ⟨l, hl, rfl⟩
  · obtain ⟨o, ho, h⟩ := Option.bind_eq_some_iff.mp h
    obtain ⟨l, hl, h⟩ := Option.bind_eq_some_iff.mp h
    cases h
    exact .inl ⟨l, hl, rfl⟩
  · obtain ⟨a, ha, h⟩ := Option.bind_eq_some_iff.mp h
    obtain ⟨winner, hwinner, h⟩ := Option.bind_eq_some_iff.mp h
    cases h
    exact .inr ⟨a, ha, rfl⟩
  · cases h

theorem Reachable.deal_nodup (hreach : Reachable host w) (h : op.deal env w = some d) :
    (d.recipients.map Recipient.address).Nodup := by
  rcases Op.deal_recipients h with ⟨l, hl, hrecipients⟩ | ⟨a, ha, hrecipients⟩
  · rw [hrecipients]
    exact (hreach.listing_recipients _ l hl).nodup
  · rw [hrecipients]
    exact (hreach.auction_recipients _ a ha).nodup

/-! ### Closed for good -/

/-- What is closed stays closed. -/
theorem op_closed (hkeyed : w.book.Keyed) (h : Returns (op.exec host env) w () w')
    (hw : w.Closed id isListing) : w'.Closed id isListing := by
  cases isListing with
  | true =>
    obtain ⟨l, hl, hclosed⟩ := hw
    obtain ⟨l', hl', hfollows⟩ := op_listing_follows hkeyed h hl
    refine ⟨l', hl', ?_⟩
    rw [hfollows.closed hclosed]
    exact hclosed
  | false =>
    obtain ⟨a, ha, hclosed⟩ := hw
    obtain ⟨a', ha', hfollows⟩ := op_auction_follows hkeyed h ha
    refine ⟨a', ha', ?_⟩
    rw [hfollows.closed hclosed]
    exact hclosed

/-! ### Claim records -/

/-- The records of a settlement: of the payouts to an address, the last one. -/
theorem Accounting.payAll_claim (a : Accounting) (id : Nat) (isListing : Bool) (token : Address)
    (sequence : Nat) (ps : List RecipientPayout) :
    (a.payAll id isListing token sequence ps).royaltyClaim =
      Overwrite.writeAll (fun p : RecipientPayout => (id, isListing, p.address))
        (paidClaim id isListing token sequence) a.royaltyClaim ps := by
  induction ps generalizing a with
  | nil => rfl
  | cons p ps ih => exact ih (a.pay id isListing token sequence p)

/-- The payouts of a list that go to `p`. -/
def payoutsTo (p : Address) (ps : List RecipientPayout) : List RecipientPayout :=
  ps.filter fun q => decide (q.address = p)

/-- The records of other settlements are left alone. -/
theorem Accounting.payAll_other (hne : (id', isListing') ≠ (id, isListing)) :
    (a.payAll id isListing token sequence ps).royaltyClaim (id', isListing', p) =
      a.royaltyClaim (id', isListing', p) := by
  have hnone : ps.filter (fun q => decide ((id, isListing, q.address) = (id', isListing', p))) =
      [] := by
    refine List.filter_eq_nil_iff.mpr fun q _ heq => hne ?_
    obtain ⟨rfl, rfl, -⟩ : id = id' ∧ isListing = isListing' ∧ q.address = p := by simpa using heq
    rfl
  rw [payAll_claim, Overwrite.writeAll_apply, hnone]
  rfl

theorem Accounting.payAll_own (hnone : a.royaltyClaim (id, isListing, p) = none) :
    (a.payAll id isListing token sequence ps).royaltyClaim (id, isListing, p) =
      (payoutsTo p ps).getLast?.map (paidClaim id isListing token sequence) := by
  have hto : ps.filter (fun q => decide ((id, isListing, q.address) = (id, isListing, p))) =
      payoutsTo p ps := by
    simp [payoutsTo]
  rw [payAll_claim, Overwrite.writeAll_apply, hto, hnone, Option.or_none]

/-- Claims are recorded for what is closed only. -/
def World.ClaimsClosed (w : World C) : Prop :=
  ∀ id isListing p claim, w.accounting.royaltyClaim (id, isListing, p) = some claim →
    w.Closed id isListing

/-- A step leaves the records of what is closed alone. -/
theorem op_claims (hreach : Reachable host w) (h : Returns (op.exec host env) w () w')
    (hclosed : w.Closed id isListing) : w'.accounting.royaltyClaim (id, isListing, p) =
      w.accounting.royaltyClaim (id, isListing, p) := by
  rcases op_deal hreach.keyed hreach.allClaimed h with ⟨-, hsame⟩ | ⟨d, -, hsettled⟩
  · rw [hsame]
  · obtain ⟨legs, -, -, -, -, haccounting⟩ := hsettled.legs
    have hne : (id, isListing) ≠ (d.id, d.isListing) := by
      intro heq
      obtain ⟨rfl, rfl⟩ := Prod.mk.inj heq
      exact hsettled.opened.not_closed hclosed
    rw [haccounting]
    exact Accounting.payAll_other hne

theorem Reachable.claimsClosed (hreach : Reachable host w) : w.ClaimsClosed := by
  refine hreach.induction ?_ ?_ ?_
  · intro balances collections id isListing p claim hclaim
    cases hclaim
  · intro env op w w' hreach h hw id isListing p claim hclaim
    rcases op_deal hreach.keyed hreach.allClaimed h with ⟨-, hsame⟩ | ⟨d, -, hsettled⟩
    · rw [hsame] at hclaim
      exact op_closed hreach.keyed h (hw id isListing p claim hclaim)
    · by_cases heq : (id, isListing) = (d.id, d.isListing)
      · obtain ⟨rfl, rfl⟩ := Prod.mk.inj heq
        exact hsettled.closed
      · obtain ⟨legs, -, -, -, -, haccounting⟩ := hsettled.legs
        rw [haccounting] at hclaim
        exact op_closed hreach.keyed h
          (hw id isListing p claim ((Accounting.payAll_other heq).symm.trans hclaim))
  · intro w collections balances hw
    exact hw

/-- What is closed keeps its records in every run. -/
theorem claims_settled_for_good (hreach : Reachable host w) (hclosed : w.Closed id isListing)
    (steps : List (Step C)) : (run host w steps).accounting.royaltyClaim (id, isListing, p) =
      w.accounting.royaltyClaim (id, isListing, p) := by
  refine (hreach.along_calls
    (I := fun w' => w'.Closed id isListing ∧ w'.accounting.royaltyClaim (id, isListing, p) =
      w.accounting.royaltyClaim (id, isListing, p)) (Run.along_of_forall fun _ _ => trivial)
    ⟨hclosed, rfl⟩ (fun env op w1 w2 hreach _ h hw => ?_) fun w1 _ _ hw => ?_).2
  · exact ⟨op_closed hreach.keyed h hw.1, (op_claims hreach h hw.1).trans hw.2⟩
  · refine ⟨?_, hw.2⟩
    cases isListing <;> exact hw.1

/-! ### Exactness -/

/-- What a settlement from `w` to `w'` has transferred to `p` as royalty receiver or recipient. -/
def Deal.paidTo (host : Host C) (d : Deal) (w w' : World C) (p : Address) : List Transfer :=
  (d.royaltyLegs host w w' ++ d.shareLegs w w').filter fun t => decide (t.counterparty = p)

/-- The claim records in `a` are those of the settlement of `d` from `w` to `w'`: whoever was paid has a
record of the total, marked claimed, and nobody else has one. -/
def Deal.ClaimsExact (host : Host C) (d : Deal) (w w' : World C) (a : Accounting) : Prop :=
  ∀ p, match a.royaltyClaim (d.id, d.isListing, p) with
    | none => d.paidTo host w w' p = []
    | some claim => d.paidTo host w w' p ≠ [] ∧
        claim.amount = transferTotal (d.paidTo host w w' p) ∧ claim.claimed = true

/-- A royalty that comes to something is for somebody who is not a recipient of the sale. The seller
gets no royalty. -/
def Deal.RoyaltyApart (host : Host C) (w : World C) (d : Deal) : Prop :=
  ∀ receiver bps c, host.royaltyInfo w.collections d.collection = some ((receiver, bps), c) →
    receiver ≠ d.seller → 10000 ≤ d.gross * bps →
    receiver ∉ d.recipients.map Recipient.address

/-- Less than 10000 basis points of a unit are rounded down to nothing. -/
theorem royaltyLeg_amount_eq_zero {gross : Int} {bps : Nat} (hgross : 0 ≤ gross) :
    (gross * bps).tdiv 10000 = 0 ↔ ¬ 10000 ≤ gross * bps := by
  have hnonneg : 0 ≤ gross * bps := Int.mul_nonneg hgross (by omega)
  rw [Int.tdiv_eq_ediv_of_nonneg hnonneg]
  omega

theorem Deal.royaltyApart_iff (hgross : 0 ≤ d.gross) :
    d.RoyaltyApart host w ↔ ∀ r, d.royalty host w = some r →
      r.address ∈ d.recipients.map Recipient.address → r.amount = 0 := by
  constructor
  · intro hapart r hr hmem
    obtain ⟨⟨⟨receiver, bps⟩, c⟩, hanswer, hleg⟩ := Option.bind_eq_some_iff.mp hr
    unfold royaltyLeg at hleg
    split at hleg
    · rename_i hdue
      cases hleg
      rw [royaltyLeg_amount_eq_zero hgross]
      exact fun hsome => hapart receiver bps c hanswer hdue.2 hsome hmem
    · cases hleg
  · intro hzero receiver bps c hanswer hseller hsome hmem
    have hbps : 0 < bps := by
      rcases Nat.eq_zero_or_pos bps with rfl | hpos
      · simp at hsome
      · exact hpos
    have hroyalty : d.royalty host w = some ⟨receiver, (d.gross * bps).tdiv 10000⟩ := by
      rw [Deal.royalty, hanswer, Option.bind_some, royaltyLeg, if_pos ⟨hbps, hseller⟩]
    exact (royaltyLeg_amount_eq_zero hgross).mp (hzero _ hroyalty hmem) hsome

/-- Of the payouts to one address the last is the total, unless there are a royalty and a share and the
royalty is not nothing. -/
theorem Legs.last_eq_total_iff {legs : Legs}
    (hnodup : (legs.shares.map RecipientPayout.address).Nodup) :
    (∀ p q, (payoutsTo p legs.payouts).getLast? = some q →
      q.amount = payoutTotal (payoutsTo p legs.payouts)) ↔
    ∀ r, legs.royalty = some r → r.address ∈ legs.shares.map RecipientPayout.address →
      r.amount = 0 := by
  have hsplit (p : Address) : payoutsTo p legs.payouts =
      payoutsTo p legs.royalty.toList ++ payoutsTo p legs.shares := List.filter_append ..
  have hshare {s : RecipientPayout} (hs : s ∈ legs.shares) :
      payoutsTo s.address legs.shares = [s] := Overwrite.filter_key_eq_singleton hnodup hs
  constructor
  · intro hlast r hr hmem
    obtain ⟨s, hs, haddress⟩ := List.mem_map.mp hmem
    have hboth : payoutsTo s.address legs.payouts = [r, s] := by
      rw [hsplit, hshare hs, hr]
      simp [payoutsTo, haddress]
    have htotal := hlast s.address s (by rw [hboth]; rfl)
    rw [hboth, payoutTotal_cons, payoutTotal_cons, payoutTotal_nil] at htotal
    omega
  · intro hzero p q hq
    by_cases hp : ∃ s ∈ legs.shares, s.address = p
    · obtain ⟨s, hs, rfl⟩ := hp
      rw [hsplit, hshare hs] at hq ⊢
      rw [List.getLast?_concat, Option.some.injEq] at hq
      subst hq
      -- what comes before the share is a royalty of nothing
      have hnothing : payoutTotal (payoutsTo s.address legs.royalty.toList) = 0 := by
        cases hr : legs.royalty with
        | none => rfl
        | some r =>
          by_cases hrs : r.address = s.address
          · have := hzero r hr (List.mem_map.mpr ⟨s, hs, hrs.symm⟩)
            simp [payoutsTo, hrs, this]
          · simp [payoutsTo, hrs]
      rw [payoutTotal_append, hnothing, payoutTotal_cons, payoutTotal_nil]
      omega
    · have hnone : payoutsTo p legs.shares = [] :=
        List.filter_eq_nil_iff.mpr fun s hs heq => hp ⟨s, hs, of_decide_eq_true heq⟩
      rw [hsplit, hnone, List.append_nil] at hq ⊢
      cases hr : legs.royalty with
      | none => simp [payoutsTo, hr] at hq
      | some r =>
        by_cases hrp : r.address = p
        · simp only [hr, payoutsTo, hrp, Option.toList_some, List.filter_cons, decide_true,
            List.filter_nil, if_true, List.getLast?_singleton, Option.some.injEq] at hq ⊢
          rw [hq, payoutTotal_cons, payoutTotal_nil, Int.add_zero]
        · simp [payoutsTo, hr, hrp] at hq

/-- The claim records after a settlement, read off its legs. -/
theorem Deal.SettledBy.claimsExact_iff (h : d.SettledBy host env w w')
    (hnodup : (d.recipients.map Recipient.address).Nodup) (hfresh : w.ClaimsClosed) :
    d.ClaimsExact host w w' w'.accounting ↔ d.RoyaltyApart host w := by
  obtain ⟨legs, hlegs, hroyalty, -, hshares, haccounting⟩ := h.legs
  have hpaid (p : Address) : d.paidTo host w w' p =
      (payoutsTo p legs.payouts).map (payoutTransfer d.account d.token) := by
    rw [Deal.paidTo, hroyalty, hshares, ← List.map_append, List.filter_map]
    rfl
  have hclaim (p : Address) : w'.accounting.royaltyClaim (d.id, d.isListing, p) =
      (payoutsTo p legs.payouts).getLast?.map
        (paidClaim d.id d.isListing d.token env.sequence) := by
    rw [haccounting]
    refine Accounting.payAll_own ?_
    -- what is still on the market has no records
    by_contra hsome
    obtain ⟨claim, hclaim⟩ := Option.ne_none_iff_exists'.mp hsome
    exact h.opened.not_closed (hfresh _ _ p claim hclaim)
  rw [royaltyApart_iff hlegs.gross_nonneg, ← hlegs.royalty, ← hlegs.shares,
    ← Legs.last_eq_total_iff (hlegs.shares ▸ hnodup)]
  refine forall_congr' fun p => ?_
  rw [hclaim p, hpaid p]
  cases hlast : (payoutsTo p legs.payouts).getLast? with
  | none =>
    rw [List.getLast?_eq_none_iff] at hlast
    simp [hlast]
  | some q =>
    have hne : payoutsTo p legs.payouts ≠ [] := by
      intro hnil
      rw [hnil] at hlast
      cases hlast
    simp [paidClaim, hne, transferTotal_payoutTransfer]

/-! ### The ledger of claims -/

/-- A page of unclaimed royalties is empty when everything is claimed. -/
theorem getUnclaimedRoyalties_eq_nil (hclaimed : w.accounting.AllClaimed) (recipient : Address)
    (start limit : Nat) : getUnclaimedRoyalties recipient start limit w = .ok ([], w) := by
  have hpage (refs : List RoyaltyClaimRef) :
      refs.filterMap (fun r =>
        (w.accounting.royaltyClaim (r.settlementId, r.isListing, recipient)).filter fun claim =>
          !claim.claimed) = [] := by
    refine List.filterMap_eq_nil_iff.mpr fun r _ => ?_
    cases hclaim : w.accounting.royaltyClaim (r.settlementId, r.isListing, recipient) with
    | none => rfl
    | some claim => simp [hclaimed _ claim hclaim]
  simp only [getUnclaimedRoyalties, view, hpage]

/-- **The claim ledger.** In every reachable state: a settlement leaves exact claim records, now and in
every later state, exactly when its royalty is for somebody who is not a recipient; all records are
marked claimed; `claim_royalty` changes nothing; and there are no unclaimed royalties to list. -/
theorem royalty_claims_exact_iff (host : Host C) (w : World C) (hreach : Reachable host w) :
    (∀ (env : Env) (op : Op) (w' : World C) (d : Deal), Returns (op.exec host env) w () w' →
      op.deal env w = some d → ∀ steps,
        d.ClaimsExact host w w' (run host w' steps).accounting ↔ d.RoyaltyApart host w) ∧
    (∀ key claim, w.accounting.royaltyClaim key = some claim → claim.claimed = true) ∧
    (∀ env recipient id isListing,
      step host w (.call env (.offer (.claimRoyalty recipient id isListing))) = w) ∧
    ∀ recipient start limit, getUnclaimedRoyalties recipient start limit w = .ok ([], w) := by
  have hclaimed := hreach.allClaimed
  refine ⟨fun env op w' d h hdeal steps => ?_, hclaimed, fun env recipient id isListing => ?_,
    getUnclaimedRoyalties_eq_nil hclaimed⟩
  case refine_2 =>
    rcases step_call host w env (.offer (.claimRoyalty recipient id isListing)) with ⟨w', h, -⟩ | heq
    · obtain ⟨r, hclaim⟩ := h.discard
      exact (claimRoyalty_aborts hclaimed hclaim).elim
    · exact heq
  have hreach' := hreach.of_returns h
  obtain ⟨d', hdeal', hsettled⟩ : ∃ d', op.deal env w = some d' ∧ d'.SettledBy host env w w' := by
    rcases op_deal hreach.keyed hclaimed h with ⟨hnone, -⟩ | hsome
    · exact absurd (hdeal.symm.trans hnone) (Option.some_ne_none d)
    · exact hsome
  obtain rfl : d = d' := Option.mem_unique hdeal hdeal'
  rw [← hsettled.claimsExact_iff (hreach.deal_nodup hdeal) hreach.claimsClosed]
  refine forall_congr' fun p => ?_
  rw [claims_settled_for_good hreach' hsettled.closed steps]

/-- The same deployment with collections that ask for a royalty. -/
def Host.askingRoyalty (host : Host C) (receiver : Address) (bps : Nat) : Host C :=
  { host with royaltyInfo := fun c _ => some ((receiver, bps), c) }

/-- A work whose price is shared half and half with `sharer`. -/
def royaltyWork (sharer : Address) : List (Step Unit) :=
  [.call (.signedBy ⟨10⟩ 100) (.listing (.createListing ⟨10⟩
    ⟨1000000, "XLM", ⟨50⟩, ⟨60⟩, 7, 1, [⟨⟨10⟩, 5000⟩, ⟨sharer, 5000⟩], none⟩))]

/-- The royalty goes to an address that has no share: the records are exact. -/
theorem royalty_claims_exact_iff_apart :
    let host := (Host.accepting ⟨0⟩ ⟨10⟩).askingRoyalty ⟨30⟩ 500
    let w := run host (.fresh (fundedBidders ⟨0⟩) ()) (royaltyWork ⟨11⟩)
    ∃ (w' : World Unit) (d : Deal), Returns (buyArtwork host (.signedBy ⟨20⟩ 300) ⟨20⟩ 1) w true w' ∧
      Op.deal (.signedBy ⟨20⟩ 300) w (.listing (.buyArtwork ⟨20⟩ 1)) = some d ∧
      d.ClaimsExact host w w' w'.accounting ∧
      (w'.accounting.royaltyClaim (1, true, ⟨30⟩)).map RoyaltyClaimRecord.amount = some 50000 ∧
      (w'.accounting.royaltyClaim (1, true, ⟨11⟩)).map RoyaltyClaimRecord.amount = some 475000 := by
  have hdeal : (Op.deal (.signedBy ⟨20⟩ 300)
      (run ((Host.accepting ⟨0⟩ ⟨10⟩).askingRoyalty ⟨30⟩ 500) (.fresh (fundedBidders ⟨0⟩) ())
        (royaltyWork ⟨11⟩)) (.listing (.buyArtwork ⟨20⟩ 1))).map
          (fun d => d.recipients.map Recipient.address) = some [⟨10⟩, ⟨11⟩] := by decide +kernel
  obtain ⟨d, hd, hrecipients⟩ := Option.map_eq_some_iff.mp hdeal
  obtain ⟨r, w', hbuy, hp⟩ := exists_returns
    (c := buyArtwork ((Host.accepting ⟨0⟩ ⟨10⟩).askingRoyalty ⟨30⟩ 500) (.signedBy ⟨20⟩ 300) ⟨20⟩ 1)
    (s := run ((Host.accepting ⟨0⟩ ⟨10⟩).askingRoyalty ⟨30⟩ 500) (.fresh (fundedBidders ⟨0⟩) ())
      (royaltyWork ⟨11⟩))
    (p := fun r w' => r &&
      decide ((w'.accounting.royaltyClaim (1, true, ⟨30⟩)).map RoyaltyClaimRecord.amount =
        some 50000) &&
      decide ((w'.accounting.royaltyClaim (1, true, ⟨11⟩)).map RoyaltyClaimRecord.amount =
        some 475000)) (by decide +kernel)
  simp only [Bool.and_eq_true, decide_eq_true_iff] at hp
  obtain ⟨⟨rfl, hreceiver⟩, hsharer⟩ := hp
  have hexec : Returns (Op.exec ((Host.accepting ⟨0⟩ ⟨10⟩).askingRoyalty ⟨30⟩ 500) (.signedBy ⟨20⟩ 300)
      (.listing (.buyArtwork ⟨20⟩ 1))) _ () w' := returns_discard.mpr ⟨true, hbuy⟩
  refine ⟨w', d, hbuy, hd, ?_, hreceiver, hsharer⟩
  refine ((royalty_claims_exact_iff _ _ (reachable_run ..)).1 _ _ w' d hexec hd []).mpr ?_
  rintro receiver bps c ⟨⟩ - -
  rw [hrecipients]
  decide

/-- The royalty receiver has a share of the price as well: 525000 are transferred, the record says
475000. -/
theorem royalty_claim_overwritten :
    let host := (Host.accepting ⟨0⟩ ⟨10⟩).askingRoyalty ⟨30⟩ 500
    let w := run host (.fresh (fundedBidders ⟨0⟩) ()) (royaltyWork ⟨30⟩)
    ∃ (w' : World Unit) (d : Deal), Returns (buyArtwork host (.signedBy ⟨20⟩ 300) ⟨20⟩ 1) w true w' ∧
      Op.deal (.signedBy ⟨20⟩ 300) w (.listing (.buyArtwork ⟨20⟩ 1)) = some d ∧
      transferTotal (d.paidTo host w w' ⟨30⟩) = 525000 ∧
      (w'.accounting.royaltyClaim (1, true, ⟨30⟩)).map RoyaltyClaimRecord.amount = some 475000 ∧
      ¬ d.ClaimsExact host w w' w'.accounting := by
  intro host w
  have hdeal : (Op.deal (.signedBy ⟨20⟩ 300) w (.listing (.buyArtwork ⟨20⟩ 1))).map
      (fun d => (d.id, d.isListing)) = some (1, true) := by decide +kernel
  obtain ⟨r, w', hbuy, hp⟩ := exists_returns
    (c := buyArtwork host (.signedBy ⟨20⟩ 300) ⟨20⟩ 1) (s := w)
    (p := fun r w' => r &&
      decide ((Op.deal (.signedBy ⟨20⟩ 300) w (.listing (.buyArtwork ⟨20⟩ 1))).map
        (fun d => transferTotal (d.paidTo host w w' ⟨30⟩)) = some 525000) &&
      decide ((w'.accounting.royaltyClaim (1, true, ⟨30⟩)).map RoyaltyClaimRecord.amount =
        some 475000)) (by decide +kernel)
  clear_value w
  simp only [Bool.and_eq_true, decide_eq_true_iff] at hp
  obtain ⟨⟨rfl, hpaid⟩, hrecord⟩ := hp
  obtain ⟨d, hd, hid⟩ := Option.map_eq_some_iff.mp hdeal
  obtain ⟨hid, hlisting⟩ := Prod.mk.inj hid
  rw [hd, Option.map_some, Option.some.injEq] at hpaid
  obtain ⟨claim, hclaim, hamount⟩ := Option.map_eq_some_iff.mp hrecord
  refine ⟨w', d, hbuy, hd, hpaid, hrecord, fun hexact => ?_⟩
  have htotal := hexact ⟨30⟩
  rw [hid, hlisting, hclaim] at htotal
  have := htotal.2.1
  omega

end ElcareHub.Marketplace
