import ElcareHub.Marketplace.Refine.Deals

/-!
# The lifetime totals are those of the history

For every payment token the contract keeps three running totals: the protocol fees it has collected,
the gross amount it has settled and the number of settlements. The history they are compared with is
what the run has put on record: one `Receipt` for each settlement that went through, with the deal and
the fee transfers found in the log of the call. A call that aborts leaves no receipt.

The totals are kept by four settling calls under conditions of their own, but each of them settles one
deal (`op_deal`), so that one step lemma covers them all.
-/

namespace ElcareHub.Marketplace

open Call Function

variable {C : Type} {host : Host C} {env : Env} {w w' : World C}

/-! ### Receipts -/

/-- What a settlement leaves behind: the deal, and the transfers of the protocol fee. -/
structure Receipt where
  deal : Deal
  fees : List Transfer

/-- The receipt of a call from `w` to `w'`. -/
def receipt (host : Host C) (env : Env) (op : Op) (w w' : World C) : List Receipt :=
  (op.deal env w).toList.map fun d => ⟨d, d.feeLegs host w w'⟩

/-- The receipts of a run, one for each settlement, in order. -/
abbrev receipts (host : Host C) (w : World C) (steps : List (Step C)) : List Receipt :=
  record host (receipt host) w steps

/-- The totals of every token are those of the receipts. -/
structure Accounting.Totals (a : Accounting) (rs : List Receipt) : Prop where
  fees : ∀ token, a.protocolFeeTotal token =
    Tally.tally (fun t => decide (t.token = token)) Transfer.amount (rs.flatMap Receipt.fees)
  gross : ∀ token, a.royaltyTotal token =
    Tally.tally (fun r => decide (r.deal.token = token)) (fun r => r.deal.gross) rs
  count : ∀ token, a.settlementCount token = rs.countP fun r => decide (r.deal.token = token)

/-! ### One settlement -/

namespace Accounting

/-- The records of the payouts are kept apart from the totals. -/
theorem payAll_totals (a : Accounting) (id : Nat) (isListing : Bool) (token : Address)
    (sequence : Nat) (ps : List RecipientPayout) :
    (a.payAll id isListing token sequence ps).protocolFeeTotal = a.protocolFeeTotal ∧
      (a.payAll id isListing token sequence ps).royaltyTotal = a.royaltyTotal ∧
      (a.payAll id isListing token sequence ps).settlementCount = a.settlementCount := by
  induction ps generalizing a with
  | nil => exact ⟨rfl, rfl, rfl⟩
  | cons p ps ih => exact ih (a.pay id isListing token sequence p)

variable {a : Accounting} {rs : List Receipt}

/-- Writing down payouts changes no total. -/
theorem Totals.payAll (h : a.Totals rs) (id : Nat) (isListing : Bool) (token : Address)
    (sequence : Nat) (ps : List RecipientPayout) :
    (a.payAll id isListing token sequence ps).Totals rs := by
  obtain ⟨hfees, hgross, hcount⟩ := a.payAll_totals id isListing token sequence ps
  refine ⟨fun t => ?_, fun t => ?_, fun t => ?_⟩
  · rw [hfees, h.fees]
  · rw [hgross, h.gross]
  · rw [hcount, h.count]

/-- **One more settlement.** Its fee transfers are in its own token and add up to the fee. -/
theorem Totals.settle (h : a.Totals rs) (r : Receipt)
    (htoken : ∀ t ∈ r.fees, t.token = r.deal.token) (hfee : transferTotal r.fees = fee) :
    (a.settle r.deal.token r.deal.gross fee).Totals (rs ++ [r]) := by
  -- the fee transfers count in full for the token of the deal, and not at all for another
  have hown : Tally.tally (fun t : Transfer => decide (t.token = r.deal.token)) Transfer.amount
      r.fees = fee := by
    have hall : r.fees.filter (fun t => decide (t.token = r.deal.token)) = r.fees :=
      List.filter_eq_self.mpr fun t ht => decide_eq_true (htoken t ht)
    rw [Tally.tally, hall]
    exact hfee
  have hother {token : Address} (hne : token ≠ r.deal.token) :
      Tally.tally (fun t : Transfer => decide (t.token = token)) Transfer.amount r.fees = 0 := by
    refine Tally.tally_eq_zero fun t ht => decide_eq_false fun heq => hne ?_
    rw [← heq, htoken t ht]
  refine ⟨fun token => ?_, fun token => ?_, fun token => ?_⟩
  · rw [List.flatMap_append, List.flatMap_singleton, Tally.tally_append, ← h.fees]
    change Function.update a.protocolFeeTotal r.deal.token _ token = _
    by_cases heq : token = r.deal.token
    · rw [heq, update_self, hown]
    · rw [update_of_ne heq, hother heq, Int.add_zero]
  · rw [Tally.tally_append, ← h.gross, Tally.tally_cons]
    change Function.update a.royaltyTotal r.deal.token _ token = _
    by_cases heq : token = r.deal.token
    · simp [heq]
    · simp [heq, Ne.symm heq]
  · rw [List.countP_append, ← h.count]
    change Function.update a.settlementCount r.deal.token _ token = _
    by_cases heq : token = r.deal.token
    · simp [heq]
    · simp [heq, Ne.symm heq]

end Accounting

/-! ### Whole runs -/

/-- A settlement keeps the totals in step with the receipts. -/
theorem Deal.SettledBy.totals (h : d.SettledBy host env w w')
    (hw : w.accounting.Totals rs) : w'.accounting.Totals (rs ++ [⟨d, d.feeLegs host w w'⟩]) := by
  obtain ⟨legs, -, -, hfees, -, haccounting⟩ := h.legs
  rw [haccounting]
  refine (hw.payAll ..).settle ⟨d, d.feeLegs host w w'⟩ ?_ ?_
  · intro t ht
    rw [hfees] at ht
    obtain ⟨p, -, rfl⟩ := List.mem_map.mp ht
    rfl
  · rw [hfees, transferTotal_payoutTransfer, Legs.collected]

/-- **Accounting equals history.** After every run, the totals of every token are those of the
settlements that went through. -/
theorem accounting_equals_history (host : Host C) (balances : Address × Address → Int)
    (collections : C) (steps : List (Step C)) :
    (run host (.fresh balances collections) steps).accounting.Totals
      (receipts host (.fresh balances collections) steps) := by
  refine run_record (receipt host)
    (I := fun rs w => w.accounting.Totals rs) (Run.along_of_forall fun _ _ => trivial) ?_ ?_ ?_
  · exact ⟨fun _ => rfl, fun _ => rfl, fun _ => rfl⟩
  · intro rs env op w w' hreach _ h hw
    rcases op_deal hreach.keyed hreach.allClaimed h with ⟨hnone, hsame⟩ | ⟨d, hdeal, hsettled⟩
    · rw [receipt, hnone, Option.toList_none, List.map_nil, List.append_nil, hsame]
      exact hw
    · rw [receipt, hdeal]
      exact hsettled.totals hw
  · intro rs w collections balances hw
    exact hw

/-- A purchase at a protocol fee of 2.5 per cent; a second one aborts and leaves no receipt. -/
example :
    (receipts (.accepting ⟨0⟩ ⟨10⟩) (.fresh (fundedBidders ⟨0⟩) ())
      [.call (.signedBy ⟨1⟩ 10) (.admin (.setAdmin ⟨1⟩)),
        .call (.signedBy ⟨1⟩ 20) (.admin (.setTreasury ⟨1⟩ ⟨2⟩)),
        .call (.signedBy ⟨1⟩ 30) (.admin (.setProtocolFee ⟨1⟩ 250)),
        .call (.signedBy ⟨10⟩ 100) (.listing (.createListing ⟨10⟩
          ⟨1000000, "XLM", ⟨50⟩, ⟨60⟩, 7, 1, [⟨⟨10⟩, 10000⟩], none⟩)),
        .call (.signedBy ⟨20⟩ 300) (.listing (.buyArtwork ⟨20⟩ 1)),
        .call (.signedBy ⟨21⟩ 300) (.listing (.buyArtwork ⟨21⟩ 1))]).map
      (fun r => (r.deal.gross, r.fees)) =
    [(1000000, [⟨.payout, .sale 1, ⟨50⟩, ⟨2⟩, 25000⟩])] := by decide +kernel

end ElcareHub.Marketplace
