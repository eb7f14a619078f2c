import ElcareHub.Marketplace.Settings
import ElcareHub.Marketplace.Refine.Effects

/-!
# What the payments of a settlement leave in the accounts

Two programs write the accounting of the contract. `payClaim` leaves one record for the recipient it
pays, `recordSettlement` adds the settlement to the lifetime totals of its token. Both are given here
as functions on the accounting: the counters are only ever raised by what was paid, since an amount
that is not positive is not added and an overflow aborts.
-/

namespace ElcareHub.Marketplace

open Call hiding update
open Function

variable {C : Type} {host : Host C} {env : Env} {w w' : World C} {u : Unit}
variable {w1 : World C} {token : Address} {x : Int}
variable {α : Type} {account : Account} {id : Nat} {isListing : Bool} {fee : Int}

/-! ### Frames -/

/-- What a settlement reads and writes besides the book: the configuration, the collections and the
accounting. -/
def World.accounts (w : World C) : Config × C × Accounting := (w.config, w.collections, w.accounting)

instance : Ignores (World.accounts (C := C)) World.field
    ([.upkeep, .legacy, .escrowedToken, .history, .events, .transfers] ++ Field.tables ++
      Field.background) where
  eq_of_outside h := by
    have hsame := fields_eq h [.config, .collections, .accounting]
    simp only [List.forall_mem_cons, World.field] at hsame
    simp only [World.accounts, hsame]

instance : Ignores (World.accounting (C := C)) World.field
    ([.config, .upkeep, .legacy, .escrowedToken, .history, .events, .collections, .transfers] ++
      Field.tables ++ Field.background) where
  eq_of_outside h := h .accounting (by decide)

instance : Ignores (World.collections (C := C)) World.field
    ([.config, .upkeep, .legacy, .accounting, .escrowedToken, .history, .events, .transfers] ++
      Field.tables ++ Field.background) where
  eq_of_outside h := h .collections (by decide)

/-- The movements and the accounts. -/
def World.till (w : World C) : List Transfer × Config × C × Accounting := (w.transfers, w.accounts)

instance (priority := low) [Preserves World.transfers c]
    [Preserves World.accounts c] : Preserves World.till c where
  eq h := Prod.ext (Preserves.eq (f := World.transfers) h) (Preserves.eq (f := World.accounts) h)

/-- The book, the movements it was booked from, and the accounts. -/
def World.desk (w : World C) : (Book × List Transfer) × Config × C × Accounting :=
  (w.ledger, w.accounts)

instance (priority := low) [Preserves World.ledger c]
    [Preserves World.accounts c] : Preserves World.desk c where
  eq h := Prod.ext (Preserves.eq (f := World.ledger) h) (Preserves.eq (f := World.accounts) h)

theorem book_of_desk (e : w1.desk = w.desk) : w1.book = w.book :=
  congrArg (·.1.1) e

theorem till_of_desk (e : w1.desk = w.desk) : w1.till = w.till :=
  congrArg (fun desk => (desk.1.2, desk.2)) e

theorem accounting_of_desk (e : w1.desk = w.desk) : w1.accounting = w.accounting :=
  congrArg (·.2.2.2) e

/-! ### Claim records -/

/-- The record of a payout that was made: it is written open before the transfer, and marked claimed
in the same ledger after it. -/
def paidClaim (id : Nat) (isListing : Bool) (token : Address) (sequence : Nat)
    (p : RecipientPayout) : RoyaltyClaimRecord where
  settlementId := id
  isListing := isListing
  recipient := p.address
  token := token
  amount := p.amount
  claimed := true
  createdAt := sequence
  claimedAt := some sequence

namespace Accounting

/-- One payout of a settlement on record. -/
def pay (a : Accounting) (id : Nat) (isListing : Bool) (token : Address) (sequence : Nat)
    (p : RecipientPayout) : Accounting :=
  { a with
    royaltyClaim := update a.royaltyClaim (id, isListing, p.address)
      (some (paidClaim id isListing token sequence p))
    recipientRoyaltyIndex :=
      if (a.royaltyClaim (id, isListing, p.address)).isSome then a.recipientRoyaltyIndex
      else update a.recipientRoyaltyIndex p.address
        (a.recipientRoyaltyIndex p.address ++ [⟨id, isListing⟩]) }

/-- The payouts of a settlement on record, one after another. -/
def payAll (a : Accounting) (id : Nat) (isListing : Bool) (token : Address) (sequence : Nat)
    (ps : List RecipientPayout) : Accounting :=
  ps.foldl (fun a p => a.pay id isListing token sequence p) a

/-- A settlement added to the lifetime totals of its token. -/
def settle (a : Accounting) (token : Address) (gross fee : Int) : Accounting :=
  { a with
    protocolFeeTotal :=
      update a.protocolFeeTotal token (a.protocolFeeTotal token + fee)
    royaltyTotal := update a.royaltyTotal token (a.royaltyTotal token + gross)
    settlementCount := update a.settlementCount token (a.settlementCount token + 1) }

end Accounting

theorem modifyAccounting_accounting
    (h : Returns (modifyAccounting g) w u w') : w'.accounting = g w.accounting := by
  rw [modifyAccounting, returns_update] at h
  rw [← h]

/-- The open record is overwritten by the claimed one, and only the first of the two writes can add
to the index of the recipient. -/
theorem payClaim_accounting
    (h : Returns (payClaim host env account token id isListing recipient x) w u w') :
    w'.accounting = w.accounting.pay id isListing token env.sequence ⟨recipient, x⟩ := by
  obtain ⟨w1, hopen, h⟩ := h.seq
  obtain ⟨_, _, w3, e3, h⟩ := h.skip₂ (modifyAccounting_accounting hopen)
  obtain ⟨w4, hclaimed, hemit⟩ := h.seq
  have e4 := modifyAccounting_accounting hclaimed
  rw [Preserves.eq (f := World.accounting) hemit, e4, e3]
  simp [Accounting.pay, paidClaim]

theorem each_payClaim_accounting (h : Returns
      (each (fun e => payClaim host env account token id isListing e.address e.amount) ps)
      w u w') : w'.accounting = w.accounting.payAll id isListing token env.sequence ps := by
  induction ps generalizing w with
  | nil =>
    rw [returns_each_nil] at h
    subst h
    rfl
  | cons p ps ih =>
    obtain ⟨w1, hfirst, hrest⟩ := h.next
    rw [ih hrest, payClaim_accounting hfirst]
    rfl

/-! ### Lifetime totals -/

/-- A total is raised by the amount: for an amount of zero nothing is written, and nothing is what
the total is raised by. -/
theorem addTotal_accounting (total : Accounting → Int) (set : Accounting → Int → Accounting)
    (hset : ∀ a, set a (total a) = a) (hx : 0 ≤ x) (h : Returns
      (if x ≤ 0 then pure ()
        else do
          let current ← view fun w => total w.accounting
          let updated ← orFail (checkedI128 (current + x)) .arithmeticOverflow
          modifyAccounting fun a => set a updated : Tx C Unit) w u w') :
    w'.accounting = set w.accounting (total w.accounting + x) := by
  split at h
  · obtain ⟨-, rfl⟩ := h.pure
    obtain rfl : x = 0 := by omega
    rw [Int.add_zero, hset]
  · obtain ⟨updated, hupdated, h⟩ := h.found
    rw [modifyAccounting_accounting h, checkedI128_eq_some hupdated]

theorem addProtocolFeeTotal_accounting (hx : 0 ≤ x)
    (h : Returns (addProtocolFeeTotal token x) w u w') :
    w'.accounting = { w.accounting with
      protocolFeeTotal := update w.accounting.protocolFeeTotal token
        (w.accounting.protocolFeeTotal token + x) } :=
  addTotal_accounting (fun a => a.protocolFeeTotal token)
    (fun a x => { a with protocolFeeTotal := update a.protocolFeeTotal token x })
    (fun a => by simp) hx h

theorem addRoyaltyTotal_accounting (hx : 0 ≤ x) (h : Returns (addRoyaltyTotal token x) w u w') :
    w'.accounting = { w.accounting with
      royaltyTotal := update w.accounting.royaltyTotal token
        (w.accounting.royaltyTotal token + x) } :=
  addTotal_accounting (fun a => a.royaltyTotal token)
    (fun a x => { a with royaltyTotal := update a.royaltyTotal token x })
    (fun a => by simp) hx h

/-- The fee block of a settlement. Without a treasury no fee was collected, so that the total is
right either way. -/
theorem feeBlock_accounting (hfee : 0 ≤ fee)
    (hnone : treasury = none → fee = 0) (h : Returns
      (onSome treasury fun t =>
        when (0 < fee) do
          addProtocolFeeTotal token fee
          emit (.protocolFeeCollected id fee token t eventSchemaVersion) : Tx C Unit) w u w') :
    w'.accounting = { w.accounting with
      protocolFeeTotal := update w.accounting.protocolFeeTotal token
        (w.accounting.protocolFeeTotal token + fee) } := by
  have hnothing (hzero : fee = 0) : w.accounting = { w.accounting with
      protocolFeeTotal := update w.accounting.protocolFeeTotal token
        (w.accounting.protocolFeeTotal token + fee) } := by
    simp [hzero]
  rcases returns_onSome.mp h with ⟨t, -, hblock⟩ | ⟨htreasury, rfl⟩
  · rcases hblock.when with ⟨-, hadd⟩ | ⟨hzero, rfl⟩
    · obtain ⟨w1, hadd, hemit⟩ := hadd.seq
      rw [Preserves.eq (f := World.accounting) hemit]
      exact addProtocolFeeTotal_accounting hfee hadd
    · exact hnothing (by omega)
  · exact hnothing (hnone htreasury)

/-- **The record of a settlement** adds it to the totals of its token. -/
theorem recordSettlement_accounting (hgross : 0 ≤ gross) (hfee : 0 ≤ fee)
    (hnone : w.config.treasury = none → fee = 0)
    (h : Returns (recordSettlement env id listingId auctionId rs token gross fee payouts) w u w') :
    w'.accounting = w.accounting.settle token gross fee := by
  obtain ⟨w1, hblock, h⟩ := h.seq
  obtain ⟨w2, hroyalty, h⟩ := h.seq
  obtain ⟨w3, hcount, h⟩ := h.seq
  obtain ⟨-, hcount⟩ := hcount.view.check
  rw [Preserves.eq (f := World.accounting) h, modifyAccounting_accounting hcount,
    addRoyaltyTotal_accounting hgross hroyalty, feeBlock_accounting hfee hnone hblock]
  rfl

end ElcareHub.Marketplace
