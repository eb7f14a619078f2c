import ElcareHub.Marketplace.Safety.Settlements
import Mathlib.Algebra.BigOperators.Group.Finset.Piecewise
import Mathlib.Algebra.Order.BigOperators.Group.Finset

/-!
# Solvency

The contract keeps the funds of all auctions and offers in one balance. What it holds of a token covers
what it held before its first call together with every standing bid and every pending offer: the balance
follows the log of movements, the log is the sum of its purses, and every purse holds what is due on its
account.
-/

namespace ElcareHub.Marketplace

open Call

set_option synthInstance.maxSize 100000000

variable {C : Type} {host : Host C} {env : Env} {w w' : World C} {t token : Address} {x : Int}
  {account : Account} {i k : Nat}

/-! ### The balance follows the log -/

/-- What a movement adds to the funds in token `t`. -/
def Transfer.flow (t : Address) (m : Transfer) : Int :=
  if m.token = t then if m.direction = .deposit then m.amount else -m.amount else 0

def Account.isClaim : Account → Bool
  | .royaltyClaim _ _ => true
  | _ => false

/-- What the contract holds of `t` besides what it was given by others, and the claims it has paid. -/
def World.float (own t : Address) (w : World C) : Int × List Transfer :=
  (w.balances (t, own) - ((w.transfers.filter (·.counterparty ≠ own)).map (Transfer.flow t)).sum,
    w.transfers.filter (·.account.isClaim))

instance (own : Address) : Ignores (World.float (C := C) own t) World.field
    ([.config, .upkeep, .legacy, .accounting, .locks, .bidRefundRecord, .auctionBlockedBidders,
      .listingPendingOffers, .counterOfferParent, .offerSupersededBy, .activeIndex, .activeListingPos,
      .staleSlots, .escrowedToken, .history, .events, .collections] ++ Field.tables) where
  eq_of_outside h := by
    have hsame := fields_eq h [.balances, .transfers]
    simp only [List.forall_mem_cons, World.field] at hsame
    simp only [World.float, hsame]

/-- The account is not a royalty claim. -/
class Account.Trade (account : Account) : Prop where
  eq : account.isClaim = false

instance : (Account.sale k).Trade := ⟨rfl⟩
instance : (Account.auction k).Trade := ⟨rfl⟩
instance : (Account.offer k).Trade := ⟨rfl⟩

section Preserves

variable [htrade : account.Trade]

theorem transfer_float (m : Transfer) (htrade : m.account.isClaim = false) (h : Returns
      (do tokenTransfer env m.token src dst m.amount; logTransfer m : Tx C Unit) w () w')
    (hends : (src, dst) = if m.direction = .deposit then (m.counterparty, own) else (own, m.counterparty)) :
    w'.float own t = w.float own t := by
  have hflow : moveBalance w.balances m.token src dst m.amount (t, own) =
      w.balances (t, own) + if m.counterparty = own then 0 else m.flow t := by
    simp only [Transfer.flow, moveBalance, Function.update_apply, Prod.mk.injEq]
    grind
  obtain ⟨w1, h1, h2⟩ := h.seq
  rw [tokenTransfer, returns_attempt] at h1
  split at h1 <;> cases h1
  rw [logTransfer, returns_update] at h2
  subst h2
  simp only [World.float, List.filter_append, List.map_append, List.sum_append, hflow]
  by_cases hown : m.counterparty = own <;> simp [hown, htrade]

instance (dst : Address) : Preserves (World.float host.self t) (payTo host env account token dst x) where
  eq h := transfer_float ⟨.payout, account, token, dst, x⟩ htrade.eq h rfl

instance (src : Address) : Preserves (World.float host.self t) (depositFrom host env account token src x) where
  eq h := transfer_float ⟨.deposit, account, token, src, x⟩ htrade.eq h rfl

instance : Preserves (World.float host.self t) (payFee host env account token treasury x) := by
  unfold payFee
  split <;> infer_instance

instance (settlementId : Nat) : Preserves (World.float host.self t) (distributePayoutTracked host env account
    token collection x seller rs buyer fromBuyer feeBps settlementId isListing) := by
  unfold distributePayoutTracked
  infer_instance

end Preserves

instance : Preserves (World.float host.self t) (finalizeOutcome host env auction k) := by
  unfold finalizeOutcome finalizeUnsold
  split <;> infer_instance

instance : Preserves (World.float host.self t) (acceptSettle host env artist o i l k) := by
  unfold acceptSettle
  infer_instance

instance : Preserves (World.float host.self t) (acceptCounterSettle host env buyer o i l k) := by
  unfold acceptCounterSettle
  infer_instance

instance : Preserves (World.float host.self t) (sweepOffer host env i) := by
  refine .next fun _ => ?_
  split <;> infer_instance

instance : Preserves (World.float host.self t) (buyArtwork host env buyer k) := by
  -- the checks, up to the test whether the listing has expired
  iterate 11 refine .next fun _ => ?_
  split <;> infer_instance

/-- **Calls.** Nothing is left to claim, so no call pays a claim. -/
theorem op_float {op : Op} (hclaimed : w.accounting.AllClaimed) (h : Returns (op.exec host env) w () w') :
    w'.float host.self t = w.float host.self t := by
  rcases op with op | op | op | op | op <;> unfold Op.exec at h
  · exact Preserves.eq h
  · exact Preserves.eq h
  · cases op <;> unfold ListingOp.exec at h <;> exact Preserves.eq h
  · cases op <;> unfold AuctionOp.exec at h <;> exact Preserves.eq h
  · cases op <;> unfold OfferOp.exec at h
    case claimRoyalty =>
      obtain ⟨_, h⟩ := h.discard
      exact (claimRoyalty_aborts hclaimed h).elim
    all_goals exact Preserves.eq h

/-! ### The log and the purses -/

/-- What a log leaves in a purse. -/
def netFlow (ms : List Transfer) (p : Purse) : Int :=
  Tally.tally (p.holds .deposit) Transfer.amount ms - Tally.tally (p.holds .payout) Transfer.amount ms

/-- The movements in a token are those of the purses in it. -/
theorem sum_netFlow {accounts : Finset Account} (h : ∀ m ∈ ms, m.account ∈ accounts) :
    ∑ a ∈ accounts, netFlow ms ⟨a, t⟩ = (ms.map (Transfer.flow t)).sum := by
  induction ms with
  | nil => simp [netFlow]
  | cons m ms ih =>
    have hcons (a : Account) :
        netFlow (m :: ms) ⟨a, t⟩ = (if a = m.account then m.flow t else 0) + netFlow ms ⟨a, t⟩ := by
      rw [netFlow, netFlow, Tally.tally_cons, Tally.tally_cons]
      cases hm : m.direction <;> simp only [Purse.holds, Transfer.flow, hm] <;> grind
    rw [List.forall_mem_cons] at h
    rw [Finset.sum_congr rfl fun a _ => hcons a, Finset.sum_add_distrib, Finset.sum_ite_eq', if_pos h.1, ih h.2,
      List.map_cons, List.sum_cons]

/-- What the contract owes on an account: a standing bid, or a pending offer. -/
def Book.due (b : Book) (t : Address) : Account → Int
  | .auction k => b.auctionDue k t
  | .offer i => b.offerFunds i t
  | _ => 0

/-! ### Runs -/

/-- Between calls nobody takes from the contract. -/
def NotTaken (host : Host C) (w : World C) (s : Step C) : Prop :=
  ∀ collections balances, s = .external collections balances →
    ∀ t, w.balances (t, host.self) ≤ balances (t, host.self)

theorem run_float (hrun : Run.Along (step host) (NotTaken host) (.fresh balances collections) steps) :
    let w := run host (.fresh balances collections) steps
    balances (t, host.self) ≤ (w.float host.self t).1 ∧ (w.float host.self t).2 = [] := by
  refine hrun.invariant_of
    (I := fun w => balances (t, host.self) ≤ (w.float host.self t).1 ∧ (w.float host.self t).2 = [])
    (reachable_run host balances collections []) (fun _ s hw => hw.step s) ⟨Int.le_of_eq (Int.sub_zero _).symm, rfl⟩
    fun w s hreach hw hs => ?_
  cases s with
  | call env op =>
    rcases step_call host w env op with ⟨w', h, heq⟩ | heq
    · rwa [heq, op_float hreach.allClaimed h]
    · rwa [heq]
  | external collections balances => exact ⟨hw.1.trans (Int.sub_le_sub_right (hs _ _ rfl t) _), hw.2⟩

/-- A run in which no bid is refunded after the close of its auction, no counter-offer is made, nobody takes
from the contract between calls and it makes no payment to itself. -/
structure Plain (host : Host C) (balances : Address × Address → Int) (collections : C) (steps : List (Step C)) :
    Prop where
  refund : ∀ k, Run.Along (step host) (NoLosingRefund k) (.fresh balances collections) steps
  counter : ∀ i, Run.Along (step host) (NoCounterOffer host i) (.fresh balances collections) steps
  taken : Run.Along (step host) (NotTaken host) (.fresh balances collections) steps
  self : ∀ m ∈ (run host (.fresh balances collections) steps).transfers, m.counterparty ≠ host.self

theorem Plain.counterParent (h : Plain host balances collections steps) (i : Nat) :
    (run host (.fresh balances collections) steps).book.counterParent i = none :=
  run_invariant (I := (·.counterParent i = none)) ((h.counter i).mono fun _ _ h => h.allows) rfl
    fun _ _ _ hkind hm _ hb => (hm.counterParent_eq hkind).trans hb

/-- The balance follows the log from `start`, and every purse holds what is due on its account. -/
structure Backed (own : Address) (start : Address × Address → Int) (w : World C) : Prop where
  log : ∀ t, start (t, own) + (w.transfers.map (Transfer.flow t)).sum ≤ w.balances (t, own)
  purse : ∀ a t, w.book.inPurse ⟨a, t⟩ = w.book.due t a
  due : ∀ a t, 0 ≤ w.book.due t a

theorem Plain.backed (h : Plain host balances collections steps) :
    Backed host.self balances (run host (.fresh balances collections) steps) := by
  have hfloat (t : Address) := run_float (t := t) h.taken
  have hreach := reachable_run host balances collections steps
  have hbids := hreach.invariant (fun _ _ ha => by cases ha) fun _ _ _ hm _ hb => hm.bidsSound hb
  have hauction (k : Nat) := run_invariant ((h.refund k).mono fun _ _ h => h.allows) (fun _ => rfl)
    fun _ _ _ hkind hm hkeyed hb => hm.auctionBacked (k := k) hkind hkeyed hb
  have hoffer (i : Nat) := hreach.offerBooked i (.inl (h.counterParent i))
  have hself := h.self
  generalize run host (.fresh balances collections) steps = w at *
  have hpurse (a : Account) (t : Address) : w.book.inPurse ⟨a, t⟩ = w.book.due t a := by
    cases a with
    | sale k => exact hreach.salesBalanced k t
    | auction k => exact hauction k t
    | offer i => exact hoffer i t
    | royaltyClaim id isListing =>
      have hnone (d : Direction) : Tally.tally (Purse.holds ⟨.royaltyClaim id isListing, t⟩ d) Transfer.amount
          w.transfers = 0 := by
        refine Tally.tally_eq_zero fun m hm => ?_
        have := List.filter_eq_nil_iff.mp (hfloat t).2 m hm
        grind [Purse.holds, Account.isClaim]
      exact (congrArg₂ _ (hnone .deposit) (hnone .payout)).trans (Int.sub_zero 0)
  refine ⟨fun t => ?_, hpurse, fun a t => ?_⟩
  · have hall : w.transfers.filter (·.counterparty ≠ host.self) = w.transfers :=
      List.filter_eq_self.mpr fun m hm => by simpa using hself m hm
    have := (hfloat t).1
    simp only [World.float, hall] at this
    omega
  · cases a with
    | auction k =>
      have : w.deposited _ - w.paidOut _ = _ := hpurse (.auction k) t
      have := (World.AuctionConserved.of_backed (hauction k) hbids).covered t
      omega
    | offer i =>
      unfold Book.due Book.offerFunds
      have := hreach.offersPositive i
      grind
    | _ => exact Int.le_refl 0

theorem Backed.covers (h : Backed own start w) (accounts : Finset Account) :
    start (t, own) + ∑ a ∈ accounts, w.book.due t a ≤ w.balances (t, own) := by
  let log := (w.transfers.map Transfer.account).toFinset ∪ accounts
  have hlog (m : Transfer) (hm : m ∈ w.transfers) : m.account ∈ log :=
    Finset.mem_union_left _ (List.mem_toFinset.mpr (List.mem_map_of_mem hm))
  calc start (t, own) + ∑ a ∈ accounts, w.book.due t a
      ≤ start (t, own) + ∑ a ∈ log, w.book.due t a :=
        Int.add_le_add_left (Finset.sum_le_sum_of_subset_of_nonneg Finset.subset_union_right fun a _ _ => h.due a t) _
    _ = start (t, own) + (w.transfers.map (Transfer.flow t)).sum := by
        rw [← sum_netFlow hlog]
        exact congrArg _ (Finset.sum_congr rfl fun a _ => (h.purse a t).symm)
    _ ≤ w.balances (t, own) := h.log t

/-- **Solvency.** After every plain run, what the contract holds of a token covers what it held at the start
and all it owes in standing bids and pending offers. -/
theorem solvent (h : Plain host balances collections steps) (t : Address) (accounts : Finset Account) :
    let w := run host (.fresh balances collections) steps
    balances (t, host.self) + ∑ a ∈ accounts, w.book.due t a ≤ w.balances (t, host.self) :=
  h.backed.covers accounts

theorem plain_twoOffers : Plain (.accepting ⟨0⟩ ⟨10⟩) (fundedBidders ⟨0⟩) () twoOffers where
  refund k := by simp [twoOffers, NoLosingRefund]
  counter i := by simp [twoOffers, NoCounterOffer]
  taken := by simp [twoOffers, NotTaken]
  self := by decide +kernel

theorem solvent_twoOffers :
    let w := run (.accepting ⟨0⟩ ⟨10⟩) (.fresh (fundedBidders ⟨0⟩) ()) twoOffers
    w.book.due ⟨50⟩ (.offer 1) + w.book.due ⟨50⟩ (.offer 2) ≤ w.balances (⟨50⟩, ⟨0⟩) := by
  simpa [fundedBidders, Host.accepting] using solvent plain_twoOffers ⟨50⟩ {.offer 1, .offer 2}

/-- **Withdrawal.** After every plain run, whoever made a pending offer can withdraw it and is paid all of it,
unless the token contract itself refuses. -/
theorem withdraw_goes_through (h : Plain host balances collections steps)
    (hstart : 0 ≤ balances (o.token, host.self))
    (ho : (run host (.fresh balances collections) steps).offer i = some o) (hpending : o.status = .pending)
    (hauth : env.auth o.offerer) (htoken : ¬ env.tokenRefuses o.token host.self o.offerer o.amount) :
    let w := run host (.fresh balances collections) steps
    ∃ w', Returns (withdrawOffer host env o.offerer i) w () w' ∧
      w'.transfers = w.transfers ++ [⟨.payout, .offer i, o.token, o.offerer, o.amount⟩] := by
  have hcovers := h.backed.covers (t := o.token) {.offer i}
  have hpositive := (reachable_run host balances collections steps).offersPositive i o ho
  have hcounter := h.counterParent i
  generalize run host (.fresh balances collections) steps = w at *
  rw [Finset.sum_singleton, Book.due, Book.offerFunds_of_some ho, if_pos ⟨hpending, rfl, hcounter⟩] at hcovers
  have haccepts : ¬ TransferRefused env w.balances o.token host.self o.offerer o.amount := by
    rintro (h | h | h) <;> [omega; omega; exact htoken h]
  simp [ho, hpending, hauth, haccepts, tokenTransfer, saveOffer, setPendingOffers]

theorem withdraw_goes_through_twoOffers :
    let w := run (.accepting ⟨0⟩ ⟨10⟩) (.fresh (fundedBidders ⟨0⟩) ()) twoOffers
    ∃ w', Returns (withdrawOffer (.accepting ⟨0⟩ ⟨10⟩) (.signedBy ⟨20⟩ 300) ⟨20⟩ 2) w () w' := by
  intro w
  have hfacts : (w.offer 2).map (fun o => (o.status, o.offerer)) = some (.pending, ⟨20⟩) := by decide +kernel
  obtain ⟨o, ho, heq⟩ := Option.map_eq_some_iff.mp hfacts
  cases o
  cases heq
  refine (withdraw_goes_through plain_twoOffers ?_ ho rfl rfl Bool.false_ne_true).imp fun _ h => h.1
  simp [fundedBidders, Host.accepting]

end ElcareHub.Marketplace
