import ElcareHub.Marketplace.Refine.Accounts
import Mathlib.Algebra.Order.BigOperators.Group.List

/-!
# A settlement pays out exactly its price

The split is exact because the last recipient gets what is left, whatever the earlier shares were.
A royalty above the price makes the rest negative; the shares then add up to a negative number, so
that one of them is negative and the token refuses it. Hence a settlement that returns has paid
legs that are not negative and add up to the price.
-/

namespace ElcareHub.Marketplace

open Call

set_option synthInstance.maxSize 100000000

variable {C : Type} {host : Host C} {env : Env} {w w' : World C} {u : Unit} {d : Deal} {rs : List Recipient}
  {price : Int} {feeBps id : Nat}
variable {α : Type} {remaining distributed x amount fee : Int} {slot bps : Nat}
  {ps : List RecipientPayout} {isListing fromBuyer : Bool} {receiver buyer : Address}
  {w1 : World C}

/-- The amounts of a list of payouts, added up. -/
def payoutTotal (ps : List RecipientPayout) : Int := (ps.map RecipientPayout.amount).sum

@[simp]
theorem payoutTotal_nil : payoutTotal [] = 0 := rfl

@[simp]
theorem payoutTotal_cons (p : RecipientPayout) (ps : List RecipientPayout) :
    payoutTotal (p :: ps) = p.amount + payoutTotal ps := rfl

theorem payoutTotal_append (ps qs : List RecipientPayout) :
    payoutTotal (ps ++ qs) = payoutTotal ps + payoutTotal qs := by
  simp [payoutTotal]

/-! ### The split -/

/-- Lifting an option into the error monad succeeds on `some` only. -/
theorem elim_eq_ok : o.elim (.error e) (Except.ok) = Except.ok a ↔ o = some a := by
  cases o <;> simp

theorem map_eq_ok {x : Except Abort α} (h : x.map f = .ok b) : ∃ a, x = .ok a ∧ f a = b := by
  cases x with
  | error e => cases h
  | ok a => exact ⟨a, rfl, by simpa [Except.map] using h⟩

/-- A step of the recipient loop: the share of the head, and the loop over the rest. -/
theorem distributeShares_cons
    (h : distributeShares remaining slot distributed (r :: rs) = .ok ps) :
    ∃ amount rest, ps = ⟨r.address, amount⟩ :: rest ∧
      (if rs.isEmpty then checkedI128 (remaining - distributed) else bpsOf remaining r.percentage) =
        some amount ∧
      distributeShares remaining (slot + 1) (distributed + amount) rs = .ok rest := by
  simp only [distributeShares, bind, Except.bind] at h
  split at h
  · cases h
  · rename_i amount hamount
    split at h
    · cases h
    · rename_i distributed' hnext
      split at h
      · cases h
      · split at h
        · cases h
        · rename_i rest hrest
          cases h
          rw [checkedI128_eq_some (elim_eq_ok.mp hnext)] at hrest
          exact ⟨amount, rest, rfl, elim_eq_ok.mp hamount, hrest⟩

/-- The recipient loop gives every recipient one share, in order, and hands out what is left, to the
last unit. -/
theorem distributeShares_exact (h : distributeShares remaining slot distributed rs = .ok ps) :
    ps.map RecipientPayout.address = rs.map Recipient.address ∧
      (rs ≠ [] → payoutTotal ps = remaining - distributed) := by
  induction rs generalizing slot distributed ps with
  | nil =>
    cases h
    exact ⟨rfl, fun hrs => (hrs rfl).elim⟩
  | cons r rs ih =>
    obtain ⟨amount, rest, rfl, hamount, hrest⟩ := distributeShares_cons h
    obtain ⟨haddresses, htotal⟩ := ih hrest
    refine ⟨by rw [List.map_cons, List.map_cons, haddresses], fun _ => ?_⟩
    rw [payoutTotal_cons]
    cases rs with
    | nil =>
      -- the last recipient
      cases hrest
      have hshare := checkedI128_eq_some hamount
      simp only [payoutTotal_nil]
      omega
    | cons r' rs' =>
      have htail := htotal (by simp)
      simp only
      omega

/-- A split that goes through: the fee, and the loop over what is left. -/
theorem distribute_ok {d : DistributeResult}
    (h : distribute price feeBps rs = .ok d) :
    rs ≠ [] ∧ (if 0 < feeBps ∧ 0 < price then bpsOf price feeBps else some 0) = some d.fee ∧
      distributeShares (price - d.fee) 0 0 rs = .ok d.payouts := by
  unfold distribute at h
  split at h
  · cases h
  · rename_i hrs
    simp only [bind, Except.bind] at h
    split at h
    · cases h
    · rename_i fee hfee
      split at h
      · cases h
      · rename_i remaining hremaining
        split at h
        · cases h
        · rename_i payouts hpayouts
          cases h
          rw [checkedI128_eq_some (elim_eq_ok.mp hremaining)] at hpayouts
          exact ⟨by simpa using hrs, elim_eq_ok.mp hfee, hpayouts⟩

/-- `distribute` splits the price exactly, with a fee that is not negative, and without a fee rate
there is no fee. -/
theorem distribute_total {d : DistributeResult} (h : distribute price feeBps rs = .ok d) :
    d.fee + payoutTotal d.payouts = price ∧ 0 ≤ d.fee ∧ (feeBps = 0 → d.fee = 0) := by
  obtain ⟨hrs, hfee, hpayouts⟩ := distribute_ok h
  have htotal := (distributeShares_exact hpayouts).2 hrs
  refine ⟨by omega, ?_⟩
  split at hfee
  · simp only [bpsOf, Option.map_eq_some_iff] at hfee
    obtain ⟨v, hv, hfee⟩ := hfee
    rw [← hfee, checkedI128_eq_some hv]
    refine ⟨Int.tdiv_nonneg (Int.mul_nonneg (by omega) (by omega)) (by omega), ?_⟩
    intro hzero
    omega
  · have hz : 0 = d.fee := by simpa using hfee
    exact ⟨by omega, fun _ => hz.symm⟩

theorem distribute_addresses
    {d : DistributeResult} (h : distribute price feeBps rs = .ok d) :
    d.payouts.map RecipientPayout.address = rs.map Recipient.address :=
  (distributeShares_exact (distribute_ok h).2.2).1

/-! ### The transfers -/

/-- The transfer that pays `p` out of a settlement. -/
def payoutTransfer (account : Account) (token : Address) (p : RecipientPayout) : Transfer :=
  ⟨.payout, account, token, p.address, p.amount⟩

/-- The amounts of a list of transfers, added up. -/
def transferTotal (ts : List Transfer) : Int := (ts.map Transfer.amount).sum

theorem transferTotal_payoutTransfer (account : Account) (token : Address)
    (ps : List RecipientPayout) :
    transferTotal (ps.map (payoutTransfer account token)) = payoutTotal ps := by
  induction ps with
  | nil => rfl
  | cons p ps ih => simpa [transferTotal, payoutTransfer] using ih

/-- The legs of an exact settlement: the royalty, the fee and the shares of the recipients. None is
negative, together they are the price, and the reported payouts are all of them but the fee. -/
structure ExactLegs (account : Account) (token : Address) (price fee : Int)
    (payouts : List RecipientPayout) (legs : List Transfer) : Prop where
  shape : ∃ royalty shares : List RecipientPayout, ∃ fees : List Transfer,
    payouts = royalty ++ shares ∧ legs = royalty.map (payoutTransfer account token) ++ fees ++
        shares.map (payoutTransfer account token) ∧
      transferTotal fees = fee
  onAccount : ∀ t ∈ legs, t.direction = .payout ∧ t.account = account ∧ t.token = token
  nonneg : ∀ t ∈ legs, 0 ≤ t.amount
  total : transferTotal legs = price
  reported : payoutTotal payouts = price - fee

theorem Book.pay_zero (b : Book) (p : Purse) : b.pay p 0 = b := by
  simp [Book.pay]

/-- From `w` to `w'` the contract makes the payments `legs`, all on one purse, and nothing else that
the book keeps. -/
structure Pays (account : Account) (token : Address) (legs : List Transfer) (w w' : World C) :
    Prop where
  log : w'.transfers = w.transfers ++ legs
  book : w'.book = w.book.pay ⟨account, token⟩ (transferTotal legs)
  onAccount : ∀ t ∈ legs, t.direction = .payout ∧ t.account = account ∧ t.token = token
  nonneg : ∀ t ∈ legs, 0 ≤ t.amount

namespace Pays

variable {account : Account} {token : Address} {legs legs' : List Transfer} {w'' : World C}

/-- A call outside the book and the log pays nothing. -/
theorem of_preserves [Preserves World.book c] [Preserves World.transfers c]
    (h : Returns c w a w') : Pays account token [] w w' where
  log := by rw [Preserves.eq (f := World.transfers) h, List.append_nil]
  book := by
    rw [Preserves.eq (f := World.book) h]
    exact (Book.pay_zero ..).symm
  onAccount := by simp
  nonneg := by simp

theorem append (h : Pays account token legs w w') (h' : Pays account token legs' w' w'') :
    Pays account token (legs ++ legs') w w'' where
  log := by rw [h'.log, h.log, List.append_assoc]
  book := by
    rw [h'.book, h.book]
    simp [Book.pay, transferTotal, Int.add_assoc]
  onAccount t ht := (List.mem_append.mp ht).elim (h.onAccount t) (h'.onAccount t)
  nonneg t ht := (List.mem_append.mp ht).elim (h.nonneg t) (h'.nonneg t)

theorem of_payTo (h : Returns (payTo host env account token dst x) w u w') :
    Pays account token [⟨.payout, account, token, dst, x⟩] w w' := by
  obtain ⟨hx, hlog, hbook⟩ := payTo_book h
  exact ⟨hlog, by simpa [transferTotal] using hbook, by simp, by simpa using hx⟩

/-- A claim is paid: the records around the transfer are not part of the book. -/
theorem of_payClaim (h : Returns (payClaim host env account token id isListing recipient x) w u w') :
    Pays account token [payoutTransfer account token ⟨recipient, x⟩] w w' := by
  obtain ⟨w1, h1, h⟩ := h.seq
  obtain ⟨w2, h2, h⟩ := h.seq
  obtain ⟨w3, h3, h⟩ := h.seq
  obtain ⟨w4, h4, h5⟩ := h.seq
  exact (((of_preserves h1).append (of_preserves h2)).append (of_payTo h3)).append
    ((of_preserves h4).append (of_preserves h5))

theorem of_each_payClaim (h : Returns
      (each (fun e => payClaim host env account token id isListing e.address e.amount) ps)
      w u w') : Pays account token (ps.map (payoutTransfer account token)) w w' := by
  induction ps generalizing w with
  | nil =>
    rw [returns_each_nil] at h
    subst h
    exact of_preserves (c := (pure () : Tx C Unit)) (returns_pure.mpr ⟨rfl, rfl⟩)
  | cons p ps ih =>
    obtain ⟨w1, h1, h2⟩ := h.next
    exact (of_payClaim h1).append (ih h2)

end Pays

/-! ### Deals and their legs -/

/-- What a settlement is about: the id its records are kept under, the account and the token it is
paid in, the collection that is asked for a royalty, who sells, who shares in the price, and the
price. -/
structure Deal where
  id : Nat
  isListing : Bool
  account : Account
  token : Address
  collection : Address
  seller : Address
  recipients : List Recipient
  gross : Int

/-- The royalty on a price for an answer of `royalty_info`: none at a rate of zero, and none when the
receiver is the seller. -/
def royaltyLeg (gross : Int) (seller receiver : Address) (bps : Nat) : Option RecipientPayout :=
  if 0 < bps ∧ receiver ≠ seller then some ⟨receiver, (gross * bps).tdiv 10000⟩ else none

/-- The royalty of a deal that is settled in state `w`. -/
def Deal.royalty (host : Host C) (w : World C) (d : Deal) : Option RecipientPayout :=
  (host.royaltyInfo w.collections d.collection).bind fun answer =>
    royaltyLeg d.gross d.seller answer.1.1 answer.1.2

/-- The legs of a settlement, in the order in which they are paid: the royalty and the fee, if there
are any, and the shares of the recipients. -/
structure Legs where
  royalty : Option RecipientPayout
  fee : Option RecipientPayout
  shares : List RecipientPayout

namespace Legs

/-- Everything but the fee: what is reported, and kept on record. -/
def payouts (legs : Legs) : List RecipientPayout := legs.royalty.toList ++ legs.shares

/-- The fee that was collected. -/
def collected (legs : Legs) : Int := payoutTotal legs.fee.toList

/-- The transfers of a settlement. -/
def transfers (legs : Legs) (d : Deal) : List Transfer :=
  (legs.royalty.toList ++ legs.fee.toList ++ legs.shares).map (payoutTransfer d.account d.token)

/-- `legs` are the legs of the deal `d`, settled in state `w`. -/
structure Of (host : Host C) (w : World C) (d : Deal) (legs : Legs) : Prop where
  royalty : legs.royalty = d.royalty host w
  fee : ∀ p ∈ legs.fee, w.config.treasury = some p.address ∧ 0 < p.amount
  shares : legs.shares.map RecipientPayout.address = d.recipients.map Recipient.address
  nonneg : ∀ t ∈ legs.transfers d, 0 ≤ t.amount
  total : transferTotal (legs.transfers d) = d.gross

theorem transferTotal_transfers (legs : Legs) (d : Deal) :
    transferTotal (legs.transfers d) = legs.collected + payoutTotal legs.payouts := by
  rw [transfers, transferTotal_payoutTransfer, payoutTotal_append, payoutTotal_append, payouts,
    payoutTotal_append, collected]
  omega

/-- The legs of a deal are exact. -/
theorem Of.exact {legs : Legs} (h : legs.Of host w d) :
    ExactLegs d.account d.token d.gross legs.collected legs.payouts (legs.transfers d) where
  shape := by
    refine ⟨legs.royalty.toList, legs.shares,
      legs.fee.toList.map (payoutTransfer d.account d.token), rfl, ?_, ?_⟩
    · rw [transfers, List.map_append, List.map_append]
    · rw [transferTotal_payoutTransfer, collected]
  onAccount t ht := by
    obtain ⟨p, -, rfl⟩ := List.mem_map.mp ht
    exact ⟨rfl, rfl, rfl⟩
  nonneg := h.nonneg
  total := h.total
  reported := by
    have htotal := h.total
    rw [transferTotal_transfers] at htotal
    omega

theorem Of.collected_nonneg {legs : Legs} (h : legs.Of host w d) : 0 ≤ legs.collected := by
  cases hfee : legs.fee with
  | none => simp [collected, hfee]
  | some p =>
    have hpos := (h.fee p hfee).2
    simp only [collected, hfee, Option.toList_some, payoutTotal_cons, payoutTotal_nil]
    omega

/-- Without a treasury no fee is collected. -/
theorem Of.collected_of_no_treasury {legs : Legs} (h : legs.Of host w d)
    (htreasury : w.config.treasury = none) : legs.collected = 0 := by
  cases hfee : legs.fee with
  | none => simp [collected, hfee]
  | some p =>
    have hsome := (h.fee p hfee).1
    rw [htreasury] at hsome
    cases hsome

/-- What was settled is not negative: it is the sum of the legs. -/
theorem Of.gross_nonneg {legs : Legs} (h : legs.Of host w d) : 0 ≤ d.gross := by
  rw [← h.total]
  refine List.sum_nonneg fun x hx => ?_
  obtain ⟨t, ht, rfl⟩ := List.mem_map.mp hx
  exact h.nonneg t ht

end Legs

/-! ### The distribution -/

/-- The royalty leg is paid and put on record, and the rest goes to the split. -/
theorem payRoyalty_spec (h : Returns (payRoyalty host env account token amount seller id isListing receiver bps) w
      (rest, royalty) w') : royalty = (royaltyLeg amount seller receiver bps).toList ∧
      rest = amount - payoutTotal royalty ∧
      Pays account token (royalty.map (payoutTransfer account token)) w w' ∧
      w'.accounting = w.accounting.payAll id isListing token env.sequence royalty := by
  unfold payRoyalty at h
  unfold royaltyLeg
  split at h
  · rename_i hdue
    obtain ⟨x, hx, h⟩ := h.found
    obtain ⟨w2, h2, h⟩ := h.seq
    obtain ⟨rest', hrest, h⟩ := h.found
    obtain ⟨heq, rfl⟩ := h.pure
    cases heq
    obtain ⟨v, hv, rfl⟩ := Option.map_eq_some_iff.mp hx
    refine ⟨?_, ?_, Pays.of_payClaim h2, payClaim_accounting h2⟩
    · rw [if_pos hdue, checkedI128_eq_some hv]
      rfl
    · rw [checkedI128_eq_some hrest]
      simp
  · rename_i hnone
    obtain ⟨heq, rfl⟩ := h.pure
    cases heq
    exact ⟨by rw [if_neg hnone]; rfl, by simp,
      Pays.of_preserves (c := (pure () : Tx C Unit)) (returns_pure.mpr ⟨rfl, rfl⟩), rfl⟩

/-- The fee leg: what is collected is what is paid, and it is paid to the treasury. -/
theorem payFee_spec (hfee : 0 ≤ fee) (hnone : treasury = none → fee = 0)
    (h : Returns (payFee host env account token treasury fee) w collected w') :
    ∃ leg : Option RecipientPayout, (∀ p ∈ leg, treasury = some p.address ∧ 0 < p.amount) ∧
      Pays account token (leg.toList.map (payoutTransfer account token)) w w' ∧
      payoutTotal leg.toList = fee ∧ collected = fee := by
  have hnothing (hzero : fee = 0) (hret : Returns (pure 0 : Tx C Int) w collected w') :
      ∃ leg : Option RecipientPayout, (∀ p ∈ leg, treasury = some p.address ∧ 0 < p.amount) ∧
        Pays account token (leg.toList.map (payoutTransfer account token)) w w' ∧
        payoutTotal leg.toList = fee ∧ collected = fee := by
    have hcollected := (hret.pure).1
    exact ⟨none, by simp, Pays.of_preserves hret, hzero.symm, by omega⟩
  cases treasury with
  | none => exact hnothing (hnone rfl) h
  | some t =>
    change Returns (if 0 < fee then _ else _) w collected w' at h
    by_cases hpos : 0 < fee
    · rw [if_pos hpos] at h
      obtain ⟨w1, h1, h2⟩ := h.seq
      obtain ⟨rfl, rfl⟩ := h2.pure
      refine ⟨some ⟨t, fee⟩, ?_, Pays.of_payTo h1, by simp, rfl⟩
      rintro p ⟨⟩
      exact ⟨rfl, hpos⟩
    · rw [if_neg hpos] at h
      exact hnothing (by omega) h

/-- The buyer's deposit, when the distribution starts with one. -/
theorem whenDeposit_spec (h : Returns (when (fromBuyer = true) (depositFrom host env account token buyer price)) w u
      w') :
    w'.transfers = w.transfers ++
        (if fromBuyer then [⟨.deposit, account, token, buyer, price⟩] else []) ∧
      w'.book = if fromBuyer then w.book.deposit ⟨account, token⟩ price else w.book := by
  cases fromBuyer with
  | false =>
    obtain ⟨hfalse, -⟩ | ⟨-, rfl⟩ := h.when
    · cases hfalse
    · simp
  | true =>
    obtain ⟨-, hdeposit⟩ | ⟨hfalse, -⟩ := h.when
    · exact (depositFrom_book hdeposit).2
    · exact (hfalse rfl).elim

/-- The royalty leg of a deal is the one the collection answers for. -/
theorem royaltyLeg_of_info (h : Returns (invokeRoyaltyInfo host d.collection) w (receiver, bps) w') :
    royaltyLeg d.gross d.seller receiver bps = d.royalty host w := by
  rw [invokeRoyaltyInfo, returns_attempt] at h
  unfold Deal.royalty
  split at h
  · rename_i info c hanswer
    cases h
    rw [hanswer]
    rfl
  · cases h

/-- **The distribution of a price**: an optional deposit, and then the legs of the deal, paid and put
on record. Fee and shares are those of the split of what the royalty leaves. -/
theorem distributePayoutTracked_spec (h : Returns (distributePayoutTracked host env d.account d.token d.collection d.gross d.seller
      d.recipients buyer fromBuyer feeBps d.id d.isListing) w (fee, payouts) w') :
    ∃ legs : Legs, legs.Of host w d ∧ fee = legs.collected ∧ payouts = legs.payouts ∧
      w'.transfers = w.transfers ++
        (if fromBuyer then [⟨.deposit, d.account, d.token, buyer, d.gross⟩] else []) ++
        legs.transfers d ∧
      w'.book = (if fromBuyer then w.book.deposit ⟨d.account, d.token⟩ d.gross else w.book).pay
        ⟨d.account, d.token⟩ d.gross ∧
      w'.accounting = w.accounting.payAll d.id d.isListing d.token env.sequence legs.payouts ∧
      w'.config = w.config ∧
      ∃ split, distribute (d.gross - payoutTotal legs.royalty.toList)
          (if w.config.treasury.isSome then (settlementFeeBps w.config d.collection feeBps).1 else 0)
          d.recipients = .ok split ∧
        legs.collected = split.fee ∧ legs.shares = split.payouts := by
  have hconfig : w'.config = w.config := by
    exact Preserves.eq h
  obtain ⟨w1, hdeposit, h⟩ := h.seq
  obtain ⟨⟨receiver, bps⟩, w2, hinfo, h⟩ := h.bind
  obtain ⟨⟨rest, royalty⟩, w3, hroyalty, h⟩ := h.bind
  replace h := h.view
  obtain ⟨w5, hevent, h⟩ := h.seq
  obtain ⟨split, w6, hsplit, h⟩ := h.bind
  obtain ⟨collected, w7, hfee, h⟩ := h.bind
  obtain ⟨w8, hshares, h⟩ := h.seq
  obtain ⟨heq, rfl⟩ := h.pure
  cases heq
  obtain ⟨_, hd, heq⟩ := map_eq_ok hsplit
  cases heq
  -- the accounts up to the royalty are those of the first state
  have e1 : w1.accounts = w.accounts := Preserves.eq hdeposit
  have e3 : w3.config = w.config := by
    rw [Preserves.eq (f := World.config) hroyalty, Preserves.eq (f := World.config) hinfo]
    exact congrArg Prod.fst e1
  have haccounting2 : w2.accounting = w.accounting := by
    rw [Preserves.eq (f := World.accounting) hinfo]
    exact congrArg (·.2.2) e1
  obtain ⟨htotal, hnonneg, hnofee⟩ := distribute_total hd
  obtain ⟨hleg, hrest, hpays1, haccounting3⟩ := payRoyalty_spec hroyalty
  obtain ⟨feeLeg, hfeeLeg, hpays2, hfeeTotal, rfl⟩ := payFee_spec hnonneg (by
    intro htreasury
    exact hnofee (by simp [htreasury])) hfee
  have hpays := ((((Pays.of_preserves hinfo).append hpays1).append
    (Pays.of_preserves hevent)).append hpays2).append (Pays.of_each_payClaim hshares)
  obtain ⟨hlog1, hbook1⟩ := whenDeposit_spec hdeposit
  have hroyalty' : royaltyLeg d.gross d.seller receiver bps = d.royalty host w := by
    rw [royaltyLeg_of_info hinfo, Deal.royalty, Deal.royalty,
      show w1.collections = w.collections from congrArg (·.2.1) e1]
  -- every movement after the deposit is a leg: royalty, then fee, then shares
  let legs : Legs := ⟨royaltyLeg d.gross d.seller receiver bps, feeLeg, split.payouts⟩
  have htransfers : [] ++ royalty.map (payoutTransfer d.account d.token) ++ [] ++
      feeLeg.toList.map (payoutTransfer d.account d.token) ++
      split.payouts.map (payoutTransfer d.account d.token) = legs.transfers d := by
    rw [Legs.transfers, List.map_append, List.map_append, ← hleg, List.nil_append, List.append_nil]
  rw [htransfers] at hpays
  have hgross : transferTotal (legs.transfers d) = d.gross := by
    rw [Legs.transferTotal_transfers, Legs.payouts, payoutTotal_append, Legs.collected, ← hleg]
    change payoutTotal feeLeg.toList + (payoutTotal royalty + payoutTotal split.payouts) = d.gross
    omega
  refine ⟨legs, ⟨hroyalty', ?_, distribute_addresses hd, hpays.nonneg, hgross⟩, hfeeTotal.symm,
    by rw [Legs.payouts, ← hleg], ?_, ?_, ?_, hconfig, split, ?_, hfeeTotal, rfl⟩
  · rwa [e3] at hfeeLeg
  · rw [hpays.log, hlog1]
  · rw [hpays.book, hgross, hbook1]
  · rw [each_payClaim_accounting hshares, Preserves.eq (f := World.accounting) hfee,
      Preserves.eq (f := World.accounting) hevent, haccounting3, haccounting2,
      Accounting.payAll, Accounting.payAll, ← List.foldl_append, Legs.payouts, ← hleg]
    rfl
  · rw [← hleg, ← hrest, ← e3]
    exact hd

/-- The payouts of a settlement are published. -/
theorem recordSettlement_event
    (h : Returns (recordSettlement env id listingId auctionId rs token amount fee payouts) w u w') :
    .royaltyPaid listingId auctionId amount fee token payouts env.sequence ∈ w'.events := by
  obtain ⟨_, w1, -, h⟩ := h.bind
  obtain ⟨w2, -, h⟩ := h.seq
  obtain ⟨w3, -, h⟩ := h.seq
  obtain ⟨w4, -, h⟩ := h.seq
  obtain ⟨w5, -, h⟩ := h.seq
  rw [← h.update]
  exact List.mem_append_right _ (List.mem_singleton.mpr rfl)

/-- From `w` to `w'` the contract settles a sale: after the movements `before`, the legs of the sale,
and then `after`; the payouts that add up to the price less the fee are published. -/
def PaysExactly (env : Env) (account : Account) (token : Address) (price : Int)
    (listingId auctionId : Option Nat) (before after : List Transfer) (w w' : World C) : Prop :=
  ∃ fee payouts legs, ExactLegs account token price fee payouts legs ∧
    w'.transfers = w.transfers ++ before ++ legs ++ after ∧
    Event.royaltyPaid listingId auctionId price fee token payouts env.sequence ∈ w'.events

/-! ### Settled deals -/

/-- The sale of a listing: at its price, or for an offer. -/
def Listing.deal (l : Listing) (listingId : Nat) (account : Account) (token : Address)
    (gross : Int) : Deal :=
  ⟨listingId, true, account, token, l.collection, l.artist, l.recipients, gross⟩

/-- The sale of an auction to the highest bidder. -/
def Auction.deal (a : Auction) (auctionId : Nat) : Deal :=
  ⟨auctionId, false, .auction auctionId, a.token, a.collection, a.creator, a.recipients, a.highestBid⟩

namespace Deal

/-- The listing a deal is reported under. -/
def listingId (d : Deal) : Option Nat := if d.isListing then some d.id else none

/-- The auction a deal is reported under. -/
def auctionId (d : Deal) : Option Nat := if d.isListing then none else some d.id

/-- From `w` to `w'` the contract settles the deal `d`: after the movements `before`, the legs of the
deal are paid, and after them come the movements `after`. Every payout is on record, the totals of
the token are raised, and the payouts are published. -/
def Settled (host : Host C) (env : Env) (d : Deal) (before after : List Transfer)
    (w w' : World C) : Prop :=
  ∃ legs : Legs, legs.Of host w d ∧
    w'.transfers = w.transfers ++ before ++ legs.transfers d ++ after ∧
    w'.accounting =
      (w.accounting.payAll d.id d.isListing d.token env.sequence legs.payouts).settle d.token
        d.gross legs.collected ∧
    Event.royaltyPaid d.listingId d.auctionId d.gross legs.collected d.token legs.payouts
      env.sequence ∈ w'.events

variable {before after : List Transfer}

theorem Settled.paysExactly (h : d.Settled host env before after w w') :
    PaysExactly env d.account d.token d.gross d.listingId d.auctionId before after w w' := by
  obtain ⟨legs, hlegs, htransfers, -, hevent⟩ := h
  exact ⟨legs.collected, legs.payouts, _, hlegs.exact, htransfers, hevent⟩

end Deal

/-- What the legs of a deal depend on. -/
theorem Legs.Of.congr {legs : Legs} (h : legs.Of host w1 d) (e : w1.accounts = w.accounts) :
    legs.Of host w d := by
  have hconfig : w1.config = w.config := congrArg Prod.fst e
  have hcollections : w1.collections = w.collections := congrArg (·.2.1) e
  refine ⟨?_, hconfig ▸ h.fee, h.shares, h.nonneg, h.total⟩
  rw [h.royalty, Deal.royalty, Deal.royalty, hcollections]

/-- The settlement in the calls around it. -/
theorem Deal.Settled.around (h : d.Settled host env before after w1 w2)
    (hbefore : w1.till = w.till) (hafter : w'.till = w2.till) (hevents : w'.events = w2.events) :
    d.Settled host env before after w w' := by
  obtain ⟨legs, hlegs, htransfers, haccounting, hevent⟩ := h
  have haccounts : w1.accounts = w.accounts := congrArg Prod.snd hbefore
  refine ⟨legs, hlegs.congr haccounts, ?_, ?_, hevents ▸ hevent⟩
  · rw [show w'.transfers = w2.transfers from congrArg Prod.fst hafter, htransfers,
      show w1.transfers = w.transfers from congrArg Prod.fst hbefore]
  · rw [show w'.accounting = w2.accounting from congrArg (·.2.2.2) hafter, haccounting,
      show w1.accounting = w.accounting from congrArg (·.2.2) haccounts]

end ElcareHub.Marketplace
