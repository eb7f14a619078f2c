import ElcareHub.Marketplace.Storage

/-!
# Splitting and settling a sale price

`distribute` (`math.rs`) splits a price into the protocol fee and one payout per recipient; the last
recipient absorbs the rounding remainder. `distributePayoutTracked` (`contract.rs`) takes the
collection's royalty first, splits what is left, and makes the transfers.

Rust's `i128` division truncates toward zero, so quotients are `Int.tdiv`.
-/

namespace ElcareHub.Marketplace

open Call

/-! ### The split -/

/-- `MAX_RECIPIENTS`, the capacity of the payout array. -/
def maxRecipients : Nat := 4

/-- `checked_mul(bps).checked_div(10_000)`. -/
def bpsOf (x : Int) (bps : Nat) : Option Int :=
  (checkedI128 (x * bps)).map fun v => v.tdiv 10000

def calcRecipientAmount (remaining : Int) (bps : Nat) : Int :=
  if bps = 0 ∨ remaining = 0 then 0 else (bpsOf remaining bps).getD 0

structure DistributeResult where
  fee : Int
  payouts : List RecipientPayout
  dust : Int
  deriving DecidableEq

/-- The recipient loop of `distribute`: `slot` is the position of the head of the list,
`distributed` what the earlier recipients were given. Every recipient but the last gets its share of
`remaining`, the last one what is left. -/
def distributeShares (remaining : Int) :
    (slot : Nat) → (distributed : Int) → List Recipient → Except Abort (List RecipientPayout)
  | _, _, [] => .ok []
  | slot, distributed, r :: rs => do
    let share := if rs.isEmpty then checkedI128 (remaining - distributed)
      else bpsOf remaining r.percentage
    let amount ← share.elim (.error (.contract .arithmeticOverflow)) .ok
    let distributed' ← (checkedI128 (distributed + amount)).elim
      (.error (.contract .arithmeticOverflow)) .ok
    if slot ≥ maxRecipients then .error (.trap "index out of bounds")
    else
      let rest ← distributeShares remaining (slot + 1) distributed' rs
      .ok (⟨r.address, amount⟩ :: rest)

/-- Saturating `i128` arithmetic. -/
def saturateI128 (x : Int) : Int := max i128Min (min x i128Max)

/-- The informational rounding remainder. -/
def dustOf (remaining : Int) (recipients : List Recipient) : Int :=
  let ideal := recipients.foldl
    (fun acc r => saturateI128 (acc + calcRecipientAmount remaining r.percentage)) 0
  max (saturateI128 (remaining - ideal)) 0

/-- `math::distribute`. -/
def distribute (price : Int) (feeBps : Nat) (recipients : List Recipient) :
    Except Abort DistributeResult :=
  if recipients.isEmpty then .error (.contract .invalidSplit)
  else do
    let fee ← (if 0 < feeBps ∧ 0 < price then bpsOf price feeBps else some 0).elim
      (.error (.contract .arithmeticOverflow)) .ok
    let remaining ← (checkedI128 (price - fee)).elim (.error (.contract .arithmeticOverflow)) .ok
    let payouts ← distributeShares remaining 0 0 recipients
    .ok ⟨fee, payouts, dustOf remaining recipients⟩

example :
    distribute 10001 250 [⟨⟨1⟩, 3333⟩, ⟨⟨2⟩, 6667⟩] =
      .ok ⟨250, [⟨⟨1⟩, 3250⟩, ⟨⟨2⟩, 6501⟩], 1⟩ := by decide

/-! ### The transfers -/

section Payout

variable {C : Type} (host : Host C) (env : Env)

/-- The `royalty_info` invocation. -/
def invokeRoyaltyInfo (collection : Address) : Tx C (Address × Nat) :=
  attempt fun w =>
    match host.royaltyInfo w.collections collection with
    | some (info, c) => .ok (info, { w with collections := c })
    | none => .error (.collection collection)

/-- Pay one leg of a settlement: write an open claim record, transfer, mark the record claimed. -/
abbrev payClaim (account : Account) (token : Address) (settlementId : Nat) (isListing : Bool)
    (recipient : Address) (amount : Int) : Tx C Unit := do
  let claim : RoyaltyClaimRecord :=
    { settlementId, isListing, recipient, token, amount, claimed := false,
      createdAt := env.sequence, claimedAt := none }
  setRoyaltyClaim settlementId isListing recipient claim
  emit (.royaltyClaimQueued settlementId isListing recipient token amount env.sequence)
  payTo host env account token recipient amount
  setRoyaltyClaim settlementId isListing recipient
    { claim with claimed := true, claimedAt := some env.sequence }
  emit (.royaltyClaimed settlementId isListing recipient token amount env.sequence)

/-- The royalty leg: what is left of `amount`, and the royalty payout if one was made. -/
abbrev payRoyalty (account : Account) (token : Address) (amount : Int) (seller : Address)
    (settlementId : Nat) (isListing : Bool) (royaltyReceiver : Address) (royaltyBps : Nat) :
    Tx C (Int × List RecipientPayout) :=
  if 0 < royaltyBps ∧ royaltyReceiver ≠ seller then do
    let royalty ← orFail (bpsOf amount royaltyBps) .arithmeticOverflow
    payClaim host env account token settlementId isListing royaltyReceiver royalty
    let payout ← expect (checkedI128 (amount - royalty)) "attempt to subtract with overflow"
    pure (payout, [⟨royaltyReceiver, royalty⟩])
  else
    pure (amount, [])

/-- The fee rate of a settlement: the collection's override, else the snapshotted rate. -/
def settlementFeeBps (config : Config) (collection : Address) (feeBps : Nat) : Nat × Bool :=
  match config.collectionFeeBps collection with
  | some bps => (bps, true)
  | none => (feeBps, false)

/-- Pay the protocol fee, if one is due and a treasury is set, and return what was collected. -/
def payFee (account : Account) (token : Address) (treasury : Option Address) (fee : Int) :
    Tx C Int :=
  match treasury with
  | some t =>
    if 0 < fee then do
      payTo host env account token t fee
      pure fee
    else pure 0
  | none => pure 0

/-- `distribute_payout_tracked`: the protocol fee collected and every payout except the fee. -/
def distributePayoutTracked (account : Account) (token collection : Address) (amount : Int)
    (seller : Address) (recipients : List Recipient) (buyer : Address) (transferFromBuyer : Bool)
    (feeBps settlementId : Nat) (isListing : Bool) : Tx C (Int × List RecipientPayout) := do
  when (transferFromBuyer = true) (depositFrom host env account token buyer amount)
  let (royaltyReceiver, royaltyBps) ← invokeRoyaltyInfo host collection
  let (payout, royaltyPayouts) ←
    payRoyalty host env account token amount seller settlementId isListing royaltyReceiver
      royaltyBps
  let config ← view fun w => w.config
  let (feeRate, isOverride) := settlementFeeBps config collection feeBps
  let effectiveFeeBps := if config.treasury.isSome then feeRate else 0
  emit (.feeAttribution settlementId collection effectiveFeeBps isOverride eventSchemaVersion)
  let dist ← attempt fun w => (distribute payout effectiveFeeBps recipients).map (·, w)
  let feeCollected ← payFee host env account token config.treasury dist.fee
  each (fun e => payClaim host env account token settlementId isListing e.address e.amount)
    dist.payouts
  pure (feeCollected, royaltyPayouts ++ dist.payouts)

/-- What every settlement does after the payout: the fee total and its event, the accounting
counters, the settlement snapshot and the per-recipient breakdown. The four settling entry points
carry a copy of this block each; `listingId` and `auctionId` are what they report. -/
abbrev recordSettlement (id : Nat) (listingId auctionId : Option Nat) (recipients : List Recipient)
    (token : Address) (amount fee : Int) (payouts : List RecipientPayout) : Tx C Unit := do
  let treasury ← view fun w => w.config.treasury
  onSome treasury fun t =>
    when (0 < fee) do
      addProtocolFeeTotal token fee
      emit (.protocolFeeCollected id fee token t eventSchemaVersion)
  addRoyaltyTotal token amount
  incrementSettlementCount token
  emit (.royaltySettlement id recipients amount token env.sequence eventSchemaVersion)
  emit (.royaltyPaid listingId auctionId amount fee token payouts env.sequence)

end Payout

end ElcareHub.Marketplace
