import ElcareHub.Collections.Common

/-!
# What the lazy-minting collections share

Both lazy-minting contracts carry the same code for signed vouchers: the Merkle allowlist, the
replay and revocation registers, the payment of a redemption with its platform fee (single, and
aggregated per currency in a batch), and the settings of the creator. It is modelled on the part
`LazyBase` of their storage.

`sha256`, `ed25519_verify` and the XDR encoding are functions of the host (`Crypto`). The token
balances are those of the payment tokens.
-/

namespace ElcareHub.Collection

open Call

/-! ### Bytes and cryptography -/

abbrev Bytes := List UInt8

/-- The lowest `width` bytes of `n`, most significant first: `to_be_bytes`. -/
def beBytes (width n : Nat) : Bytes :=
  (List.range width).map fun k => UInt8.ofNat (n / 256 ^ (width - 1 - k))

/-- `to_be_bytes` of an `i128`, in two's complement. -/
def beBytesI128 (x : Int) : Bytes := beBytes 16 (x % 2 ^ 128).toNat

/-- The host functions a voucher is checked with. -/
structure Crypto where
  sha256 : Bytes → Bytes
  ed25519Verify : (pubkey digest signature : Bytes) → Bool
  addressXdr : Address → Bytes
  stringXdr : String → Bytes

/-- A host on which a digest is its own signature, to run the contracts on. -/
def Crypto.plain : Crypto where
  sha256 bytes := bytes
  ed25519Verify _ digest signature := digest = signature
  addressXdr a := beBytes 8 a.num
  stringXdr _ := []

/-- A deployed contract: its address and the host it runs on. -/
structure Deployment where
  self : Address
  crypto : Crypto

/-- One level of a Merkle proof: the smaller hash goes first. -/
def merkleNode (crypto : Crypto) (computed sibling : Bytes) : Bytes :=
  crypto.sha256 (if computed ≤ sibling then computed ++ sibling else sibling ++ computed)

def verifyMerkleProof (crypto : Crypto) (root : Bytes) (leaf : Address) (proof : List Bytes) : Bool :=
  proof.foldl (merkleNode crypto) (crypto.sha256 (crypto.addressXdr leaf)) = root

/-- `valid_until != 0 && sequence > valid_until as u32`: the cast keeps the lowest 32 bits. -/
def voucherExpired (sequence validUntil : Nat) : Bool :=
  validUntil ≠ 0 && decide (validUntil % 2 ^ 32 < sequence)

/-! ### Storage -/

structure LazyBase where
  base : Base
  creatorPubkey : Option Bytes
  platformFeeReceiver : Option Address
  platformFeeBps : Option Nat
  networkPassphrase : Option String
  merkleRoot : Option Bytes
  isPublicPhase : Bool
  /-- `UsedVoucher`, in the multi-token contract `RedeemedVoucher`, by nonce -/
  usedVoucher : Nat → Bool
  /-- by nonce -/
  revokedVoucher : Nat → Bool
  /-- the payment tokens: by token and holder -/
  balances : Address × Address → Int

/-- Nothing stored yet. -/
def LazyBase.fresh (balances : Address × Address → Int) : LazyBase where
  base := .fresh
  creatorPubkey := none
  platformFeeReceiver := none
  platformFeeBps := none
  networkPassphrase := none
  merkleRoot := none
  isPublicPhase := false
  usedVoucher _ := false
  revokedVoucher _ := false
  balances := balances

/-- The codes a contract gives to the errors of the shared code. -/
structure LazyErrors (ε : Type) extends Errors ε where
  notAllowlisted : ε
  invalidMerkleProof : ε
  voucherExpired : ε
  emptyUri : ε
  uriTooLong : ε
  voucherAlreadyRedeemed : ε
  voucherRevoked : ε

section Shared

variable {ε : Type} (dep : Deployment) (env : Env) (err : LazyErrors ε)

/-- Run the code all collections share on its part of the state. -/
def onCommon {α : Type} (c : Call (Fault ε) Base α) : Call (Fault ε) LazyBase α :=
  zoom LazyBase.base (fun base l => { l with base }) c

/-- `only_creator`. -/
def onlyLazyCreator : Call (Fault ε) LazyBase Address := onCommon (onlyCreator env err.toErrors)

/-- The writes the `initialize` entry points share. -/
def initializeLazy (creator : Address) (creatorPubkey : Bytes) (royaltyBps : Nat)
    (royaltyReceiver platformFeeReceiver : Address) (platformFeeBps : Nat)
    (networkPassphrase : String) : Call (Fault ε) LazyBase Unit := do
  onCommon (initializeBase creator royaltyBps royaltyReceiver)
  update fun l =>
    { l with
      creatorPubkey := some creatorPubkey
      platformFeeReceiver := some platformFeeReceiver
      platformFeeBps := some platformFeeBps
      networkPassphrase := some networkPassphrase }

/-! ### Vouchers -/

abbrev checkAllowlist (buyer : Address) (merkleProof : List Bytes) : Call (Fault ε) LazyBase Unit := do
  let isPublic ← view LazyBase.isPublicPhase
  when (isPublic = false) do
    let stored ← view LazyBase.merkleRoot
    let root ← orFail stored err.notAllowlisted
    failIf (merkleProof = []) err.notAllowlisted
    failIf (verifyMerkleProof dep.crypto root buyer merkleProof = false) err.invalidMerkleProof

/-- The first checks of `check_voucher`: expiry, URI, replay, revocation. -/
abbrev checkVoucherLive (nonce validUntil : Nat) (uri : String) : Call (Fault ε) LazyBase Unit := do
  failIf (voucherExpired env.sequence validUntil = true) err.voucherExpired
  validateText uri maxUriLen err.emptyUri err.uriTooLong
  let used ← view fun l => l.usedVoucher nonce
  failIf (used = true) err.voucherAlreadyRedeemed
  let revoked ← view fun l => l.revokedVoucher nonce
  failIf (revoked = true) err.voucherRevoked

/-- `verify_signature_or_panic`. -/
abbrev verifySignature (pubkey digest signature : Bytes) : Call (Fault ε) LazyBase Unit :=
  abortIf (dep.crypto.ed25519Verify pubkey digest signature = false) (.trap "ed25519_verify")

/-- `revoke_voucher` and each round of the second loop of `revoke_vouchers`. -/
abbrev markRevoked (creator : Address) (nonce : Nat) : Call (Fault ε) LazyBase Unit := do
  update fun l => { l with revokedVoucher := Function.update l.revokedVoucher nonce true }
  onCommon (publish (.voucherRevoked creator nonce))

abbrev requireUnused (nonce : Nat) : Call (Fault ε) LazyBase Unit := do
  let used ← view fun l => l.usedVoucher nonce
  failIf (used = true) err.voucherAlreadyRedeemed

abbrev revokeVoucher (nonce : Nat) : Call (Fault ε) LazyBase Unit := do
  let creator ← onlyLazyCreator env err
  requireUnused err nonce
  markRevoked creator nonce

/-- `revoke_vouchers`: check all, then mark all. -/
abbrev revokeVouchers (nonces : List Nat) : Call (Fault ε) LazyBase Unit := do
  let creator ← onlyLazyCreator env err
  each (requireUnused err) nonces
  each (markRevoked creator) nonces

/-! ### Payments -/

/-- Unchecked `i128` arithmetic, which traps outside the range. -/
abbrev checkI128 (x : Int) : Call (Fault ε) LazyBase Int :=
  orAbort (checkedI128 x) (.trap "arithmetic operation overflow")

/-- `TokenClient::transfer`. -/
def transferTokens (token src dst : Address) (amount : Int) : Call (Fault ε) LazyBase Unit :=
  attempt fun l =>
    if TransferRefused env l.balances token src dst amount then .error (.token token)
    else .ok ((), { l with balances := moveBalance l.balances token src dst amount })

/-- `price * fee_bps / 10_000`. -/
abbrev platformFee (price : Int) (feeBps : Nat) : Call (Fault ε) LazyBase Int := do
  let product ← checkI128 (price * feeBps)
  pure (product.tdiv 10000)

abbrev pay (buyer creator currency : Address) (price : Int) (feeBps : Nat) (feeReceiver : Address) :
    Call (Fault ε) LazyBase Unit :=
  if price ≤ 0 then pure ()
  else if 0 < feeBps then do
    let feeAmount ← platformFee price feeBps
    let creatorAmount ← checkI128 (price - feeAmount)
    when (0 < feeAmount) (transferTokens env currency buyer feeReceiver feeAmount)
    when (0 < creatorAmount) (transferTokens env currency buyer creator creatorAmount)
  else transferTokens env currency buyer creator price

/-- `Map<Address, i128>`: totals by currency, in the order of the keys. -/
abbrev Totals := List (Address × Int)

/-- `totals.set(cur, totals.get(cur).unwrap_or(0) + amount)`. -/
def addTotal (currency : Address) (amount : Int) : Totals → Call (Fault ε) LazyBase Totals
  | [] => do
    let sum ← checkI128 (0 + amount)
    pure [(currency, sum)]
  | (c, total) :: rest =>
    if c = currency then do
      let sum ← checkI128 (total + amount)
      pure ((c, sum) :: rest)
    else if currency.num < c.num then do
      let sum ← checkI128 (0 + amount)
      pure ((currency, sum) :: (c, total) :: rest)
    else do
      let rest' ← addTotal currency amount rest
      pure ((c, total) :: rest')

/-- Phase 2 of `redeem_batch`: the fee and creator totals over prices in their currencies. -/
def aggregate (feeBps : Nat) : (fees creators : Totals) → List (Address × Int) →
    Call (Fault ε) LazyBase (Totals × Totals)
  | fees, creators, [] => pure (fees, creators)
  | fees, creators, (currency, price) :: rest =>
    if price ≤ 0 then aggregate feeBps fees creators rest
    else do
      let feeAmount ← if 0 < feeBps then platformFee price feeBps else pure 0
      let creatorAmount ← checkI128 (price - feeAmount)
      let fees' ← addTotal currency feeAmount fees
      let creators' ← addTotal currency creatorAmount creators
      aggregate feeBps fees' creators' rest

/-- Phase 3 of `redeem_batch`, for one of the two maps. -/
abbrev payTotals (buyer receiver : Address) (totals : Totals) : Call (Fault ε) LazyBase Unit :=
  each (fun t => when (0 < t.2) (transferTokens env t.1 buyer receiver t.2)) totals

/-- Phases 2 and 3 of `redeem_batch`. -/
abbrev payBatch (buyer creator : Address) (feeBps : Nat) (feeReceiver : Address)
    (prices : List (Address × Int)) : Call (Fault ε) LazyBase Unit := do
  let totals ← aggregate feeBps [] [] prices
  payTotals env buyer feeReceiver totals.1
  payTotals env buyer creator totals.2

/-! ### Settings of the creator -/

abbrev updateCreatorPubkey (newPubkey : Bytes) : Call (Fault ε) LazyBase Unit := do
  let _ ← onlyLazyCreator env err
  update fun l => { l with creatorPubkey := some newPubkey }

abbrev setMerkleRoot (root : Bytes) : Call (Fault ε) LazyBase Unit := do
  let _ ← onlyLazyCreator env err
  update fun l => { l with merkleRoot := some root, isPublicPhase := false }

abbrev setPublicPhase : Call (Fault ε) LazyBase Unit := do
  let _ ← onlyLazyCreator env err
  update fun l => { l with isPublicPhase := true }

end Shared

end ElcareHub.Collection
