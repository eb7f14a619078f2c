import ElcareHub.Collections.Vouchers
import ElcareHub.Lib.Run

/-!
# LazyMint1155

The state-changing entry points of `lazy_mint_erc1155`: editions are registered with a maximum
supply, and units of them are minted when a buyer redeems a voucher the creator has signed. A voucher
caps what one buyer may have minted of its edition.
-/

namespace ElcareHub.LazyMint1155

open Collection Call

/-- The error codes of the contract, in the order of their discriminants. -/
inductive Error
  | alreadyInitialized | notInitialized | notApproved | insufficientBalance | lengthMismatch
  | voucherExpired | exceedsVoucherMax | notCreator | editionNotRegistered
  | editionAlreadyRegistered | invalidSignature | maxSupplyReached | voucherAlreadyRedeemed
  | notAllowlisted | invalidMerkleProof | voucherRevoked | alreadyMigrated | unsupportedMigration
  | emptyUri | uriTooLong | zeroAmount | emptyBatch | batchTooLarge | duplicateVoucherInBatch
  | approvalExpired | invalidBps | emptyName | nameTooLong | noPendingCreator | notPendingCreator
  | proposalExpired

open Error in
def errors : LazyErrors Error :=
  { alreadyInitialized, notInitialized, approvalExpired, noPendingCreator, notPendingCreator,
    proposalExpired, invalidBps, alreadyMigrated, notAllowlisted, invalidMerkleProof,
    voucherExpired, emptyUri, uriTooLong, voucherAlreadyRedeemed, voucherRevoked }

structure MintVoucher1155 where
  tokenId : Nat
  nonce : Nat
  buyerQuota : Nat
  pricePerUnit : Int
  currency : Address
  uri : String
  uriHash : Bytes
  validUntil : Nat

structure BatchVoucherItem1155 where
  voucher : MintVoucher1155
  amount : Nat
  signature : Bytes
  merkleProof : List Bytes

structure State where
  lazyBase : LazyBase
  name : Option String
  /-- by holder and token -/
  balance : Address × Nat → Nat
  tokenUri : Nat → Option String
  totalSupply : Nat → Nat
  /-- by buyer and token -/
  mintedPerBuyer : Address × Nat → Nat
  editionMaxSupply : Nat → Option Nat

/-- A contract that has been deployed and not initialised. -/
def State.fresh (balances : Address × Address → Int) : State where
  lazyBase := .fresh balances
  name := none
  balance _ := 0
  tokenUri _ := none
  totalSupply _ := 0
  mintedPerBuyer _ := 0
  editionMaxSupply _ := none

/-- An invocation of the contract. -/
abbrev Tx (α : Type) := Call (Fault Error) State α

/-- Run the shared voucher code on its part of the state. -/
def onLazy {α : Type} (c : Call (Fault Error) LazyBase α) : Tx α :=
  zoom State.lazyBase (fun lazyBase s => { s with lazyBase }) c

/-- Run the code all collections share on its part of the state. -/
abbrev onBase {α : Type} (c : Call (Fault Error) Base α) : Tx α := onLazy (onCommon c)

abbrev emit (e : Event) : Tx Unit := onBase (publish e)

def maxBatchSize : Nat := 100

variable (dep : Deployment) (env : Env)

abbrev setBalance (account : Address) (tokenId n : Nat) : Tx Unit :=
  update fun s => { s with balance := Function.update s.balance (account, tokenId) n }

abbrev setTotalSupply (tokenId n : Nat) : Tx Unit :=
  update fun s => { s with totalSupply := Function.update s.totalSupply tokenId n }

/-! ### Initialisation and editions -/

/-- `initialize`. -/
abbrev initializeCollection (creator : Address) (creatorPubkey : Bytes) (name : String)
    (royaltyBps : Nat) (royaltyReceiver platformFeeReceiver : Address) (platformFeeBps : Nat)
    (networkPassphrase : String) : Tx Unit := do
  let initialized ← view fun s => s.lazyBase.base.initialized
  failIf (initialized = true) .alreadyInitialized
  validateText name maxNameLen .emptyName .nameTooLong
  validateRoyaltyBps royaltyBps .invalidBps
  onLazy (initializeLazy creator creatorPubkey royaltyBps royaltyReceiver platformFeeReceiver
    platformFeeBps networkPassphrase)
  update fun s => { s with name := some name }

abbrev registerEdition (tokenId maxSupply : Nat) : Tx Unit := do
  let _ ← onLazy (onlyLazyCreator env errors)
  let stored ← view fun s => s.editionMaxSupply tokenId
  failIf (stored.isSome = true) .editionAlreadyRegistered
  update fun s =>
    { s with editionMaxSupply := Function.update s.editionMaxSupply tokenId (some maxSupply) }
  emit (.editionRegistered tokenId maxSupply)

/-! ### Redemption -/

/-- The bytes `_voucher_digest` hashes. -/
def voucherBytes (networkPassphrase : Option String) (v : MintVoucher1155) : Bytes :=
  dep.crypto.stringXdr (networkPassphrase.getD "") ++ dep.crypto.addressXdr dep.self ++
    beBytes 8 v.tokenId ++ beBytes 8 v.nonce ++ beBytes 16 v.buyerQuota ++
      beBytesI128 v.pricePerUnit ++ beBytes 8 v.validUntil ++ v.uriHash ++
        dep.crypto.addressXdr v.currency

def voucherDigest (networkPassphrase : Option String) (v : MintVoucher1155) : Bytes :=
  dep.crypto.sha256 (voucherBytes dep networkPassphrase v)

/-- The supply and quota checks of `check_voucher`. -/
abbrev checkCaps (v : MintVoucher1155) (amount : Nat) (buyer : Address) : Tx Unit := do
  let stored ← view fun s => s.editionMaxSupply v.tokenId
  let editionMax ← orFail stored .editionNotRegistered
  let currentSupply ← view fun s => s.totalSupply v.tokenId
  let supply ← addUpTo u128Max currentSupply amount
  failIf (supply > editionMax) .maxSupplyReached
  let already ← view fun s => s.mintedPerBuyer (buyer, v.tokenId)
  let minted ← addUpTo u128Max already amount
  failIf (minted > v.buyerQuota) .exceedsVoucherMax

abbrev checkVoucher (v : MintVoucher1155) (amount : Nat) (signature pubkey : Bytes) (buyer : Address) :
    Tx Unit := do
  onLazy (checkVoucherLive env errors v.nonce v.validUntil v.uri)
  checkCaps v amount buyer
  let passphrase ← view fun s => s.lazyBase.networkPassphrase
  onLazy (verifySignature dep pubkey (voucherDigest dep passphrase v) signature)

/-- `amount as i128`: the cast wraps around. -/
def castI128 (amount : Nat) : Int :=
  if amount < 2 ^ 127 then amount else amount - 2 ^ 128

/-- `price_per_unit.checked_mul(amount as i128).unwrap_or(i128::MAX)`. -/
def totalPrice (pricePerUnit : Int) (amount : Nat) : Int :=
  (checkedI128 (pricePerUnit * castI128 amount)).getD i128Max

abbrev mintItem (buyer : Address) (v : MintVoucher1155) (amount : Nat) (creator : Address) :
    Tx Unit := do
  let bal ← view fun s => s.balance (buyer, v.tokenId)
  let bal ← addUpTo u128Max bal amount
  setBalance buyer v.tokenId bal
  let uri ← view fun s => s.tokenUri v.tokenId
  when (uri.isNone = true) (update fun s =>
    { s with tokenUri := Function.update s.tokenUri v.tokenId (some v.uri) })
  let supply ← view fun s => s.totalSupply v.tokenId
  let supply ← addUpTo u128Max supply amount
  setTotalSupply v.tokenId supply
  let already ← view fun s => s.mintedPerBuyer (buyer, v.tokenId)
  let minted ← addUpTo u128Max already amount
  update fun s =>
    { s with mintedPerBuyer := Function.update s.mintedPerBuyer (buyer, v.tokenId) minted }
  onLazy (update fun l =>
    { l with usedVoucher := Function.update l.usedVoucher v.nonce true })
  emit (.redeemed creator buyer v.tokenId v.nonce amount)

abbrev redeem (buyer : Address) (v : MintVoucher1155) (amount : Nat) (signature : Bytes)
    (merkleProof : List Bytes) : Tx Unit := do
  requireAuth env buyer
  failIf (amount = 0) .zeroAmount
  onLazy (checkAllowlist dep errors buyer merkleProof)
  let l ← view State.lazyBase
  let pubkey ← orFail l.creatorPubkey .notInitialized
  checkVoucher dep env v amount signature pubkey buyer
  let creator ← unwrap l.base.creator
  onLazy (pay env buyer creator v.currency (totalPrice v.pricePerUnit amount)
    (l.platformFeeBps.getD 0) (l.platformFeeReceiver.getD creator))
  mintItem buyer v amount creator

/-- Phase 1 of `redeem_batch`: `seen` are the nonces of the items before. -/
def validateItems (buyer : Address) (pubkey : Bytes) :
    (seen : List Nat) → List BatchVoucherItem1155 → Tx Unit
  | _, [] => pure ()
  | seen, item :: items => do
    failIf (item.amount = 0) .zeroAmount
    failIf (item.voucher.nonce ∈ seen) .duplicateVoucherInBatch
    onLazy (checkAllowlist dep errors buyer item.merkleProof)
    checkVoucher dep env item.voucher item.amount item.signature pubkey buyer
    validateItems buyer pubkey (seen ++ [item.voucher.nonce]) items

abbrev redeemBatch (buyer : Address) (items : List BatchVoucherItem1155) : Tx Unit := do
  requireAuth env buyer
  failIf (items.length = 0) .emptyBatch
  failIf (items.length > maxBatchSize) .batchTooLarge
  let l ← view State.lazyBase
  let pubkey ← orFail l.creatorPubkey .notInitialized
  let creator ← unwrap l.base.creator
  validateItems dep env buyer pubkey [] items
  onLazy (payBatch env buyer creator (l.platformFeeBps.getD 0) (l.platformFeeReceiver.getD creator)
    (items.map fun item =>
      (item.voucher.currency, totalPrice item.voucher.pricePerUnit item.amount)))
  each (fun item => mintItem buyer item.voucher item.amount creator) items

/-! ### Transfers, approvals and burns -/

/-- `_transfer`, and `_transfer_with_operator`, which is the same. -/
abbrev transferUnits (src dst : Address) (tokenId amount : Nat) : Tx Unit := do
  let srcBal ← view fun s => s.balance (src, tokenId)
  failIf (srcBal < amount) .insufficientBalance
  setBalance src tokenId (srcBal - amount)
  let dstBal ← view fun s => s.balance (dst, tokenId)
  let dstBal ← addUpTo u128Max dstBal amount
  setBalance dst tokenId dstBal
  emit (.transfer src dst tokenId amount)

/-- `operator == owner || _is_approved_for_all(operator, owner)`, or the error. -/
abbrev requireOperator (operator owner : Address) : Tx Unit := do
  let base ← view fun s => s.lazyBase.base
  failIf (operator ≠ owner ∧ base.isApprovedForAll env.sequence owner operator = false) .notApproved

abbrev transfer (src dst : Address) (tokenId amount : Nat) : Tx Unit := do
  requireAuth env src
  transferUnits src dst tokenId amount

abbrev transferFrom (operator src dst : Address) (tokenId amount : Nat) : Tx Unit := do
  requireAuth env operator
  requireOperator env operator src
  transferUnits src dst tokenId amount

abbrev batchTransfer (spender src dst : Address) (tokenIds amounts : List Nat) : Tx Unit := do
  requireAuth env spender
  requireOperator env spender src
  failIf (tokenIds = []) .emptyBatch
  failIf (tokenIds.length ≠ amounts.length) .lengthMismatch
  failIf (0 ∈ amounts) .zeroAmount
  emit (.transferBatch spender src dst tokenIds amounts)
  each (fun p => transferUnits src dst p.1 p.2) (tokenIds.zip amounts)

abbrev setApprovalForAll (owner operator : Address) (approved : Bool) (expiresAt : Option Nat) :
    Tx Unit :=
  onBase (Collection.setApprovalForAll env errors.toErrors owner operator approved expiresAt
    [.approvalForAll owner operator approved])

abbrev burn (spender src : Address) (tokenId amount : Nat) : Tx Unit := do
  requireAuth env spender
  requireOperator env spender src
  let bal ← view fun s => s.balance (src, tokenId)
  failIf (bal < amount) .insufficientBalance
  setBalance src tokenId (bal - amount)
  let supply ← view fun s => s.totalSupply tokenId
  setTotalSupply tokenId (supply - amount)
  emit (.burn src tokenId amount)

/-! ### The contract as a transition system -/

/-- The state-changing entry points, but for `upgrade`, which replaces the code. -/
inductive Op
  | initializeCollection (creator : Address) (creatorPubkey : Bytes) (name : String)
      (royaltyBps : Nat) (royaltyReceiver platformFeeReceiver : Address) (platformFeeBps : Nat)
      (networkPassphrase : String)
  | registerEdition (tokenId maxSupply : Nat)
  | redeem (buyer : Address) (v : MintVoucher1155) (amount : Nat) (signature : Bytes)
      (merkleProof : List Bytes)
  | redeemBatch (buyer : Address) (items : List BatchVoucherItem1155)
  | revokeVoucher (nonce : Nat)
  | revokeVouchers (nonces : List Nat)
  | transfer (src dst : Address) (tokenId amount : Nat)
  | transferFrom (operator src dst : Address) (tokenId amount : Nat)
  | batchTransfer (spender src dst : Address) (tokenIds amounts : List Nat)
  | burn (spender src : Address) (tokenId amount : Nat)
  | setApprovalForAll (owner operator : Address) (approved : Bool) (expiresAt : Option Nat)
  | transferOwnership (newCreator : Address)
  | proposeCreator (newCreator : Address) (expiresAt : Nat)
  | acceptCreator (newCreator : Address)
  | cancelCreatorProposal
  | updateCreatorPubkey (newPubkey : Bytes)
  | updateRoyalty (receiver : Address) (bps : Nat)
  | setMerkleRoot (root : Bytes)
  | setPublicPhase
  | migrate

def Op.exec : Op → Tx Unit
  | .initializeCollection c k n b r f p w => LazyMint1155.initializeCollection c k n b r f p w
  | .registerEdition i m => LazyMint1155.registerEdition env i m
  | .redeem a v n g p => LazyMint1155.redeem dep env a v n g p
  | .redeemBatch a is => LazyMint1155.redeemBatch dep env a is
  | .revokeVoucher n => onLazy (Collection.revokeVoucher env errors n)
  | .revokeVouchers ns => onLazy (Collection.revokeVouchers env errors ns)
  | .transfer a b i n => LazyMint1155.transfer env a b i n
  | .transferFrom o a b i n => LazyMint1155.transferFrom env o a b i n
  | .batchTransfer s a b is ns => LazyMint1155.batchTransfer env s a b is ns
  | .burn s a i n => LazyMint1155.burn env s a i n
  | .setApprovalForAll o p a e => LazyMint1155.setApprovalForAll env o p a e
  | .transferOwnership c => onBase (Collection.transferOwnership env errors.toErrors c)
  | .proposeCreator c e => onBase (Collection.proposeCreator env errors.toErrors c e)
  | .acceptCreator c => onBase (Collection.acceptCreator env errors.toErrors c)
  | .cancelCreatorProposal => onBase (Collection.cancelCreatorProposal env errors.toErrors)
  | .updateCreatorPubkey k => onLazy (Collection.updateCreatorPubkey env errors k)
  | .updateRoyalty r b => onBase (Collection.updateRoyalty env errors.toErrors r b)
  | .setMerkleRoot r => onLazy (Collection.setMerkleRoot env errors r)
  | .setPublicPhase => onLazy (Collection.setPublicPhase env errors)
  | .migrate => onBase (Collection.migrate env errors.toErrors)

/-- The state after one invocation, in the ledger it carries; one that fails is rolled back. -/
def step (s : State) (call : Env × Op) : State :=
  match call.2.exec dep call.1 s with
  | .ok (_, s') => s'
  | .error _ => s

/-- The state after a run. -/
abbrev run (s : State) (calls : List (Env × Op)) : State := Run.exec (step dep) s calls

instance (a : Address) (proof : List Bytes) :
    Preserves f (onLazy (checkAllowlist dep errors a proof)) where
  eq h := by rw [h.zoom_eq fun _ => rfl]

end ElcareHub.LazyMint1155
