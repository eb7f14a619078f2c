import ElcareHub.Collections.Vouchers
import ElcareHub.Lib.Run

/-!
# LazyMint721

The state-changing entry points of `lazy_mint_erc721`: tokens are minted when a buyer redeems a
voucher the creator has signed. There is no `burn`. A nonce is used up by a redemption, whichever token
the voucher names.
-/

namespace ElcareHub.LazyMint721

open Collection Call

/-- The error codes of the contract, in the order of their discriminants. -/
inductive Error
  | alreadyInitialized | notInitialized | notOwner | notApproved | tokenNotFound
  | maxSupplyReached | voucherExpired | voucherAlreadyRedeemed | notCreator | invalidSignature
  | notAllowlisted | invalidMerkleProof | voucherRevoked | alreadyMigrated | unsupportedMigration
  | emptyBatch | batchTooLarge | duplicateVoucherInBatch | approvalExpired | invalidBps | emptyName
  | nameTooLong | emptySymbol | symbolTooLong | invalidMaxSupply | noPendingCreator
  | notPendingCreator | proposalExpired | emptyUri | uriTooLong

open Error in
def errors : LazyErrors Error :=
  { alreadyInitialized, notInitialized, approvalExpired, noPendingCreator, notPendingCreator,
    proposalExpired, invalidBps, alreadyMigrated, notAllowlisted, invalidMerkleProof,
    voucherExpired, emptyUri, uriTooLong, voucherAlreadyRedeemed, voucherRevoked }

structure MintVoucher where
  tokenId : Nat
  nonce : Nat
  price : Int
  currency : Address
  uri : String
  uriHash : Bytes
  validUntil : Nat

structure BatchVoucherItem where
  voucher : MintVoucher
  signature : Bytes
  merkleProof : List Bytes

structure State where
  lazyBase : LazyBase
  name : Option String
  symbol : Option String
  maxSupply : Option Nat
  nextTokenId : Nat
  totalSupply : Nat
  owner : Nat → Option Address
  tokenUri : Nat → Option String
  approved : Nat → Option Address
  balanceOf : Address → Nat

/-- A contract that has been deployed and not initialised. -/
def State.fresh (balances : Address × Address → Int) : State where
  lazyBase := .fresh balances
  name := none
  symbol := none
  maxSupply := none
  nextTokenId := 0
  totalSupply := 0
  owner _ := none
  tokenUri _ := none
  approved _ := none
  balanceOf _ := 0

/-- An invocation of the contract. -/
abbrev Tx (α : Type) := Call (Fault Error) State α

/-- Run the shared voucher code on its part of the state. -/
def onLazy {α : Type} (c : Call (Fault Error) LazyBase α) : Tx α :=
  zoom State.lazyBase (fun lazyBase s => { s with lazyBase }) c

/-- Run the code all collections share on its part of the state. -/
abbrev onBase {α : Type} (c : Call (Fault Error) Base α) : Tx α := onLazy (onCommon c)

abbrev emit (e : Event) : Tx Unit := onBase (publish e)

def maxBatchSize : Nat := 100

variable (dep : Deployment) (env : Env)

abbrev setBalance (account : Address) (n : Nat) : Tx Unit :=
  update fun s => { s with balanceOf := Function.update s.balanceOf account n }

abbrev setOwner (tokenId : Nat) (owner : Address) : Tx Unit :=
  update fun s => { s with owner := Function.update s.owner tokenId (some owner) }

abbrev requireOwner (tokenId : Nat) : Tx Address := do
  let stored ← view fun s => s.owner tokenId
  orFail stored .tokenNotFound

/-! ### Initialisation -/

/-- `initialize`. -/
abbrev initializeCollection (creator : Address) (creatorPubkey : Bytes) (name symbol : String)
    (maxSupply royaltyBps : Nat) (royaltyReceiver platformFeeReceiver : Address)
    (platformFeeBps : Nat) (networkPassphrase : String) : Tx Unit := do
  let initialized ← view fun s => s.lazyBase.base.initialized
  failIf (initialized = true) .alreadyInitialized
  validateText name maxNameLen .emptyName .nameTooLong
  validateText symbol maxSymbolLen .emptySymbol .symbolTooLong
  validateMaxSupply maxSupply .invalidMaxSupply
  validateRoyaltyBps royaltyBps .invalidBps
  onLazy (initializeLazy creator creatorPubkey royaltyBps royaltyReceiver platformFeeReceiver
    platformFeeBps networkPassphrase)
  update fun s =>
    { s with
      name := some name
      symbol := some symbol
      maxSupply := some maxSupply
      nextTokenId := 0
      totalSupply := 0 }

/-! ### Redemption -/

/-- The bytes `_voucher_digest` hashes. -/
def voucherBytes (networkPassphrase : Option String) (v : MintVoucher) : Bytes :=
  dep.crypto.stringXdr (networkPassphrase.getD "") ++ dep.crypto.addressXdr dep.self ++
    beBytes 8 v.nonce ++ beBytes 8 v.tokenId ++ beBytesI128 v.price ++ beBytes 8 v.validUntil ++
      v.uriHash ++ dep.crypto.addressXdr v.currency

def voucherDigest (networkPassphrase : Option String) (v : MintVoucher) : Bytes :=
  dep.crypto.sha256 (voucherBytes dep networkPassphrase v)

abbrev checkVoucher (v : MintVoucher) (signature pubkey : Bytes) (max nextId : Nat) : Tx Unit := do
  onLazy (checkVoucherLive env errors v.nonce v.validUntil v.uri)
  failIf (nextId ≥ max) .maxSupplyReached
  let passphrase ← view fun s => s.lazyBase.networkPassphrase
  onLazy (verifySignature dep pubkey (voucherDigest dep passphrase v) signature)

abbrev mintToken (buyer : Address) (tokenId nonce : Nat) (uri : String) (nextId : Nat) : Tx Unit := do
  setOwner tokenId buyer
  update fun s => { s with tokenUri := Function.update s.tokenUri tokenId (some uri) }
  onLazy (update fun l =>
    { l with usedVoucher := Function.update l.usedVoucher nonce true })
  let bal ← view fun s => s.balanceOf buyer
  let bal ← addUpTo u64Max bal 1
  setBalance buyer bal
  let supply ← view State.totalSupply
  let supply ← addUpTo u64Max supply 1
  update fun s => { s with totalSupply := supply }
  when (tokenId ≥ nextId) do
    let next ← addUpTo u64Max tokenId 1
    update fun s => { s with nextTokenId := next }

abbrev redeem (buyer : Address) (v : MintVoucher) (signature : Bytes) (merkleProof : List Bytes) :
    Tx Nat := do
  requireAuth env buyer
  onLazy (checkAllowlist dep errors buyer merkleProof)
  let l ← view State.lazyBase
  let pubkey ← orFail l.creatorPubkey .notInitialized
  let nextId ← view State.nextTokenId
  let max ← view fun s => s.maxSupply.getD u64Max
  checkVoucher dep env v signature pubkey max nextId
  let creator ← unwrap l.base.creator
  onLazy (pay env buyer creator v.currency v.price (l.platformFeeBps.getD 0)
    (l.platformFeeReceiver.getD creator))
  mintToken buyer v.tokenId v.nonce v.uri nextId
  emit (.redeemed creator buyer v.tokenId v.nonce 1)
  pure v.tokenId

/-- Phase 1 of `redeem_batch`: `seen` are the token ids of the items before, `supplyUsed` their
number. -/
def validateItems (buyer : Address) (pubkey : Bytes) (max nextStart : Nat) :
    (seen : List Nat) → (supplyUsed : Nat) → List BatchVoucherItem → Tx Unit
  | _, _, [] => pure ()
  | seen, supplyUsed, item :: items => do
    failIf (item.voucher.tokenId ∈ seen) .duplicateVoucherInBatch
    onLazy (checkAllowlist dep errors buyer item.merkleProof)
    checkVoucher dep env item.voucher item.signature pubkey max
      (saturatingAddU64 nextStart supplyUsed)
    validateItems buyer pubkey max nextStart (seen ++ [item.voucher.tokenId])
      (saturatingAddU64 supplyUsed 1) items

/-- Phase 4 of `redeem_batch`: mint every item; the ids minted. -/
def mintItems (creator buyer : Address) : (nextId : Nat) → List BatchVoucherItem → Tx (List Nat)
  | _, [] => pure []
  | nextId, item :: items => do
    let v := item.voucher
    mintToken buyer v.tokenId v.nonce v.uri nextId
    emit (.redeemed creator buyer v.tokenId v.nonce 1)
    let minted ← mintItems creator buyer (if v.tokenId ≥ nextId then v.tokenId + 1 else nextId) items
    pure (v.tokenId :: minted)

abbrev redeemBatch (buyer : Address) (items : List BatchVoucherItem) : Tx (List Nat) := do
  requireAuth env buyer
  failIf (items.length = 0) .emptyBatch
  failIf (items.length > maxBatchSize) .batchTooLarge
  let l ← view State.lazyBase
  let pubkey ← orFail l.creatorPubkey .notInitialized
  let max ← view fun s => s.maxSupply.getD u64Max
  let nextStart ← view State.nextTokenId
  let creator ← unwrap l.base.creator
  validateItems dep env buyer pubkey max nextStart [] 0 items
  onLazy (payBatch env buyer creator (l.platformFeeBps.getD 0) (l.platformFeeReceiver.getD creator)
    (items.map fun item => (item.voucher.currency, item.voucher.price)))
  mintItems creator buyer nextStart items

/-! ### Transfers and approvals -/

/-- `_transfer`. -/
abbrev transferToken (src dst : Address) (tokenId : Nat) : Tx Unit := do
  update fun s => { s with approved := Function.update s.approved tokenId none }
  let owner ← requireOwner tokenId
  failIf (owner ≠ src) .notOwner
  let srcBal ← view fun s => s.balanceOf src
  failIf (srcBal = 0) .notOwner
  setBalance src (srcBal - 1)
  let dstBal ← view fun s => s.balanceOf dst
  let dstBal ← addUpTo u64Max dstBal 1
  setBalance dst dstBal
  setOwner tokenId dst
  emit (.transfer src dst tokenId 1)

abbrev checkApproved (spender src : Address) (tokenId : Nat) : Tx Unit := do
  let s ← view id
  failIf (s.approved tokenId ≠ some spender ∧
    s.lazyBase.base.isApprovedForAll env.sequence src spender = false) .notApproved

abbrev transfer (src dst : Address) (tokenId : Nat) : Tx Unit := do
  requireAuth env src
  transferToken src dst tokenId

abbrev transferFrom (spender src dst : Address) (tokenId : Nat) : Tx Unit := do
  requireAuth env spender
  checkApproved env spender src tokenId
  update fun s => { s with approved := Function.update s.approved tokenId none }
  transferToken src dst tokenId

abbrev approve (spender approved : Address) (tokenId : Nat) : Tx Unit := do
  requireAuth env spender
  let owner ← requireOwner tokenId
  let base ← view fun s => s.lazyBase.base
  failIf (spender ≠ owner ∧ base.isApprovedForAll env.sequence owner spender = false) .notApproved
  update fun s => { s with approved := Function.update s.approved tokenId (some approved) }

/-- `set_approval_for_all`: no event. -/
abbrev setApprovalForAll (owner operator : Address) (approved : Bool) (expiresAt : Option Nat) :
    Tx Unit :=
  onBase (Collection.setApprovalForAll env errors.toErrors owner operator approved expiresAt [])

/-! ### The contract as a transition system -/

/-- The state-changing entry points, but for `upgrade`, which replaces the code. -/
inductive Op
  | initializeCollection (creator : Address) (creatorPubkey : Bytes) (name symbol : String)
      (maxSupply royaltyBps : Nat) (royaltyReceiver platformFeeReceiver : Address)
      (platformFeeBps : Nat) (networkPassphrase : String)
  | redeem (buyer : Address) (v : MintVoucher) (signature : Bytes) (merkleProof : List Bytes)
  | redeemBatch (buyer : Address) (items : List BatchVoucherItem)
  | revokeVoucher (nonce : Nat)
  | revokeVouchers (nonces : List Nat)
  | transfer (src dst : Address) (tokenId : Nat)
  | transferFrom (spender src dst : Address) (tokenId : Nat)
  | approve (spender approved : Address) (tokenId : Nat)
  | setApprovalForAll (owner operator : Address) (approved : Bool) (expiresAt : Option Nat)
  | transferOwnership (newCreator : Address)
  | proposeCreator (newCreator : Address) (expiresAt : Nat)
  | acceptCreator (newCreator : Address)
  | cancelCreatorProposal
  | updateCreatorPubkey (newPubkey : Bytes)
  | updateRoyalty (receiver : Address) (bps : Nat)
  | setMerkleRoot (root : Bytes)
  | setPublicPhase
  | migrate

def Op.exec : Op → Tx Unit
  | .initializeCollection c k n s m b r f p w =>
    LazyMint721.initializeCollection c k n s m b r f p w
  | .redeem a v g p => (LazyMint721.redeem dep env a v g p).discard
  | .redeemBatch a is => (LazyMint721.redeemBatch dep env a is).discard
  | .revokeVoucher n => onLazy (Collection.revokeVoucher env errors n)
  | .revokeVouchers ns => onLazy (Collection.revokeVouchers env errors ns)
  | .transfer a b i => LazyMint721.transfer env a b i
  | .transferFrom s a b i => LazyMint721.transferFrom env s a b i
  | .approve s a i => LazyMint721.approve env s a i
  | .setApprovalForAll o p a e => LazyMint721.setApprovalForAll env o p a e
  | .transferOwnership c => onBase (Collection.transferOwnership env errors.toErrors c)
  | .proposeCreator c e => onBase (Collection.proposeCreator env errors.toErrors c e)
  | .acceptCreator c => onBase (Collection.acceptCreator env errors.toErrors c)
  | .cancelCreatorProposal => onBase (Collection.cancelCreatorProposal env errors.toErrors)
  | .updateCreatorPubkey k => onLazy (Collection.updateCreatorPubkey env errors k)
  | .updateRoyalty r b => onBase (Collection.updateRoyalty env errors.toErrors r b)
  | .setMerkleRoot r => onLazy (Collection.setMerkleRoot env errors r)
  | .setPublicPhase => onLazy (Collection.setPublicPhase env errors)
  | .migrate => onBase (Collection.migrate env errors.toErrors)

/-- The state after one invocation, in the ledger it carries; one that fails is rolled back. -/
def step (s : State) (call : Env × Op) : State :=
  match call.2.exec dep call.1 s with
  | .ok (_, s') => s'
  | .error _ => s

/-- The state after a run. -/
abbrev run (s : State) (calls : List (Env × Op)) : State := Run.exec (step dep) s calls

/-! ### A collection on sale -/

def collection : Deployment := ⟨⟨100⟩, .plain⟩

def freeVoucher (nonce tokenId : Nat) : MintVoucher := ⟨tokenId, nonce, 0, ⟨50⟩, "ipfs", [], 0⟩

/-- The creator signs a voucher. -/
def signed (v : MintVoucher) : BatchVoucherItem :=
  ⟨v, voucherDigest collection (some "net") v, []⟩

/-- `buyer` redeems a voucher. -/
def redeemBy (buyer : Address) (v : MintVoucher) : Env × Op :=
  (.signedBy buyer 100, .redeem buyer v (signed v).signature [])

/-- The collection is initialised and the sale opened to everyone. -/
def onSale : List (Env × Op) :=
  [(.signedBy ⟨1⟩ 100, .initializeCollection ⟨1⟩ [7] "Collection" "SYM" 10 500 ⟨1⟩ ⟨9⟩ 0 "net"),
    (.signedBy ⟨1⟩ 100, .setPublicPhase)]

instance (a : Address) (proof : List Bytes) :
    Preserves f (onLazy (checkAllowlist dep errors a proof)) where
  eq h := by rw [h.zoom_eq fun _ => rfl]

end ElcareHub.LazyMint721
