import ElcareHub.Collections.Common
import ElcareHub.Lib.Run

/-!
# NormalNFT1155

The state-changing entry points of `collection_nft_erc1155`, and the URI the contract reports for a
token. The creator mints units of numbered token types; holders and their operators transfer and burn
them. A supply cap per token type and a limit per wallet are checked when units are minted.
-/

namespace ElcareHub.NormalNFT1155

open Collection Call

/-- The error codes of the contract, in the order of their discriminants. -/
inductive Error
  | alreadyInitialized | notInitialized | notApproved | insufficientBalance | lengthMismatch
  | notCreator | maxSupplyReached | walletLimitReached | collectionPaused | metadataFrozen
  | alreadyFrozen | invalidBps | alreadyMigrated | unsupportedMigration | emptyUri | uriTooLong
  | zeroAmount | emptyBatch | batchTooLarge | tokenNotFound | approvalExpired | emptyName
  | nameTooLong | noPendingCreator | notPendingCreator | proposalExpired | invalidMaxSupply
  | invalidUri
  deriving DecidableEq

open Error in
def errors : Errors Error :=
  { alreadyInitialized, notInitialized, approvalExpired, noPendingCreator, notPendingCreator,
    proposalExpired, invalidBps, alreadyMigrated }

structure State where
  base : Base
  name : Option String
  nextTokenId : Nat
  perWalletLimit : Nat
  paused : Bool
  baseUri : Option String
  metadataFrozen : Bool
  tokenFrozen : Nat → Bool
  /-- by holder and token -/
  balance : Address × Nat → Nat
  tokenUri : Nat → Option String
  totalSupply : Nat → Nat
  maxTokenSupply : Nat → Option Nat
  /-- by wallet and token -/
  walletMinted : Address × Nat → Nat
  tokenRoyaltyReceiver : Nat → Option Address
  tokenRoyaltyBps : Nat → Option Nat

/-- A contract that has been deployed and not initialised. -/
def State.fresh : State where
  base := .fresh
  name := none
  nextTokenId := 0
  perWalletLimit := 0
  paused := false
  baseUri := none
  metadataFrozen := false
  tokenFrozen _ := false
  balance _ := 0
  tokenUri _ := none
  totalSupply _ := 0
  maxTokenSupply _ := none
  walletMinted _ := 0
  tokenRoyaltyReceiver _ := none
  tokenRoyaltyBps _ := none

/-- An invocation of the contract. -/
abbrev Tx (α : Type) := Call (Fault Error) State α

/-- Run the shared code on its part of the state. -/
abbrev onBase {α : Type} (c : Call (Fault Error) Base α) : Tx α :=
  zoom State.base (fun base s => { s with base }) c

abbrev emit (e : Event) : Tx Unit := onBase (publish e)

def maxBatchSize : Nat := 200

variable (env : Env)

abbrev onlyCreator : Tx Address := onBase (Collection.onlyCreator env errors)

abbrev validateUri (uri : String) : Tx Unit := validateText uri maxUriLen .emptyUri .uriTooLong

abbrev requireNotPaused : Tx Unit := do
  let paused ← view State.paused
  failIf (paused = true) .collectionPaused

abbrev setBalance (account : Address) (tokenId n : Nat) : Tx Unit :=
  update fun s => { s with balance := Function.update s.balance (account, tokenId) n }

abbrev setTotalSupply (tokenId n : Nat) : Tx Unit :=
  update fun s => { s with totalSupply := Function.update s.totalSupply tokenId n }

abbrev setNextTokenId (n : Nat) : Tx Unit := update fun s => { s with nextTokenId := n }

abbrev setTokenUriEntry (tokenId : Nat) (uri : String) : Tx Unit :=
  update fun s => { s with tokenUri := Function.update s.tokenUri tokenId (some uri) }

/-! ### Initialisation and settings -/

/-- `initialize`; the royalty is validated twice. -/
abbrev initializeCollection (creator : Address) (name : String) (royaltyBps : Nat)
    (royaltyReceiver : Address) : Tx Unit := do
  let initialized ← view fun s => s.base.initialized
  failIf (initialized = true) .alreadyInitialized
  failIf (royaltyBps > maxBps) .invalidBps
  validateText name maxNameLen .emptyName .nameTooLong
  validateRoyaltyBps royaltyBps .invalidBps
  onBase (initializeBase creator royaltyBps royaltyReceiver)
  update fun s => { s with name := some name, nextTokenId := 0 }

abbrev setTokenMaxSupply (tokenId maxSupply : Nat) : Tx Unit := do
  let _ ← onlyCreator env
  update fun s =>
    { s with
      maxTokenSupply := Function.update s.maxTokenSupply tokenId
        (if maxSupply = 0 then none else some maxSupply) }

abbrev setPerWalletLimit (limit : Nat) : Tx Unit := do
  let _ ← onlyCreator env
  update fun s => { s with perWalletLimit := limit }

/-- `pause` and `unpause`. -/
abbrev setPaused (paused : Bool) : Tx Unit := do
  let _ ← onlyCreator env
  update fun s => { s with paused }

abbrev pause : Tx Unit := setPaused env true
abbrev unpause : Tx Unit := setPaused env false

/-! ### Metadata -/

abbrev setBaseUri (baseUri : String) : Tx Unit := do
  let creator ← onlyCreator env
  let frozen ← view State.metadataFrozen
  failIf (frozen = true) .metadataFrozen
  validateUri baseUri
  let oldUri ← view State.baseUri
  update fun s => { s with baseUri := some baseUri }
  emit (.metadataUpdated creator none oldUri baseUri)

abbrev freezeMetadata : Tx Unit := do
  let creator ← onlyCreator env
  let frozen ← view State.metadataFrozen
  failIf (frozen = true) .alreadyFrozen
  update fun s => { s with metadataFrozen := true }
  emit (.metadataFrozen creator)

/-- `if !has(TokenUri(token_id)) { return Err(TokenNotFound) }`. -/
abbrev requireToken (tokenId : Nat) : Tx Unit := do
  let stored ← view fun s => s.tokenUri tokenId
  failIf (stored.isNone = true) .tokenNotFound

abbrev freezeToken (caller : Address) (tokenId : Nat) : Tx Unit := do
  requireAuth env caller
  requireToken tokenId
  let stored ← view fun s => s.base.creator
  let creator ← orFail stored .notInitialized
  let balance ← view fun s => s.balance (caller, tokenId)
  failIf (caller ≠ creator ∧ balance = 0) .notApproved
  let frozen ← view fun s => s.tokenFrozen tokenId
  failIf (frozen = true) .alreadyFrozen
  update fun s => { s with tokenFrozen := Function.update s.tokenFrozen tokenId true }
  emit (.tokenFrozen tokenId)

abbrev setTokenUri (tokenId : Nat) (uri : String) : Tx Unit := do
  let creator ← onlyCreator env
  let frozen ← view State.metadataFrozen
  failIf (frozen = true) .metadataFrozen
  let tokenFrozen ← view fun s => s.tokenFrozen tokenId
  failIf (tokenFrozen = true) .metadataFrozen
  requireToken tokenId
  validateUri uri
  let oldUri ← view fun s => s.tokenUri tokenId
  setTokenUriEntry tokenId uri
  emit (.metadataUpdated creator (some tokenId) oldUri uri)

/-! ### Royalties -/

abbrev updateRoyalty (receiver : Address) (bps : Nat) : Tx Unit :=
  onBase (Collection.updateRoyalty env errors receiver bps)

/-- `set_default_royalty`: the same body as `update_royalty`. -/
abbrev setDefaultRoyalty (receiver : Address) (bps : Nat) : Tx Unit := updateRoyalty env receiver bps

abbrev setTokenRoyalty (tokenId : Nat) (receiver : Address) (bps : Nat) : Tx Unit := do
  let _ ← onlyCreator env
  failIf (bps > maxBps) .invalidBps
  update fun s =>
    { s with
      tokenRoyaltyReceiver := Function.update s.tokenRoyaltyReceiver tokenId (some receiver)
      tokenRoyaltyBps := Function.update s.tokenRoyaltyBps tokenId (some bps) }

/-! ### Minting -/

/-- `saturating_add` on `u128`. -/
def saturatingAddU128 (a b : Nat) : Nat := min (a + b) u128Max

abbrev checkSupplyCap (tokenId amount : Nat) : Tx Unit := do
  let stored ← view fun s => s.maxTokenSupply tokenId
  let current ← view fun s => s.totalSupply tokenId
  onSome stored fun maxSupply =>
    failIf (maxSupply > 0 ∧ saturatingAddU128 current amount > maxSupply) .maxSupplyReached

abbrev checkWalletLimit (wallet : Address) (tokenId amount : Nat) : Tx Unit := do
  let limit ← view State.perWalletLimit
  let already ← view fun s => s.walletMinted (wallet, tokenId)
  failIf (limit > 0 ∧ saturatingAddU128 already amount > limit) .walletLimitReached

abbrev updateWalletMinted (wallet : Address) (tokenId amount : Nat) : Tx Unit := do
  let prev ← view fun s => s.walletMinted (wallet, tokenId)
  let minted ← addUpTo u128Max prev amount
  update fun s =>
    { s with walletMinted := Function.update s.walletMinted (wallet, tokenId) minted }

/-- The URI of a token is set by its first mint and never by a later one. -/
abbrev setFirstUri (tokenId : Nat) (uri : String) : Tx Unit := do
  let stored ← view fun s => s.tokenUri tokenId
  when (stored.isNone = true) (setTokenUriEntry tokenId uri)

abbrev addBalance (account : Address) (tokenId amount : Nat) : Tx Unit := do
  let bal ← view fun s => s.balance (account, tokenId)
  let bal ← addUpTo u128Max bal amount
  setBalance account tokenId bal

abbrev addSupply (tokenId amount : Nat) : Tx Unit := do
  let supply ← view fun s => s.totalSupply tokenId
  let supply ← addUpTo u128Max supply amount
  setTotalSupply tokenId supply

/-- The `mint` event names the creator. -/
abbrev emitMint (recipient : Address) (tokenId amount : Nat) : Tx Unit := do
  let stored ← view fun s => s.base.creator
  let creator ← unwrap stored
  emit (.mint creator recipient tokenId amount)

/-- `_mint`. -/
abbrev mintUnits (recipient : Address) (tokenId amount : Nat) (uri : String) : Tx Unit := do
  addBalance recipient tokenId amount
  setFirstUri tokenId uri
  addSupply tokenId amount
  emitMint recipient tokenId amount

abbrev mintNew (recipient : Address) (amount : Nat) (uri : String) : Tx Nat := do
  let _ ← onlyCreator env
  requireNotPaused
  validateUri uri
  let tokenId ← view State.nextTokenId
  when (amount > 0) (checkWalletLimit recipient tokenId amount)
  mintUnits recipient tokenId amount uri
  when (amount > 0) (updateWalletMinted recipient tokenId amount)
  let next ← addUpTo u64Max tokenId 1
  setNextTokenId next
  pure tokenId

/-- `mint`; the URI is not validated. -/
abbrev mint (recipient : Address) (tokenId amount : Nat) (uri : String) : Tx Unit := do
  let _ ← onlyCreator env
  requireNotPaused
  failIf (amount = 0) .zeroAmount
  checkSupplyCap tokenId amount
  checkWalletLimit recipient tokenId amount
  mintUnits recipient tokenId amount uri
  updateWalletMinted recipient tokenId amount

/-- `checked_ids` and `checked_amounts` of `mint_batch`, after one more entry. -/
def addChecked (tokenId amount : Nat) : List (Nat × Nat) → List (Nat × Nat)
  | [] => [(tokenId, amount)]
  | (i, total) :: rest =>
    if i = tokenId then (i, saturatingAddU128 total amount) :: rest
    else (i, total) :: addChecked tokenId amount rest

/-- The first loop of `mint_batch`: totals per token over the batch. -/
def batchTotals : (checked : List (Nat × Nat)) → List (Nat × Nat) → Tx (List (Nat × Nat))
  | checked, [] => pure checked
  | checked, (tokenId, amount) :: rest => do
    failIf (amount = 0) .zeroAmount
    batchTotals (addChecked tokenId amount checked) rest

/-- One entry of a batch: token, amount, URI. -/
structure BatchItem where
  tokenId : Nat
  amount : Nat
  uri : String

/-- The last loop of `mint_batch`, with `max_token_id` counted along. -/
def mintItems (recipient : Address) : (maxTokenId : Nat) → List BatchItem → Tx Nat
  | maxTokenId, [] => pure maxTokenId
  | maxTokenId, item :: items => do
    let next ← if item.tokenId ≥ maxTokenId then addUpTo u64Max item.tokenId 1 else pure maxTokenId
    setFirstUri item.tokenId item.uri
    addBalance recipient item.tokenId item.amount
    addSupply item.tokenId item.amount
    updateWalletMinted recipient item.tokenId item.amount
    emitMint recipient item.tokenId item.amount
    mintItems recipient next items

abbrev mintBatch (recipient : Address) (tokenIds amounts : List Nat) (uris : List String) :
    Tx Unit := do
  let _ ← onlyCreator env
  requireNotPaused
  failIf (tokenIds.length = 0) .emptyBatch
  failIf (tokenIds.length > maxBatchSize) .batchTooLarge
  failIf (tokenIds.length ≠ amounts.length ∨ tokenIds.length ≠ uris.length) .lengthMismatch
  each validateUri uris
  let totals ← batchTotals [] (tokenIds.zip amounts)
  each
    (fun total => do
      checkSupplyCap total.1 total.2
      checkWalletLimit recipient total.1 total.2) totals
  let nextTokenId ← view State.nextTokenId
  let maxTokenId ← mintItems recipient nextTokenId
    (((tokenIds.zip amounts).zip uris).map fun item => ⟨item.1.1, item.1.2, item.2⟩)
  when (maxTokenId > nextTokenId) (setNextTokenId maxTokenId)

/-! ### Transfers, approvals and burns -/

/-- `_transfer`, and `_transfer_with_operator`, which is the same. -/
abbrev transferUnits (src dst : Address) (tokenId amount : Nat) : Tx Unit := do
  let srcBal ← view fun s => s.balance (src, tokenId)
  failIf (srcBal < amount) .insufficientBalance
  setBalance src tokenId (srcBal - amount)
  addBalance dst tokenId amount
  emit (.transfer src dst tokenId amount)

/-- `operator == owner || _is_approved_for_all(operator, owner)`, or the error. -/
abbrev requireOperator (operator owner : Address) : Tx Unit := do
  let base ← view State.base
  failIf (operator ≠ owner ∧ base.isApprovedForAll env.sequence owner operator = false) .notApproved

abbrev transfer (src dst : Address) (tokenId amount : Nat) : Tx Unit := do
  requireAuth env src
  requireNotPaused
  transferUnits src dst tokenId amount

abbrev transferFrom (operator src dst : Address) (tokenId amount : Nat) : Tx Unit := do
  requireAuth env operator
  requireNotPaused
  requireOperator env operator src
  transferUnits src dst tokenId amount

/-- `batch_transfer`, and `batch_transfer_from`, which ignores its data. -/
abbrev batchTransfer (spender src dst : Address) (tokenIds amounts : List Nat) : Tx Unit := do
  requireAuth env spender
  requireNotPaused
  requireOperator env spender src
  failIf (tokenIds = []) .emptyBatch
  failIf (tokenIds.length ≠ amounts.length) .lengthMismatch
  failIf (tokenIds.length > maxBatchSize) .batchTooLarge
  each
    (fun item => do
      failIf (item.2 = 0) .zeroAmount
      transferUnits src dst item.1 item.2) (tokenIds.zip amounts)

abbrev setApprovalForAll (owner operator : Address) (approved : Bool) (expiresAt : Option Nat) :
    Tx Unit :=
  onBase (Collection.setApprovalForAll env errors owner operator approved expiresAt
    [.approvalForAllSet owner operator approved expiresAt, .approvalForAll owner operator approved])

abbrev burn (spender src : Address) (tokenId amount : Nat) : Tx Unit := do
  requireAuth env spender
  requireNotPaused
  requireOperator env spender src
  let bal ← view fun s => s.balance (src, tokenId)
  failIf (bal < amount) .insufficientBalance
  setBalance src tokenId (bal - amount)
  let supply ← view fun s => s.totalSupply tokenId
  setTotalSupply tokenId (supply - amount)
  emit (.burn src tokenId amount)

/-! ### Queries -/

def uri (tokenId : Nat) : Tx String := do
  let base ← view State.baseUri
  match base with
  | some base => pure (base ++ u64ToString tokenId)
  | none => do
    let stored ← view fun s => s.tokenUri tokenId
    unwrap stored

def contractType : Symbol := "ERC1155"

/-! ### The contract as a transition system -/

/-- The state-changing entry points, but for `upgrade`, which replaces the code. -/
inductive Op
  | initializeCollection (creator : Address) (name : String) (royaltyBps : Nat)
      (royaltyReceiver : Address)
  | setTokenMaxSupply (tokenId maxSupply : Nat)
  | setPerWalletLimit (limit : Nat)
  | pause
  | unpause
  | setBaseUri (baseUri : String)
  | freezeMetadata
  | freezeToken (caller : Address) (tokenId : Nat)
  | setTokenUri (tokenId : Nat) (uri : String)
  | updateRoyalty (receiver : Address) (bps : Nat)
  | setDefaultRoyalty (receiver : Address) (bps : Nat)
  | setTokenRoyalty (tokenId : Nat) (receiver : Address) (bps : Nat)
  | mintNew (recipient : Address) (amount : Nat) (uri : String)
  | mint (recipient : Address) (tokenId amount : Nat) (uri : String)
  | mintBatch (recipient : Address) (tokenIds amounts : List Nat) (uris : List String)
  | transfer (src dst : Address) (tokenId amount : Nat)
  | transferFrom (operator src dst : Address) (tokenId amount : Nat)
  | batchTransfer (spender src dst : Address) (tokenIds amounts : List Nat)
  | setApprovalForAll (owner operator : Address) (approved : Bool) (expiresAt : Option Nat)
  | burn (spender src : Address) (tokenId amount : Nat)
  | transferOwnership (newCreator : Address)
  | proposeCreator (newCreator : Address) (expiresAt : Nat)
  | acceptCreator (newCreator : Address)
  | cancelCreatorProposal
  | migrate

def Op.exec : Op → Tx Unit
  | .initializeCollection c n b r => NormalNFT1155.initializeCollection c n b r
  | .setTokenMaxSupply i m => NormalNFT1155.setTokenMaxSupply env i m
  | .setPerWalletLimit l => NormalNFT1155.setPerWalletLimit env l
  | .pause => NormalNFT1155.pause env
  | .unpause => NormalNFT1155.unpause env
  | .setBaseUri u => NormalNFT1155.setBaseUri env u
  | .freezeMetadata => NormalNFT1155.freezeMetadata env
  | .freezeToken a i => NormalNFT1155.freezeToken env a i
  | .setTokenUri i u => NormalNFT1155.setTokenUri env i u
  | .updateRoyalty r b => NormalNFT1155.updateRoyalty env r b
  | .setDefaultRoyalty r b => NormalNFT1155.setDefaultRoyalty env r b
  | .setTokenRoyalty i r b => NormalNFT1155.setTokenRoyalty env i r b
  | .mintNew a n u => (NormalNFT1155.mintNew env a n u).discard
  | .mint a i n u => NormalNFT1155.mint env a i n u
  | .mintBatch a is ns us => NormalNFT1155.mintBatch env a is ns us
  | .transfer a b i n => NormalNFT1155.transfer env a b i n
  | .transferFrom o a b i n => NormalNFT1155.transferFrom env o a b i n
  | .batchTransfer s a b is ns => NormalNFT1155.batchTransfer env s a b is ns
  | .setApprovalForAll o p a e => NormalNFT1155.setApprovalForAll env o p a e
  | .burn s a i n => NormalNFT1155.burn env s a i n
  | .transferOwnership c => onBase (Collection.transferOwnership env errors c)
  | .proposeCreator c e => onBase (Collection.proposeCreator env errors c e)
  | .acceptCreator c => onBase (Collection.acceptCreator env errors c)
  | .cancelCreatorProposal => onBase (Collection.cancelCreatorProposal env errors)
  | .migrate => onBase (Collection.migrate env errors)

/-- The state after one invocation, in the ledger it carries; one that fails is rolled back. -/
def step (s : State) (call : Env × Op) : State :=
  match call.2.exec call.1 s with
  | .ok (_, s') => s'
  | .error _ => s

/-- The state after a run. -/
abbrev run (s : State) (calls : List (Env × Op)) : State := Run.exec step s calls

/-! ### Checks write nothing -/

section Checks

variable {env : Env} {τ : Type}

instance (checked items : List (Nat × Nat)) : Preserves f (batchTotals checked items) := by
  induction items generalizing checked with
  | nil => exact .pure checked
  | cons item items ih =>
    unfold batchTotals
    infer_instance

instance : Preserves f (onlyCreator env) where
  eq h := by rw [h.zoom_eq fun _ => rfl]

end Checks

end ElcareHub.NormalNFT1155
