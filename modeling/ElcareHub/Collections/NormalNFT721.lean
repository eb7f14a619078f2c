import ElcareHub.Collections.Common
import ElcareHub.Lib.Run

/-!
# NormalNFT721

The state-changing entry points of `collection_nft_erc721`, the queries the marketplace makes, and the
URI the contract reports for a token. The creator mints; owners, approved spenders and operators
transfer and burn.
-/

namespace ElcareHub.NormalNFT721

open Collection Call

/-- The error codes of the contract, in the order of their discriminants. -/
inductive Error
  | alreadyInitialized | notInitialized | notOwner | notApproved | tokenNotFound
  | maxSupplyReached | notCreator | insufficientBalance | metadataFrozen | alreadyFrozen
  | invalidBps | collectionPaused | approvalExpired | alreadyMigrated | unsupportedMigration
  | emptyUri | uriTooLong | emptyBatch | batchTooLarge | emptyName | nameTooLong | emptySymbol
  | symbolTooLong | invalidMaxSupply | noPendingCreator | notPendingCreator | proposalExpired
  deriving DecidableEq

open Error in
def errors : Errors Error :=
  { alreadyInitialized, notInitialized, approvalExpired, noPendingCreator, notPendingCreator,
    proposalExpired, invalidBps, alreadyMigrated }

structure State where
  base : Base
  name : Option String
  symbol : Option String
  maxSupply : Option Nat
  nextTokenId : Nat
  totalSupply : Nat
  owner : Nat → Option Address
  tokenUri : Nat → Option String
  approved : Nat → Option Address
  approvedExpiry : Nat → Option Nat
  balanceOf : Address → Nat
  baseUri : Option String
  metadataFrozen : Bool
  tokenFrozen : Nat → Bool
  tokenRoyaltyReceiver : Nat → Option Address
  tokenRoyaltyBps : Nat → Option Nat
  paused : Bool

/-- A contract that has been deployed and not initialised. -/
def State.fresh : State where
  base := .fresh
  name := none
  symbol := none
  maxSupply := none
  nextTokenId := 0
  totalSupply := 0
  owner _ := none
  tokenUri _ := none
  approved _ := none
  approvedExpiry _ := none
  balanceOf _ := 0
  baseUri := none
  metadataFrozen := false
  tokenFrozen _ := false
  tokenRoyaltyReceiver _ := none
  tokenRoyaltyBps _ := none
  paused := false

/-- An invocation of the contract. -/
abbrev Tx (α : Type) := Call (Fault Error) State α

/-- Run the shared code on its part of the state. -/
abbrev onBase {α : Type} (c : Call (Fault Error) Base α) : Tx α :=
  zoom State.base (fun base s => { s with base }) c

abbrev emit (e : Event) : Tx Unit := onBase (publish e)

def maxBatchSize : Nat := 200

variable (env : Env)

abbrev onlyCreator : Tx Address := onBase (Collection.onlyCreator env errors)

abbrev validateUri (uri : String) : Tx Unit := validateText uri maxUriLen .emptyUri .uriTooLong

/-- `get(&DataKey::Owner(token_id)).ok_or(Error::TokenNotFound)?`. -/
abbrev requireOwner (tokenId : Nat) : Tx Address := do
  let stored ← view fun s => s.owner tokenId
  orFail stored .tokenNotFound

/-- The pause check of minting, transfers and burning. -/
abbrev requireUnpaused : Tx Unit := do
  let paused ← view State.paused
  failIf (paused = true) .collectionPaused

abbrev setBalance (account : Address) (n : Nat) : Tx Unit :=
  update fun s => { s with balanceOf := Function.update s.balanceOf account n }

abbrev setOwner (tokenId : Nat) (owner : Option Address) : Tx Unit :=
  update fun s => { s with owner := Function.update s.owner tokenId owner }

abbrev setTokenUriEntry (tokenId : Nat) (uri : Option String) : Tx Unit :=
  update fun s => { s with tokenUri := Function.update s.tokenUri tokenId uri }

/-- Remove `Approved(token_id)` and `ApprovedExpiry(token_id)`. -/
abbrev clearApproval (tokenId : Nat) : Tx Unit :=
  update fun s =>
    { s with
      approved := Function.update s.approved tokenId none
      approvedExpiry := Function.update s.approvedExpiry tokenId none }

/-! ### Initialisation and minting -/

/-- `initialize`. -/
abbrev initializeCollection (creator : Address) (name symbol : String) (maxSupply royaltyBps : Nat)
    (royaltyReceiver : Address) : Tx Unit := do
  let initialized ← view fun s => s.base.initialized
  failIf (initialized = true) .alreadyInitialized
  validateText name maxNameLen .emptyName .nameTooLong
  validateText symbol maxSymbolLen .emptySymbol .symbolTooLong
  validateMaxSupply maxSupply .invalidMaxSupply
  validateRoyaltyBps royaltyBps .invalidBps
  onBase (initializeBase creator royaltyBps royaltyReceiver)
  update fun s =>
    { s with
      name := some name
      symbol := some symbol
      maxSupply := some maxSupply
      nextTokenId := 0
      totalSupply := 0 }

abbrev doMint (recipient : Address) (tokenId : Nat) (uri : String) : Tx Unit := do
  setOwner tokenId (some recipient)
  setTokenUriEntry tokenId (some uri)
  let bal ← view fun s => s.balanceOf recipient
  let bal ← addUpTo u64Max bal 1
  setBalance recipient bal
  let next ← view State.nextTokenId
  let next ← addUpTo u64Max next 1
  update fun s => { s with nextTokenId := next }
  let supply ← view State.totalSupply
  let supply ← addUpTo u64Max supply 1
  update fun s => { s with totalSupply := supply }

abbrev mint (recipient : Address) (uri : String) : Tx Nat := do
  let creator ← onlyCreator env
  requireUnpaused
  validateUri uri
  let tokenId ← view State.nextTokenId
  let max ← view fun s => s.maxSupply.getD u64Max
  failIf (tokenId ≥ max) .maxSupplyReached
  doMint recipient tokenId uri
  emit (.mint creator recipient tokenId 1)
  pure tokenId

/-- The counters `batch_mint` keeps in memory. -/
structure BatchCounters where
  nextTokenId : Nat
  totalSupply : Nat
  balance : Nat

/-- The loop of `batch_mint`: owner and URI of every token are written, the counters only counted. -/
def batchMintLoop (recipient : Address) : BatchCounters → List String → Tx BatchCounters
  | n, [] => pure n
  | n, uri :: uris => do
    setOwner n.nextTokenId (some recipient)
    setTokenUriEntry n.nextTokenId (some uri)
    let nextTokenId ← addUpTo u64Max n.nextTokenId 1
    let totalSupply ← addUpTo u64Max n.totalSupply 1
    let balance ← addUpTo u64Max n.balance 1
    batchMintLoop recipient ⟨nextTokenId, totalSupply, balance⟩ uris

abbrev batchMint (recipient : Address) (uris : List String) : Tx Unit := do
  let creator ← onlyCreator env
  requireUnpaused
  failIf (uris.length = 0) .emptyBatch
  failIf (uris.length > maxBatchSize) .batchTooLarge
  each validateUri uris
  let first ← view State.nextTokenId
  let maxSupply ← view fun s => s.maxSupply.getD u64Max
  let totalSupply ← view State.totalSupply
  let stop ← addUpTo u64Max first uris.length
  failIf (stop > maxSupply) .maxSupplyReached
  let balance ← view fun s => s.balanceOf recipient
  let n ← batchMintLoop recipient ⟨first, totalSupply, balance⟩ uris
  update fun s => { s with nextTokenId := n.nextTokenId, totalSupply := n.totalSupply }
  setBalance recipient n.balance
  each (fun tokenId => emit (.mint creator recipient tokenId 1))
    (List.range' first uris.length)

/-! ### Transfers and approvals -/

/-- `_transfer`. -/
abbrev transferToken (src dst : Address) (tokenId : Nat) : Tx Unit := do
  clearApproval tokenId
  let owner ← requireOwner tokenId
  failIf (owner ≠ src) .notOwner
  let srcBal ← view fun s => s.balanceOf src
  setBalance src (srcBal - 1)
  let dstBal ← view fun s => s.balanceOf dst
  let dstBal ← addUpTo u64Max dstBal 1
  setBalance dst dstBal
  setOwner tokenId (some dst)
  emit (.transfer src dst tokenId 1)

/-- `get_approved(token_id) == Some(spender)`: the spender has a live approval for the token. -/
def State.isApproved (s : State) (sequence : Nat) (spender : Address) (tokenId : Nat) : Bool :=
  s.approved tokenId = some spender && !lapsed sequence (s.approvedExpiry tokenId)

abbrev checkApproved (spender src : Address) (tokenId : Nat) : Tx Unit := do
  let s ← view id
  failIf (s.isApproved env.sequence spender tokenId = false ∧
    s.base.isApprovedForAll env.sequence src spender = false) .notApproved

abbrev transfer (src dst : Address) (tokenId : Nat) : Tx Unit := do
  requireAuth env src
  requireUnpaused
  transferToken src dst tokenId

abbrev transferFrom (spender src dst : Address) (tokenId : Nat) : Tx Unit := do
  requireAuth env spender
  requireUnpaused
  checkApproved env spender src tokenId
  clearApproval tokenId
  transferToken src dst tokenId

abbrev approve (spender approved : Address) (tokenId : Nat) (expiresAt : Option Nat) : Tx Unit := do
  requireAuth env spender
  let owner ← requireOwner tokenId
  let base ← view State.base
  failIf (spender ≠ owner ∧ base.isApprovedForAll env.sequence owner spender = false) .notApproved
  failIf (lapsed env.sequence expiresAt = true) .approvalExpired
  update fun s =>
    { s with
      approved := Function.update s.approved tokenId (some approved)
      approvedExpiry := Function.update s.approvedExpiry tokenId expiresAt }
  emit (.approvalSet owner approved tokenId expiresAt)
  emit (.approve owner approved tokenId)

abbrev setApprovalForAll (owner operator : Address) (approved : Bool) (expiresAt : Option Nat) :
    Tx Unit :=
  onBase (Collection.setApprovalForAll env errors owner operator approved expiresAt
    [.approvalForAllSet owner operator approved expiresAt, .approvalForAll owner operator approved])

abbrev revokeAllApprovals (tokenId : Nat) : Tx Unit := do
  let owner ← requireOwner tokenId
  requireAuth env owner
  let approved ← view fun s => s.approved tokenId
  clearApproval tokenId
  when (approved.isSome = true) (emit (.approvalRevoked owner tokenId))

abbrev burn (spender : Address) (tokenId : Nat) : Tx Unit := do
  requireAuth env spender
  requireUnpaused
  let owner ← requireOwner tokenId
  checkApproved env spender owner tokenId
  let bal ← view fun s => s.balanceOf owner
  setBalance owner (bal - 1)
  setOwner tokenId none
  setTokenUriEntry tokenId none
  clearApproval tokenId
  update fun s =>
    { s with
      tokenRoyaltyReceiver := Function.update s.tokenRoyaltyReceiver tokenId none
      tokenRoyaltyBps := Function.update s.tokenRoyaltyBps tokenId none
      totalSupply := s.totalSupply - 1 }
  emit (.burn owner tokenId 1)

/-! ### Administration -/

abbrev transferOwnership (newCreator : Address) : Tx Unit :=
  onBase (Collection.transferOwnership env errors newCreator)

abbrev proposeCreator (newCreator : Address) (expiresAt : Nat) : Tx Unit :=
  onBase (Collection.proposeCreator env errors newCreator expiresAt)

abbrev acceptCreator (newCreator : Address) : Tx Unit :=
  onBase (Collection.acceptCreator env errors newCreator)

abbrev cancelCreatorProposal : Tx Unit := onBase (Collection.cancelCreatorProposal env errors)

abbrev updateRoyalty (receiver : Address) (bps : Nat) : Tx Unit :=
  onBase (Collection.updateRoyalty env errors receiver bps)

/-- `set_default_royalty`: the same body as `update_royalty`. -/
abbrev setDefaultRoyalty (receiver : Address) (bps : Nat) : Tx Unit := updateRoyalty env receiver bps

abbrev setTokenRoyalty (tokenId : Nat) (receiver : Address) (bps : Nat) : Tx Unit := do
  let _ ← onlyCreator env
  failIf (bps > maxBps) .invalidBps
  let _ ← requireOwner tokenId
  update fun s =>
    { s with
      tokenRoyaltyReceiver := Function.update s.tokenRoyaltyReceiver tokenId (some receiver)
      tokenRoyaltyBps := Function.update s.tokenRoyaltyBps tokenId (some bps) }

/-- `pause` and `unpause`. -/
abbrev setPaused (paused : Bool) : Tx Unit := do
  let _ ← onlyCreator env
  update fun s => { s with paused }

abbrev pause : Tx Unit := setPaused env true
abbrev unpause : Tx Unit := setPaused env false

abbrev setBaseUri (baseUri : String) : Tx Unit := do
  let creator ← onlyCreator env
  let frozen ← view State.metadataFrozen
  failIf (frozen = true) .metadataFrozen
  validateUri baseUri
  let oldUri ← view State.baseUri
  update fun s => { s with baseUri := some baseUri }
  emit (.metadataUpdated creator none oldUri baseUri)

abbrev freezeMetadata : Tx Unit := do
  let creator ← onlyCreator env
  let frozen ← view State.metadataFrozen
  failIf (frozen = true) .alreadyFrozen
  update fun s => { s with metadataFrozen := true }
  emit (.metadataFrozen creator)

/-- `only_creator(&env).ok()`: an uninitialised contract has no creator, and a missing authorisation
of the creator traps. -/
abbrev creatorIfAny : Tx (Option Address) := do
  let stored ← view fun s => s.base.creator
  onSome stored (requireAuth env)
  pure stored

abbrev freezeToken (caller : Address) (tokenId : Nat) : Tx Unit := do
  requireAuth env caller
  let owner ← requireOwner tokenId
  let creator ← creatorIfAny env
  failIf (creator ≠ some caller ∧ owner ≠ caller) .notOwner
  let frozen ← view fun s => s.tokenFrozen tokenId
  failIf (frozen = true) .alreadyFrozen
  update fun s => { s with tokenFrozen := Function.update s.tokenFrozen tokenId true }
  emit (.tokenFrozen tokenId)

abbrev setTokenUri (tokenId : Nat) (uri : String) : Tx Unit := do
  let creator ← onlyCreator env
  let frozen ← view State.metadataFrozen
  failIf (frozen = true) .metadataFrozen
  let tokenFrozen ← view fun s => s.tokenFrozen tokenId
  failIf (tokenFrozen = true) .metadataFrozen
  let _ ← requireOwner tokenId
  validateUri uri
  let oldUri ← view fun s => s.tokenUri tokenId
  setTokenUriEntry tokenId (some uri)
  emit (.metadataUpdated creator (some tokenId) oldUri uri)

abbrev migrate : Tx Unit := onBase (Collection.migrate env errors)

/-! ### Queries -/

abbrev ownerOf (tokenId : Nat) : Tx Address := requireOwner tokenId

abbrev royaltyInfo : Tx (Address × Nat) := onBase Collection.royaltyInfo

def tokenUri (tokenId : Nat) : Tx String := do
  let _ ← requireOwner tokenId
  let base ← view State.baseUri
  match base with
  | some base => pure (base ++ u64ToString tokenId)
  | none => do
    let stored ← view fun s => s.tokenUri tokenId
    orFail stored .tokenNotFound

def contractType : Symbol := "ERC721"

/-! ### The contract as a transition system -/

/-- The state-changing entry points. -/
inductive Op
  | initializeCollection (creator : Address) (name symbol : String) (maxSupply royaltyBps : Nat)
      (royaltyReceiver : Address)
  | mint (recipient : Address) (uri : String)
  | batchMint (recipient : Address) (uris : List String)
  | transfer (src dst : Address) (tokenId : Nat)
  | transferFrom (spender src dst : Address) (tokenId : Nat)
  | approve (spender approved : Address) (tokenId : Nat) (expiresAt : Option Nat)
  | setApprovalForAll (owner operator : Address) (approved : Bool) (expiresAt : Option Nat)
  | revokeAllApprovals (tokenId : Nat)
  | burn (spender : Address) (tokenId : Nat)
  | transferOwnership (newCreator : Address)
  | proposeCreator (newCreator : Address) (expiresAt : Nat)
  | acceptCreator (newCreator : Address)
  | cancelCreatorProposal
  | updateRoyalty (receiver : Address) (bps : Nat)
  | setDefaultRoyalty (receiver : Address) (bps : Nat)
  | setTokenRoyalty (tokenId : Nat) (receiver : Address) (bps : Nat)
  | pause
  | unpause
  | setBaseUri (baseUri : String)
  | freezeMetadata
  | freezeToken (caller : Address) (tokenId : Nat)
  | setTokenUri (tokenId : Nat) (uri : String)
  | migrate

def Op.exec : Op → Tx Unit
  | .initializeCollection c n s m b r => NormalNFT721.initializeCollection c n s m b r
  | .mint a u => (NormalNFT721.mint env a u).discard
  | .batchMint a us => NormalNFT721.batchMint env a us
  | .transfer a b i => NormalNFT721.transfer env a b i
  | .transferFrom s a b i => NormalNFT721.transferFrom env s a b i
  | .approve s a i e => NormalNFT721.approve env s a i e
  | .setApprovalForAll o p a e => NormalNFT721.setApprovalForAll env o p a e
  | .revokeAllApprovals i => NormalNFT721.revokeAllApprovals env i
  | .burn s i => NormalNFT721.burn env s i
  | .transferOwnership c => NormalNFT721.transferOwnership env c
  | .proposeCreator c e => NormalNFT721.proposeCreator env c e
  | .acceptCreator c => NormalNFT721.acceptCreator env c
  | .cancelCreatorProposal => NormalNFT721.cancelCreatorProposal env
  | .updateRoyalty r b => NormalNFT721.updateRoyalty env r b
  | .setDefaultRoyalty r b => NormalNFT721.setDefaultRoyalty env r b
  | .setTokenRoyalty i r b => NormalNFT721.setTokenRoyalty env i r b
  | .pause => NormalNFT721.pause env
  | .unpause => NormalNFT721.unpause env
  | .setBaseUri u => NormalNFT721.setBaseUri env u
  | .freezeMetadata => NormalNFT721.freezeMetadata env
  | .freezeToken a i => NormalNFT721.freezeToken env a i
  | .setTokenUri i u => NormalNFT721.setTokenUri env i u
  | .migrate => NormalNFT721.migrate env

/-- The state after one invocation; one that fails is rolled back. -/
def step (s : State) (op : Op) : State :=
  match op.exec env s with
  | .ok (_, s') => s'
  | .error _ => s

/-- The state after a run, each invocation in the ledger it carries. -/
abbrev run (s : State) (calls : List (Env × Op)) : State :=
  Run.exec (fun s call => step call.1 s call.2) s calls

instance : Preserves f (onlyCreator env) where
  eq h := by rw [h.zoom_eq fun _ => rfl]

end ElcareHub.NormalNFT721
