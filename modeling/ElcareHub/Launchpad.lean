import ElcareHub.Collections.NormalNFT721
import ElcareHub.Collections.NormalNFT1155
import ElcareHub.Collections.LazyMint721
import ElcareHub.Collections.LazyMint1155

/-!
# The launchpad

The launchpad deploys collections of four kinds and keeps a registry of what it has deployed. A
deployment is paid for with a flat fee and identified by its creator and a salt the creator chooses; one
that is asked for again returns the collection there is. The registry keeps the record of a collection
under three keys: its number, its number among those of its creator, and its address.

`sha256`, the encoding of addresses and the address a salt leads to are functions of the host, which
also refuses to deploy at an address where there is a contract already. The contract that has been
deployed is initialised in the same invocation, by the model of its kind; what becomes of it afterwards
is its own affair. Upgrading a collection and setting its fee on the marketplace are calls to other
contracts, of which only whether they succeed is known here.

Lifetimes of storage entries are not modelled, and neither is the legacy entry `ByCreator`, which
nothing reads.
-/

namespace ElcareHub.Launchpad

open Collection Call

/-! ### Types -/

inductive Error
  | alreadyInitialized | notInitialized | notAdmin | wasmHashNotSet | invalidFeeBps | contractPaused
  | invalidDeployFee | noPendingAdmin | notPendingAdmin | duplicateSalt | invalidRoyaltyBps | emptyName
  | emptySymbol | invalidMaxSupply | insufficientFee | alreadyMigrated | collectionNotFound
  | nameTooLong | symbolTooLong | maxSupplyTooLarge | marketplaceNotConfigured | collectionNotOurs

inductive CollectionKind
  | normal721 | normal1155 | lazyMint721 | lazyMint1155
  deriving DecidableEq

/-- The tag of a kind in the events. -/
def CollectionKind.tag : CollectionKind → Symbol
  | .normal721 => "n721"
  | .normal1155 => "n1155"
  | .lazyMint721 => "l721"
  | .lazyMint1155 => "l1155"

structure CollectionRecord where
  address : Address
  kind : CollectionKind
  creator : Address
  name : String
  symbol : String
  ledger : Nat
  platformFeeBps : Nat
  royaltyBps : Nat
  royaltyReceiver : Address
  deriving DecidableEq

/-- `BytesN<32>`. -/
abbrev Bytes32 := { bytes : Bytes // bytes.length = 32 }

inductive Event
  | deploy (tag : Symbol) (creator address : Address)
  | deployIdempotent (creator address : Address)
  | deploymentFeeCollected (creator treasury : Address) (amount : Int) (currency collection : Address)
      (tag : Symbol) (platformFeeBps : Nat)
  | feeConfigUpdated (receiver : Address) (deployFee : Int)
  | adminTransferProposed (current proposed : Address)
  | adminTransferAccepted (old new : Address)
  | adminTransferCancelled (admin pending : Address)
  | paused (authority : Address) (paused : Bool)
  | emergencyPauserUpdated (pauser : Address)
  | wasmHashesSet (version : Nat) (normal721 normal1155 lazy721 lazy1155 : Bytes)
  | collectionWasmUpdated (tag : Symbol) (oldWasm newWasm : Bytes)
  | collectionUpgraded (collection : Address) (fromWasm toWasm : Bytes)
  | collectionPaused (collection admin : Address)
  | collectionUnpaused (collection admin : Address)
  | migrationCompleted (version : String)
  | collectionFeeConfigured (collection : Address) (bps : Nat) (admin : Address)
  | marketplaceAddressSet (marketplace : Address)

structure MigrationProgress where
  phase : Nat
  cursor : Nat

/-! ### Storage -/

structure State where
  initialized : Bool
  admin : Option Address
  pendingAdmin : Option Address
  paused : Bool
  feeReceiver : Option Address
  deployFee : Option Int
  /-- `WasmNormal721`, `WasmNormal1155`, `WasmLazy721`, `WasmLazy1155` -/
  wasm : CollectionKind → Option Bytes
  collectionWasmHash : CollectionKind → Option Bytes
  wasmVersion : Nat
  emergencyPauser : Option Address
  marketplace : Option Address
  contractVersion : Option String
  collectionCount : Nat
  collectionByIndex : Nat → Option CollectionRecord
  creatorCollectionCount : Address → Nat
  creatorCollectionByIndex : Address × Nat → Option CollectionRecord
  collectionByAddress : Address → Option CollectionRecord
  saltUsed : Bytes → Bool
  saltAddress : Bytes → Option Address
  collectionPaused : Address → Bool
  /-- `AllCollections`, which only an earlier version has written -/
  allCollectionsLegacy : Option (List CollectionRecord)
  migrationDone : String → Bool
  migrationCursor : String → Option MigrationProgress
  events : List Event
  /-- where there is a contract -/
  contracts : Address → Bool
  /-- the payment tokens: by token and holder -/
  balances : Address × Address → Int

/-- Nothing stored yet, but for what an earlier version may have left. -/
def State.fresh (legacy : Option (List CollectionRecord)) (contracts : Address → Bool)
    (balances : Address × Address → Int) : State where
  initialized := false
  admin := none
  pendingAdmin := none
  paused := false
  feeReceiver := none
  deployFee := none
  wasm _ := none
  collectionWasmHash _ := none
  wasmVersion := 0
  emergencyPauser := none
  marketplace := none
  contractVersion := none
  collectionCount := 0
  collectionByIndex _ := none
  creatorCollectionCount _ := 0
  creatorCollectionByIndex _ := none
  collectionByAddress _ := none
  saltUsed _ := false
  saltAddress _ := none
  collectionPaused _ := false
  allCollectionsLegacy := legacy
  migrationDone _ := false
  migrationCursor _ := none
  events := []
  contracts := contracts
  balances := balances

/-- What the launchpad asks of the host and of other contracts. -/
structure Host where
  crypto : Crypto
  /-- the code is on the ledger -/
  uploaded : Bytes → Bool
  /-- `deployer().with_current_contract(salt).deployed_address()` -/
  deployedAddress : Bytes → Address
  /-- the collection accepts the call of `upgrade` -/
  acceptsUpgrade : Env → (collection : Address) → (newWasm : Bytes) → Bool
  /-- the marketplace accepts the call of `set_collection_fee_bps` -/
  acceptsFee : Env → (marketplace admin collection : Address) → (bps : Nat) → Bool

abbrev Tx := Call (Fault Error) State

def maxFeeBps : Nat := 2000
def maxRoyaltyBps : Nat := 10000
def contractVersion : String := "1.0.0"

section Code

variable (host : Host) (env : Env)

abbrev emit (e : Event) : Tx Unit := update fun s => { s with events := s.events ++ [e] }

abbrev requireAdmin : Tx Address := do
  let stored ← view State.admin
  let admin ← orFail stored .notInitialized
  requireAuth env admin
  pure admin

def requirePauseAuthority : Tx Address := do
  let stored ← view State.emergencyPauser
  match stored with
  | some pauser => do
    requireAuth env pauser
    pure pauser
  | none => requireAdmin env

def getFeeConfig : Tx (Address × Int) := do
  let stored ← view State.feeReceiver
  let receiver ← unwrap stored
  let fee ← view fun s => s.deployFee.getD 0
  pure (receiver, fee)

/-! ### Deployment -/

def makeSecureSalt (creator : Address) (rawSalt : Bytes32) : Bytes :=
  host.crypto.sha256 (host.crypto.addressXdr creator ++ rawSalt.val)

/-- The errors whose condition holds, in order. -/
def failures (checks : List (Bool × Error)) : List Error :=
  (checks.filter Prod.fst).map Prod.snd

def validate721Shape (name symbol : String) (maxSupply royaltyBps platformFeeBps : Nat) (s : State)
    (secureSalt : Bytes) (wasmSet : Bool) : List Error :=
  failures
    [(s.paused, .contractPaused), (decide (maxFeeBps < platformFeeBps), .invalidFeeBps),
      (decide (maxRoyaltyBps < royaltyBps), .invalidRoyaltyBps),
      (decide (name.utf8ByteSize = 0), .emptyName),
      (decide (64 < name.utf8ByteSize), .nameTooLong),
      (decide (symbol.utf8ByteSize = 0), .emptySymbol),
      (decide (16 < symbol.utf8ByteSize), .symbolTooLong),
      (decide (maxSupply = 0), .invalidMaxSupply),
      (decide (1000000000 < maxSupply), .maxSupplyTooLarge),
      (!wasmSet, .wasmHashNotSet),
      (s.saltUsed secureSalt, .duplicateSalt)]

def validate1155Shape (name : String) (royaltyBps platformFeeBps : Nat) (s : State)
    (secureSalt : Bytes) (wasmSet : Bool) : List Error :=
  failures
    [(s.paused, .contractPaused), (decide (maxFeeBps < platformFeeBps), .invalidFeeBps),
      (decide (maxRoyaltyBps < royaltyBps), .invalidRoyaltyBps),
      (decide (name.utf8ByteSize = 0), .emptyName),
      (decide (64 < name.utf8ByteSize), .nameTooLong),
      (!wasmSet, .wasmHashNotSet),
      (s.saltUsed secureSalt, .duplicateSalt)]

/-- `TokenClient::transfer`. -/
def transferTokens (token src dst : Address) (amount : Int) : Tx Unit :=
  attempt fun s =>
    if TransferRefused env s.balances token src dst amount then .error (.token token)
    else .ok ((), { s with balances := moveBalance s.balances token src dst amount })

/-- `collect_deploy_fee`; returns the receiver of the fee. -/
def collectDeployFee (creator currency collection : Address) (tag : Symbol) (platformFeeBps : Nat) :
    Tx Address := do
  let (receiver, deployFee) ← getFeeConfig
  when (0 < deployFee) do
    transferTokens env currency creator receiver deployFee
    emit (.deploymentFeeCollected creator receiver deployFee currency collection tag platformFeeBps)
  pure receiver

/-- `deploy_v2`: the host refuses code that is not on the ledger and an address that is taken. -/
def deployV2 (secureSalt wasm : Bytes) : Tx Address := do
  abortIf (host.uploaded wasm = false) (.trap "deploy_v2: no such code")
  let taken ← view fun s => s.contracts (host.deployedAddress secureSalt)
  abortIf (taken = true) (.trap "deploy_v2: contract already exists")
  update fun s =>
    { s with contracts := Function.update s.contracts (host.deployedAddress secureSalt) true }
  pure (host.deployedAddress secureSalt)

def recordSaltDeployment (secureSalt : Bytes) (address : Address) : Tx Unit :=
  update fun s =>
    { s with
      saltUsed := Function.update s.saltUsed secureSalt true
      saltAddress := Function.update s.saltAddress secureSalt (some address) }

def recordCollection (rec : CollectionRecord) : Tx Unit := do
  update fun s =>
    { s with
      collectionByAddress := Function.update s.collectionByAddress rec.address (some rec) }
  let globalIdx ← view State.collectionCount
  update fun s =>
    { s with collectionByIndex := Function.update s.collectionByIndex globalIdx (some rec) }
  let creatorCount ← view fun s => s.creatorCollectionCount rec.creator
  update fun s =>
    { s with
      creatorCollectionByIndex :=
        Function.update s.creatorCollectionByIndex (rec.creator, creatorCount) (some rec) }
  let creatorNext ← addUpTo u64Max creatorCount 1
  update fun s =>
    { s with
      creatorCollectionCount := Function.update s.creatorCollectionCount rec.creator creatorNext }
  let next ← addUpTo u64Max globalIdx 1
  update fun s => { s with collectionCount := next }

/-- What the four `deploy_*` operations differ in. -/
structure Plan where
  kind : CollectionKind
  creator : Address
  currency : Address
  name : String
  /-- empty where the kind has none -/
  symbol : String
  royaltyBps : Nat
  royaltyReceiver : Address
  platformFeeBps : Nat
  salt : Bytes32
  validate : State → (secureSalt : Bytes) → (wasmSet : Bool) → List Error
  /-- `initialize` of the new contract succeeds, with this receiver of the platform fee -/
  initializes : (platformFeeReceiver : Address) → Bool

/-- The salt of a deployment. -/
def Plan.secureSalt (p : Plan) : Bytes := makeSecureSalt host p.creator p.salt

/-- The record of a deployment. -/
def Plan.record (p : Plan) (address : Address) (ledger : Nat) : CollectionRecord :=
  ⟨address, p.kind, p.creator, p.name, p.symbol, ledger, p.platformFeeBps, p.royaltyBps,
    p.royaltyReceiver⟩

/-- A deployment with a salt that has not been used. -/
def deployNew (p : Plan) : Tx Address := do
  let wasmOpt ← view fun s => s.wasm p.kind
  let errors ← view fun s => p.validate s (p.secureSalt host) wasmOpt.isSome
  onSome errors.head? fun first => fail first
  let wasm ← unwrap wasmOpt
  let platformFeeReceiver ← collectDeployFee env p.creator p.currency
    (host.deployedAddress (p.secureSalt host)) p.kind.tag p.platformFeeBps
  let addr ← deployV2 host (p.secureSalt host) wasm
  abortIf (p.initializes platformFeeReceiver = false) (.trap "initialize")
  recordSaltDeployment (p.secureSalt host) addr
  recordCollection (p.record addr env.sequence)
  emit (.deploy p.kind.tag p.creator addr)
  pure addr

/-- The body of the four `deploy_*` operations. -/
def deployCollection (p : Plan) : Tx Address := do
  requireAuth env p.creator
  let existing ← view fun s => s.saltAddress (p.secureSalt host)
  match existing with
  | some existingAddr => do
    emit (.deployIdempotent p.creator existingAddr)
    pure existingAddr
  | none => deployNew host env p

section Plans

variable (creator currency : Address) (creatorPubkey : Bytes) (name symbol : String)
  (maxSupply royaltyBps : Nat) (royaltyReceiver : Address) (platformFeeBps : Nat) (salt : Bytes32)
  (networkPassphrase : String)

/-- What `deploy_normal_721` deploys. -/
def planNormal721 : Plan :=
  { kind := .normal721, creator, currency, name, symbol, royaltyBps, royaltyReceiver,
    platformFeeBps, salt
    validate := validate721Shape name symbol maxSupply royaltyBps platformFeeBps
    initializes := fun _ => passes (NormalNFT721.initializeCollection creator name symbol maxSupply
      royaltyBps royaltyReceiver) .fresh fun _ _ => true }

/-- What `deploy_normal_1155` deploys. -/
def planNormal1155 : Plan :=
  { kind := .normal1155, creator, currency, name, symbol := "", royaltyBps, royaltyReceiver,
    platformFeeBps, salt
    validate := validate1155Shape name royaltyBps platformFeeBps
    initializes := fun _ => passes (NormalNFT1155.initializeCollection creator name royaltyBps
      royaltyReceiver) .fresh fun _ _ => true }

/-- What `deploy_lazy_721` deploys. -/
def planLazy721 : Plan :=
  { kind := .lazyMint721, creator, currency, name, symbol, royaltyBps, royaltyReceiver,
    platformFeeBps, salt
    validate := validate721Shape name symbol maxSupply royaltyBps platformFeeBps
    initializes := fun platformFeeReceiver => passes (LazyMint721.initializeCollection creator
      creatorPubkey name symbol maxSupply royaltyBps royaltyReceiver platformFeeReceiver
      platformFeeBps networkPassphrase) (.fresh fun _ => 0) fun _ _ => true }

/-- What `deploy_lazy_1155` deploys. -/
def planLazy1155 : Plan :=
  { kind := .lazyMint1155, creator, currency, name, symbol := "", royaltyBps, royaltyReceiver,
    platformFeeBps, salt
    validate := validate1155Shape name royaltyBps platformFeeBps
    initializes := fun platformFeeReceiver => passes (LazyMint1155.initializeCollection creator
      creatorPubkey name royaltyBps royaltyReceiver platformFeeReceiver platformFeeBps
      networkPassphrase) (.fresh fun _ => 0) fun _ _ => true }

def deployNormal721 : Tx Address :=
  deployCollection host env (planNormal721 creator currency name symbol maxSupply royaltyBps
    royaltyReceiver platformFeeBps salt)

def deployNormal1155 : Tx Address :=
  deployCollection host env (planNormal1155 creator currency name royaltyBps royaltyReceiver
    platformFeeBps salt)

def deployLazy721 : Tx Address :=
  deployCollection host env (planLazy721 creator currency creatorPubkey name symbol maxSupply
    royaltyBps royaltyReceiver platformFeeBps salt networkPassphrase)

def deployLazy1155 : Tx Address :=
  deployCollection host env (planLazy1155 creator currency creatorPubkey name royaltyBps
    royaltyReceiver platformFeeBps salt networkPassphrase)

/-! ### Preflight -/

/-- `error as u32`. -/
def Error.code (e : Error) : Nat := e.ctorIdx + 1

structure PreflightResult where
  predictedAddress : Address
  requiredFee : Int
  platformFeeBps : Nat
  currency : Address
  errors : List Nat

def checkSufficientFee (deployFee : Int) (errors : List Error) (s : State) : List Error :=
  if 0 < deployFee ∧ s.balances (currency, creator) < deployFee then errors ++ [.insufficientFee]
  else errors

/-- The body of the four `preflight_deploy_*` operations. -/
def preflightDeploy (kind : CollectionKind)
    (validate : State → (secureSalt : Bytes) → (wasmSet : Bool) → List Error) : Tx PreflightResult := do
  let wasmOpt ← view fun s => s.wasm kind
  let errors ← view fun s => validate s (makeSecureSalt host creator salt) wasmOpt.isSome
  let (_, deployFee) ← getFeeConfig
  let errors ← view (checkSufficientFee creator currency deployFee errors)
  pure
    { predictedAddress := host.deployedAddress (makeSecureSalt host creator salt)
      requiredFee := deployFee
      platformFeeBps
      currency
      errors := errors.map Error.code }

def preflightDeployNormal721 : Tx PreflightResult :=
  preflightDeploy host creator currency platformFeeBps salt .normal721
    (validate721Shape name symbol maxSupply royaltyBps platformFeeBps)

def preflightDeployNormal1155 : Tx PreflightResult :=
  preflightDeploy host creator currency platformFeeBps salt .normal1155
    (validate1155Shape name royaltyBps platformFeeBps)

def preflightDeployLazy721 : Tx PreflightResult :=
  preflightDeploy host creator currency platformFeeBps salt .lazyMint721
    (validate721Shape name symbol maxSupply royaltyBps platformFeeBps)

def preflightDeployLazy1155 : Tx PreflightResult :=
  preflightDeploy host creator currency platformFeeBps salt .lazyMint1155
    (validate1155Shape name royaltyBps platformFeeBps)

end Plans

/-! ### Migration -/

def requirePendingMigration (admin : Address) : Tx Unit := do
  requireAuth env admin
  let stored ← view State.admin
  let current ← orFail stored .notInitialized
  failIf (admin ≠ current) .notAdmin
  let done ← view fun s => s.migrationDone contractVersion
  failIf (done = true) .alreadyMigrated

/-- The loop of phase 0 over the legacy records: the `i`th goes to cell `currentCount + i`. -/
def insertLegacy : (idx : Nat) → List CollectionRecord → Tx Unit
  | _, [] => pure ()
  | idx, rec :: records => do
    abortIf (u64Max < idx) (.trap "attempt to add with overflow")
    update fun s =>
      { s with collectionByIndex := Function.update s.collectionByIndex idx (some rec) }
    insertLegacy (idx + 1) records

/-- Phase 0: `AllCollections` is consumed. -/
def migrateLegacy : Tx Unit := do
  let legacy ← view State.allCollectionsLegacy
  onSome legacy fun records => do
    update fun s => { s with allCollectionsLegacy := none }
    let currentCount ← view State.collectionCount
    insertLegacy currentCount records
    let newTotal ← addUpTo u64Max currentCount records.length
    update fun s => { s with collectionCount := newTotal }

/-- The loop of `run_migration`; returns the phase it stops in. -/
def migrationLoop : (budget phase : Nat) → Tx Nat
  | 0, phase => pure phase
  | budget + 1, 0 => do
    migrateLegacy
    migrationLoop budget 1
  | _ + 1, phase + 1 => pure (phase + 1)

/-- `run_migration`; returns what remains. -/
def runMigration (budget : Nat) : Tx Nat := do
  let p ← view fun s => (s.migrationCursor contractVersion).getD ⟨0, 0⟩
  let phase ← migrationLoop budget p.phase
  if phase = 0 then do
    update fun s =>
      { s with
        migrationCursor := Function.update s.migrationCursor contractVersion (some ⟨0, p.cursor⟩) }
    pure 1
  else do
    update fun s =>
      { s with
        migrationCursor := Function.update s.migrationCursor contractVersion none
        migrationDone := Function.update s.migrationDone contractVersion true
        contractVersion := some contractVersion }
    emit (.migrationCompleted contractVersion)
    pure 0

def migrateStep (admin : Address) (maxItems : Nat) : Tx Nat := do
  requirePendingMigration env admin
  runMigration maxItems

def migrate (admin : Address) : Tx Unit := (migrateStep env admin u32Max).discard

/-! ### Administration -/

/-- `initialize`. -/
abbrev initializeLaunchpad (admin feeReceiver : Address) (deployFee : Int) : Tx Unit := do
  let initialized ← view State.initialized
  failIf (initialized = true) .alreadyInitialized
  failIf (deployFee < 0) .invalidDeployFee
  requireAuth env admin
  update fun s =>
    { s with
      initialized := true
      admin := some admin
      feeReceiver := some feeReceiver
      deployFee := some deployFee }

abbrev setWasmHashForKind (kind : CollectionKind) (wasmHash : Bytes) : Tx Unit :=
  update fun s =>
    { s with
      collectionWasmHash := Function.update s.collectionWasmHash kind (some wasmHash)
      wasm := Function.update s.wasm kind (some wasmHash) }

abbrev setWasmHashes (normal721 normal1155 lazy721 lazy1155 : Bytes) : Tx Unit := do
  let _ ← requireAdmin env
  setWasmHashForKind .normal721 normal721
  setWasmHashForKind .normal1155 normal1155
  setWasmHashForKind .lazyMint721 lazy721
  setWasmHashForKind .lazyMint1155 lazy1155
  let version ← view State.wasmVersion
  let next ← addUpTo u32Max version 1
  update fun s => { s with wasmVersion := next }
  emit (.wasmHashesSet next normal721 normal1155 lazy721 lazy1155)

def getWasmForKind (s : State) (kind : CollectionKind) : Option Bytes :=
  (s.collectionWasmHash kind).or (s.wasm kind)

abbrev updateCollectionWasm (kind : CollectionKind) (newWasmHash : Bytes) : Tx Unit := do
  let _ ← requireAdmin env
  let oldWasm ← view fun s => (getWasmForKind s kind).getD (List.replicate 32 0)
  setWasmHashForKind kind newWasmHash
  emit (.collectionWasmUpdated kind.tag oldWasm newWasmHash)

abbrev upgradeCollection (collection : Address) : Tx Unit := do
  let _ ← requireAdmin env
  let stored ← view fun s => s.collectionByAddress collection
  let record ← orFail stored .collectionNotFound
  let stored ← view fun s => getWasmForKind s record.kind
  let newWasm ← orFail stored .wasmHashNotSet
  abortIf (host.acceptsUpgrade env collection newWasm = false) (.trap "upgrade")
  emit (.collectionUpgraded collection newWasm newWasm)

abbrev transferAdmin (newAdmin : Address) : Tx Unit := do
  let admin ← requireAdmin env
  update fun s => { s with pendingAdmin := some newAdmin }
  emit (.adminTransferProposed admin newAdmin)

abbrev acceptAdmin (newAdmin : Address) : Tx Unit := do
  requireAuth env newAdmin
  let stored ← view State.pendingAdmin
  let pending ← orFail stored .noPendingAdmin
  failIf (newAdmin ≠ pending) .notPendingAdmin
  let stored ← view State.admin
  let oldAdmin ← orFail stored .notInitialized
  update fun s => { s with admin := some newAdmin, pendingAdmin := none }
  emit (.adminTransferAccepted oldAdmin newAdmin)

abbrev cancelAdminTransfer : Tx Unit := do
  let admin ← requireAdmin env
  let stored ← view State.pendingAdmin
  let pending ← orFail stored .noPendingAdmin
  update fun s => { s with pendingAdmin := none }
  emit (.adminTransferCancelled admin pending)

/-- `pause` and `unpause`. -/
abbrev setPaused (paused : Bool) : Tx Unit := do
  let authority ← requirePauseAuthority env
  update fun s => { s with paused := paused }
  emit (.paused authority paused)

abbrev setEmergencyPauser (pauser : Address) : Tx Unit := do
  let _ ← requireAdmin env
  update fun s => { s with emergencyPauser := some pauser }
  emit (.emergencyPauserUpdated pauser)

abbrev setFeeConfig (receiver : Address) (deployFee : Int) : Tx Unit := do
  let _ ← requireAdmin env
  failIf (deployFee < 0) .invalidDeployFee
  update fun s => { s with feeReceiver := some receiver, deployFee := some deployFee }
  emit (.feeConfigUpdated receiver deployFee)

abbrev setMarketplaceAddress (marketplace : Address) : Tx Unit := do
  let _ ← requireAdmin env
  update fun s => { s with marketplace := some marketplace }
  emit (.marketplaceAddressSet marketplace)

abbrev setCollectionProtocolFee (collection : Address) (bps : Nat) : Tx Unit := do
  let admin ← requireAdmin env
  failIf (10000 < bps) .invalidFeeBps
  let record ← view fun s => s.collectionByAddress collection
  failIf (record.isNone = true) .collectionNotOurs
  let stored ← view State.marketplace
  let marketplace ← orFail stored .marketplaceNotConfigured
  abortIf (host.acceptsFee env marketplace admin collection bps = false)
    (.trap "set_collection_fee_bps")
  emit (.collectionFeeConfigured collection bps admin)

def updateCollectionRoyaltyDefaults (address : Address) (royaltyBps : Nat)
    (royaltyReceiver : Address) : Tx Unit := do
  let stored ← view fun s => s.collectionByAddress address
  let rec ← orFail stored .collectionNotFound
  update fun s =>
    { s with
      collectionByAddress := Function.update s.collectionByAddress address
        (some { rec with royaltyBps := royaltyBps, royaltyReceiver := royaltyReceiver }) }

def updateCollectionRoyalties (collection : Address) (royaltyBps : Nat)
    (royaltyReceiver : Address) : Tx Unit := do
  let _ ← requireAdmin env
  failIf (maxRoyaltyBps < royaltyBps) .invalidRoyaltyBps
  updateCollectionRoyaltyDefaults collection royaltyBps royaltyReceiver

/-- `pause_collection` and `unpause_collection`. -/
abbrev setCollectionPaused (admin collection : Address) (paused : Bool) : Tx Unit := do
  let _ ← requireAdmin env
  requireAuth env admin
  update fun s =>
    { s with collectionPaused := Function.update s.collectionPaused collection paused }
  emit (if paused then .collectionPaused collection admin else .collectionUnpaused collection admin)

end Code

/-! ### Views -/

def collectionsByCreator (s : State) (creator : Address) : List CollectionRecord :=
  (List.range (s.creatorCollectionCount creator)).filterMap fun i =>
    s.creatorCollectionByIndex (creator, i)

def allCollections (s : State) : List CollectionRecord :=
  (List.range s.collectionCount).filterMap s.collectionByIndex

/-- `get_collections`; nothing where `start + limit` overflows, which traps. -/
def getCollections (s : State) (start limit : Nat) : Option (List CollectionRecord) :=
  if start + limit ≤ u64Max then
    some ((List.range' start (min (start + limit) s.collectionCount - start)).filterMap
      s.collectionByIndex)
  else none

def getCollection (s : State) (address : Address) : Option CollectionRecord :=
  s.collectionByAddress address

/-! ### Runs -/

inductive Op
  | initializeLaunchpad (admin feeReceiver : Address) (deployFee : Int)
  | migrate (admin : Address)
  | migrateStep (admin : Address) (maxItems : Nat)
  | setWasmHashes (normal721 normal1155 lazy721 lazy1155 : Bytes)
  | deployNormal721 (creator currency : Address) (name symbol : String) (maxSupply royaltyBps : Nat)
      (royaltyReceiver : Address) (platformFeeBps : Nat) (salt : Bytes32)
  | deployNormal1155 (creator currency : Address) (name : String) (royaltyBps : Nat)
      (royaltyReceiver : Address) (platformFeeBps : Nat) (salt : Bytes32)
  | deployLazy721 (creator currency : Address) (creatorPubkey : Bytes) (name symbol : String)
      (maxSupply royaltyBps : Nat) (royaltyReceiver : Address) (platformFeeBps : Nat)
      (salt : Bytes32) (networkPassphrase : String)
  | deployLazy1155 (creator currency : Address) (creatorPubkey : Bytes) (name : String)
      (royaltyBps : Nat) (royaltyReceiver : Address) (platformFeeBps : Nat) (salt : Bytes32)
      (networkPassphrase : String)
  | transferAdmin (newAdmin : Address)
  | acceptAdmin (newAdmin : Address)
  | cancelAdminTransfer
  | pause
  | unpause
  | setEmergencyPauser (pauser : Address)
  | updateCollectionWasm (kind : CollectionKind) (newWasmHash : Bytes)
  | upgradeCollection (collection : Address)
  | setFeeConfig (receiver : Address) (deployFee : Int)
  | setMarketplaceAddress (marketplace : Address)
  | setCollectionProtocolFee (collection : Address) (bps : Nat)
  | updateCollectionRoyalties (collection : Address) (royaltyBps : Nat) (royaltyReceiver : Address)
  | pauseCollection (admin collection : Address)
  | unpauseCollection (admin collection : Address)

/-- The four `deploy_*` operations. -/
def Op.plan : Op → Option Plan
  | .deployNormal721 c t n y m b r p z => some (planNormal721 c t n y m b r p z)
  | .deployNormal1155 c t n b r p z => some (planNormal1155 c t n b r p z)
  | .deployLazy721 c t k n y m b r p z w => some (planLazy721 c t k n y m b r p z w)
  | .deployLazy1155 c t k n b r p z w => some (planLazy1155 c t k n b r p z w)
  | _ => none

section Runs

variable (host : Host) (env : Env)

def Op.exec : Op → Tx Unit
  | .initializeLaunchpad a r f => Launchpad.initializeLaunchpad env a r f
  | .migrate a => Launchpad.migrate env a
  | .migrateStep a n => (Launchpad.migrateStep env a n).discard
  | .setWasmHashes a b c d => Launchpad.setWasmHashes env a b c d
  | .deployNormal721 c t n y m b r p z =>
    (Launchpad.deployNormal721 host env c t n y m b r p z).discard
  | .deployNormal1155 c t n b r p z =>
    (Launchpad.deployNormal1155 host env c t n b r p z).discard
  | .deployLazy721 c t k n y m b r p z w =>
    (Launchpad.deployLazy721 host env c t k n y m b r p z w).discard
  | .deployLazy1155 c t k n b r p z w =>
    (Launchpad.deployLazy1155 host env c t k n b r p z w).discard
  | .transferAdmin a => Launchpad.transferAdmin env a
  | .acceptAdmin a => Launchpad.acceptAdmin env a
  | .cancelAdminTransfer => Launchpad.cancelAdminTransfer env
  | .pause => setPaused env true
  | .unpause => setPaused env false
  | .setEmergencyPauser p => Launchpad.setEmergencyPauser env p
  | .updateCollectionWasm k w => Launchpad.updateCollectionWasm env k w
  | .upgradeCollection c => Launchpad.upgradeCollection host env c
  | .setFeeConfig r f => Launchpad.setFeeConfig env r f
  | .setMarketplaceAddress m => Launchpad.setMarketplaceAddress env m
  | .setCollectionProtocolFee c b => Launchpad.setCollectionProtocolFee host env c b
  | .updateCollectionRoyalties c b r => Launchpad.updateCollectionRoyalties env c b r
  | .pauseCollection a c => setCollectionPaused env a c true
  | .unpauseCollection a c => setCollectionPaused env a c false

/-- The state after one invocation; one that fails is rolled back. -/
def step (s : State) (call : Env × Op) : State :=
  match call.2.exec host call.1 s with
  | .ok (_, s') => s'
  | .error _ => s

/-- The state after a run. -/
abbrev run (s : State) (calls : List (Env × Op)) : State := Run.exec (step host) s calls

end Runs

end ElcareHub.Launchpad
