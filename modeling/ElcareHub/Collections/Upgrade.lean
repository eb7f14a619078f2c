import ElcareHub.Collections.Vouchers.Settings

/-!
# Who controls a lazy collection

What a lazy collection sells, to whom and for whom is settled by its creator: the code it runs, the
creator's seat, the key its vouchers are signed with, the royalty, the allowlist and the phase of the
sale. Every entry point that writes the settings asks for the creator's signature, but for the
acceptance of a proposal of the creator (`control_moves`). `upgrade`, which replaces the code and with
it all of the rest, asks for nobody's: it is the one entry point by which someone else changes what
is the creator's (`LazyContract.controlled_iff`).

A contract is modelled as it is installed on the ledger, with the hash of the code the host runs for it
beside its storage. Once that is not the code of this contract any more, the entry points modelled here
are not what an invocation runs, and a run ends there.
-/

namespace ElcareHub.Collection

open Call

/-! ### Installed contracts -/

structure Installed (σ : Type) where
  state : σ
  currentWasmHash : Option Bytes
  /-- the hash of the code the host runs -/
  executable : Bytes
  /-- the events `upgraded`, with the old hash and the new one -/
  upgraded : List (Bytes × Bytes)

/-- A contract that has just been deployed from the code `wasm`. -/
def Installed.deploy {σ : Type} (wasm : Bytes) (state : σ) : Installed σ := ⟨state, none, wasm, []⟩

def zeroHash : Bytes := List.replicate 32 0

section Upgrade

variable {ε σ : Type} (uploaded : Bytes → Bool)

/-- `update_current_contract_wasm`: the host refuses code that has not been uploaded. -/
def updateCurrentContractWasm (newWasmHash : Bytes) : Call (Fault ε) (Installed σ) Unit := do
  abortIf (uploaded newWasmHash = false) (.trap "update_current_contract_wasm")
  update fun i => { i with executable := newWasmHash }

def upgrade (newWasmHash : Bytes) : Call (Fault ε) (Installed σ) Unit := do
  let oldWasmHash ← view fun i => i.currentWasmHash.getD zeroHash
  update fun i => { i with currentWasmHash := some newWasmHash }
  updateCurrentContractWasm uploaded newWasmHash
  update fun i => { i with upgraded := i.upgraded ++ [(oldWasmHash, newWasmHash)] }

theorem returns_upgrade :
    Returns (upgrade uploaded newWasmHash : Call (Fault ε) (Installed σ) Unit) i u i' ↔
      uploaded newWasmHash = true ∧ ⟨i.state, some newWasmHash, newWasmHash,
          i.upgraded ++ [(i.currentWasmHash.getD zeroHash, newWasmHash)]⟩ = i' := by
  simp only [upgrade, updateCurrentContractWasm, returns_bind, returns_view, returns_update,
    returns_abortIf, Bool.not_eq_false]
  constructor
  · rintro ⟨old, i1, ⟨rfl, rfl⟩, -, i2, rfl, -, i3, ⟨-, i4, ⟨huploaded, rfl⟩, rfl⟩, rfl⟩
    exact ⟨huploaded, rfl⟩
  · rintro ⟨huploaded, rfl⟩
    exact ⟨_, _, ⟨rfl, rfl⟩, (), _, rfl, (), _, ⟨(), _, ⟨huploaded, rfl⟩, rfl⟩, rfl⟩

end Upgrade

/-! ### Lazy contracts -/

/-- A lazy collection contract: which of its entry points initialise it and which write its settings,
and that no other does. -/
structure LazyContract where
  Error : Type
  State : Type
  Op : Type
  exec : Env → Op → Call (Fault Error) State Unit
  Fresh : State → Prop
  lazyBase : State → LazyBase
  control : Op → Option Control
  isInitialize : Op → Bool
  fresh : ∀ {s}, Fresh s → (lazyBase s).base.creator = none
  moves : ∀ {env op k s s'}, control op = some k → Returns (exec env op) s () s' →
    (lazyBase s).settings.Move env k (lazyBase s').settings
  initializes : ∀ {env op s s'}, isInitialize op = true → Returns (exec env op) s () s' →
    (lazyBase s).base.initialized = false ∧ (lazyBase s').base.initialized = true
  stays : ∀ {env op s s'}, control op = none → isInitialize op = false →
    Returns (exec env op) s () s' → (lazyBase s').settings = (lazyBase s).settings

/-- An invocation of an installed contract. -/
inductive Invocation (ω : Type)
  | entry (op : ω)
  | upgrade (newWasmHash : Bytes)

/-- What is the creator's. -/
structure Protected where
  executable : Bytes
  currentWasmHash : Option Bytes
  creator : Option Address
  creatorPubkey : Option Bytes
  royaltyReceiver : Option Address
  royaltyBps : Option Nat
  merkleRoot : Option Bytes
  isPublicPhase : Bool

namespace LazyContract

section Runs

variable (c : LazyContract) (uploaded : Bytes → Bool)

def execute (env : Env) : Invocation c.Op → Call (Fault c.Error) (Installed c.State) Unit
  | .entry op => do
    zoom Installed.state (fun state i => { i with state }) (c.exec env op)
    -- `initialize` also writes `CurrentWasmHash`
    when (c.isInitialize op = true)
      (update fun i => { i with currentWasmHash := some zeroHash })
  | .upgrade newWasmHash => Collection.upgrade uploaded newWasmHash

/-- The contract after an invocation, as long as it runs the code `wasm`; one that fails is rolled
back. -/
def step (wasm : Bytes) (i : Installed c.State) (call : Env × Invocation c.Op) : Installed c.State :=
  if i.executable = wasm then
    match c.execute uploaded call.1 call.2 i with
    | .ok (_, i') => i'
    | .error _ => i
  else i

/-- The contract after a run of its code. -/
abbrev run (wasm : Bytes) (i : Installed c.State) (calls : List (Env × Invocation c.Op)) :
    Installed c.State :=
  Run.exec (c.step uploaded wasm) i calls

def creator (i : Installed c.State) : Option Address := (c.lazyBase i.state).base.creator

def protectedOf (i : Installed c.State) : Protected where
  executable := i.executable
  currentWasmHash := i.currentWasmHash
  creator := c.creator i
  creatorPubkey := (c.lazyBase i.state).creatorPubkey
  royaltyReceiver := (c.lazyBase i.state).base.royaltyReceiver
  royaltyBps := (c.lazyBase i.state).base.royaltyBps
  merkleRoot := (c.lazyBase i.state).merkleRoot
  isPublicPhase := (c.lazyBase i.state).isPublicPhase

/-- The call installs the creator whom a proposal names that has not expired, and changes nothing
else of what is the creator's. -/
def Accepts (env : Env) (call : Invocation c.Op) (i i' : Installed c.State) : Prop :=
  ∃ op newCreator e, call = .entry op ∧ c.control op = some (.seat (.acceptCreator newCreator)) ∧
    (c.lazyBase i.state).base.pendingCreator = some newCreator ∧
    (c.lazyBase i.state).base.pendingCreatorExpiry = some e ∧ env.sequence < e ∧
    c.protectedOf i' = { c.protectedOf i with creator := some newCreator }

/-- The call initialises a collection that has no creator yet. -/
def Initializes (call : Invocation c.Op) (i : Installed c.State) : Prop :=
  ∃ op, call = .entry op ∧ c.isInitialize op = true ∧ c.creator i = none

/-- A call that changes what is the creator's is signed by the creator, accepts a proposal, or
initialises the collection. -/
def Controlled (env : Env) (call : Invocation c.Op) (i i' : Installed c.State) : Prop :=
  c.protectedOf i' ≠ c.protectedOf i →
    Signed env (c.creator i) ∨ c.Accepts env call i i' ∨ c.Initializes call i

/-- The call does not replace the code, unless the creator has signed it. -/
def KeepsCode (env : Env) (call : Invocation c.Op) (i : Installed c.State) : Prop :=
  ∀ newWasmHash, call = .upgrade newWasmHash →
    Signed env (c.creator i) ∨ i.executable = newWasmHash ∧ i.currentWasmHash = some newWasmHash

end Runs

/-! ### Steps and runs -/

variable {c : LazyContract} {uploaded : Bytes → Bool} {env : Env} {i i' : Installed c.State}

/-- There is a creator only where the collection has been initialised. -/
def Founded (c : LazyContract) (i : Installed c.State) : Prop :=
  c.creator i ≠ none → (c.lazyBase i.state).base.initialized = true

theorem returns_entry (h : Returns (c.execute uploaded env (.entry op)) i () i') :
    Returns (c.exec env op) i.state () i'.state ∧ i'.executable = i.executable ∧
      (c.isInitialize op = false → i'.currentWasmHash = i.currentWasmHash) := by
  obtain ⟨i1, hentry, h⟩ := h.seq
  obtain ⟨s, hop, rfl⟩ := hentry.zoom
  obtain ⟨hinit, h⟩ | ⟨-, rfl⟩ := h.when
  · obtain rfl := h.update
    exact ⟨hop, rfl, fun hnot => by cases hinit.symm.trans hnot⟩
  · exact ⟨hop, rfl, fun _ => rfl⟩

/-- **Steps.** -/
theorem founded_execute (hi : c.Founded i)
    (h : Returns (c.execute uploaded env call) i () i') : c.Founded i' := by
  cases call with
  | upgrade newWasmHash =>
    obtain ⟨-, rfl⟩ := (returns_upgrade uploaded).mp h
    exact hi
  | entry op =>
    obtain ⟨hop, -⟩ := returns_entry h
    by_cases hinit : c.isInitialize op = true
    · exact fun _ => (c.initializes hinit hop).2
    cases hcontrol : c.control op with
    | none =>
      have hsame := c.stays hcontrol (by simpa using hinit) hop
      have hseat : (c.lazyBase i'.state).base.seat = (c.lazyBase i.state).base.seat :=
        congrArg (fun t : Settings => t.office.seat) hsame
      intro hcreator
      have hcreator : (c.lazyBase i'.state).base.seat.creator ≠ none := hcreator
      rw [hseat] at hcreator
      exact (congrArg Seat.initialized hseat).trans (hi hcreator)
    | some k =>
      have hmove := c.moves hcontrol hop
      intro _
      change (c.lazyBase i'.state).settings.office.seat.initialized = true
      generalize (c.lazyBase i'.state).settings = t' at hmove
      -- whoever moves the settings shows that there is a creator, and so that there has been one
      cases hmove with
      | signed hsigned hkept =>
        obtain ⟨a, ha, -⟩ := hsigned
        exact hkept.trans (hi fun hnone => by cases hnone.symm.trans ha)
      | accept hcreator => exact hi fun hnone => by cases hnone.symm.trans hcreator

/-- **Runs.** -/
theorem founded_run (hfresh : c.Fresh s) (wasm : Bytes) (calls : List (Env × Invocation c.Op)) :
    c.Founded (c.run uploaded wasm (.deploy wasm s) calls) := by
  refine Run.invariant (fun hcreator => (hcreator (c.fresh hfresh)).elim) ?_
  rintro i ⟨env, call⟩ hi
  unfold step
  split
  · split
    · rename_i u i' h
      exact founded_execute hi h
    · exact hi
  · exact hi

/-! ### Control -/

theorem controlled_entry (hi : c.Founded i)
    (h : Returns (c.execute uploaded env (.entry op)) i () i') :
    c.Controlled env (.entry op) i i' := by
  intro hchanged
  obtain ⟨hop, hexecutable, hhash⟩ := returns_entry h
  by_cases hinit : c.isInitialize op = true
  · obtain ⟨hnot, -⟩ := c.initializes hinit hop
    refine .inr (.inr ⟨op, rfl, hinit, ?_⟩)
    by_contra hcreator
    cases hnot.symm.trans (hi hcreator)
  have hinit : c.isInitialize op = false := by simpa using hinit
  -- what is protected is the code and part of the settings
  have hread : ∀ t' : Settings, (c.lazyBase i'.state).settings = t' →
      c.protectedOf i' = ⟨i.executable, i.currentWasmHash, t'.office.seat.creator, t'.creatorPubkey,
        t'.office.royaltyReceiver, t'.office.royaltyBps, t'.merkleRoot, t'.isPublicPhase⟩ := by
    rintro t' rfl
    rw [← hexecutable, ← hhash hinit]
    rfl
  cases hcontrol : c.control op with
  | none => exact (hchanged (hread _ (c.stays hcontrol hinit hop))).elim
  | some k =>
    have hmove := c.moves hcontrol hop
    generalize ht' : (c.lazyBase i'.state).settings = t' at hmove
    cases hmove with
    | signed hsigned => exact .inl hsigned
    | accept _ hpending hexpiry hlive =>
      exact .inr (.inl ⟨op, _, _, rfl, hcontrol, hpending, hexpiry, hlive, hread _ ht'⟩)

theorem controlled_upgrade_iff (h : Returns (c.execute uploaded env (.upgrade newWasmHash)) i () i') :
    c.Controlled env (.upgrade newWasmHash) i i' ↔ c.KeepsCode env (.upgrade newWasmHash) i := by
  obtain ⟨-, rfl⟩ := (returns_upgrade uploaded).mp h
  constructor
  · rintro hcontrolled _ ⟨⟩
    by_cases hsame : i.executable = newWasmHash ∧ i.currentWasmHash = some newWasmHash
    · exact .inr hsame
    · obtain hsigned | ⟨op, _, _, hentry, -⟩ | ⟨op, hentry, -⟩ := hcontrolled fun heq =>
        hsame ⟨(congrArg Protected.executable heq).symm,
          (congrArg Protected.currentWasmHash heq).symm⟩
      · exact .inl hsigned
      · cases hentry
      · cases hentry
  · intro hkeeps hchanged
    obtain hsigned | ⟨hexecutable, hhash⟩ := hkeeps _ rfl
    · exact .inl hsigned
    · refine (hchanged ?_).elim
      unfold protectedOf
      rw [hexecutable, hhash]
      rfl

/-- A call leaves the creator in control exactly where it is not an upgrade of somebody else's. -/
theorem controlled_iff (hi : c.Founded i) (h : Returns (c.execute uploaded env call) i () i') :
    c.Controlled env call i i' ↔ c.KeepsCode env call i := by
  cases call with
  | entry op => exact ⟨fun _ => (nomatch ·, ·), fun _ => controlled_entry hi h⟩
  | upgrade newWasmHash => exact controlled_upgrade_iff h

end LazyContract

end ElcareHub.Collection

/-! ### The two contracts -/

namespace ElcareHub.LazyMint721

open Collection Call

def lazyContract (dep : Deployment) : LazyContract where
  Error := Error
  State := State
  Op := Op
  exec env op := op.exec dep env
  Fresh s := ∃ balances, s = .fresh balances
  lazyBase := State.lazyBase
  control := Op.control
  isInitialize := Op.isInitialize
  fresh h := by
    obtain ⟨balances, rfl⟩ := h
    rfl
  moves hop h := by
    rw [control_exec hop] at h
    obtain ⟨l, hl, rfl⟩ := h.zoom
    exact control_moves hl
  initializes hop h := by
    obtain ⟨hfresh, creator, hseat⟩ := initialize_seat hop h
    exact ⟨hfresh, congrArg Seat.initialized hseat⟩
  stays hop hinit h := (op_settings hop hinit).eq h

end ElcareHub.LazyMint721

namespace ElcareHub.LazyMint1155

open Collection Call

def lazyContract (dep : Deployment) : LazyContract where
  Error := Error
  State := State
  Op := Op
  exec env op := op.exec dep env
  Fresh s := ∃ balances, s = .fresh balances
  lazyBase := State.lazyBase
  control := Op.control
  isInitialize := Op.isInitialize
  fresh h := by
    obtain ⟨balances, rfl⟩ := h
    rfl
  moves hop h := by
    rw [control_exec hop] at h
    obtain ⟨l, hl, rfl⟩ := h.zoom
    exact control_moves hl
  initializes hop h := by
    obtain ⟨hfresh, creator, hseat⟩ := initialize_seat hop h
    exact ⟨hfresh, congrArg Seat.initialized hseat⟩
  stays hop hinit h := (op_settings hop hinit).eq h

end ElcareHub.LazyMint1155

namespace ElcareHub.Collection

open Call

def lazyContracts (dep dep' : Deployment) : List LazyContract :=
  [LazyMint721.lazyContract dep, LazyMint1155.lazyContract dep']

/-- **Control of the creator.** In both lazy contracts, whatever has been invoked since they were
deployed, an invocation that returns changes what is the creator's only with the signature of the creator
there is, by accepting a live proposal or by initialising the collection, exactly where it is not an
upgrade to other code that the creator has not signed. -/
theorem creator_control_iff (dep dep' : Deployment) (uploaded : Bytes → Bool) :
    ∀ c ∈ lazyContracts dep dep', ∀ (s : c.State), c.Fresh s →
      ∀ (wasm : Bytes) (calls : List (Env × Invocation c.Op)),
        let i := c.run uploaded wasm (.deploy wasm s) calls
        ∀ (env : Env) (call : Invocation c.Op) (i' : Installed c.State),
          Returns (c.execute uploaded env call) i () i' →
            (c.Controlled env call i i' ↔ c.KeepsCode env call i) :=
  fun _ _ _ hfresh wasm calls _ _ _ h =>
    LazyContract.controlled_iff (LazyContract.founded_run hfresh wasm calls) h

/-- A collection that account 1 has initialised. -/
def initialized721 :
    List (Env × Invocation (LazyMint721.lazyContract LazyMint721.collection).Op) :=
  [(.signedBy ⟨1⟩ 100,
    .entry (.initializeCollection ⟨1⟩ [7] "Collection" "SYM" 10 500 ⟨1⟩ ⟨9⟩ 0 "net"))]

/-- The collection at that point. -/
abbrev founded721 : Installed (LazyMint721.lazyContract LazyMint721.collection).State :=
  (LazyMint721.lazyContract LazyMint721.collection).run (fun _ => true) [1]
    (.deploy [1] (LazyMint721.State.fresh fun _ => 0)) initialized721

theorem creator_control_iff_initialized721 :
    ∃ i', Returns ((LazyMint721.lazyContract LazyMint721.collection).execute (fun _ => true)
        (.signedBy ⟨1⟩ 100) (.entry (.updateCreatorPubkey [8]))) founded721 () i' ∧
      (LazyMint721.lazyContract LazyMint721.collection).Controlled (.signedBy ⟨1⟩ 100)
        (.entry (.updateCreatorPubkey [8])) founded721 i' := by
  obtain ⟨⟨⟩, i', h, -⟩ := exists_returns
    (c := (LazyMint721.lazyContract LazyMint721.collection).execute (fun _ => true)
      (.signedBy ⟨1⟩ 100) (.entry (.updateCreatorPubkey [8])))
    (s := founded721) (p := fun _ _ => true) (by decide +kernel)
  refine ⟨i', h, (creator_control_iff LazyMint721.collection LazyMint721.collection (fun _ => true)
    (LazyMint721.lazyContract LazyMint721.collection) List.mem_cons_self _ ⟨_, rfl⟩ [1]
    initialized721 _ _ i' h).mpr ?_⟩
  exact (nomatch ·, ·)

/-- Account 9 replaces the code of the collection of account 1. -/
theorem stranger_upgrades :
    ¬ ∀ (env : Env) (call : Invocation LazyMint721.Op)
        (i' : Installed (LazyMint721.lazyContract LazyMint721.collection).State),
      Returns ((LazyMint721.lazyContract LazyMint721.collection).execute (fun _ => true) env call)
        founded721 () i' →
      (LazyMint721.lazyContract LazyMint721.collection).Controlled env call founded721 i' := by
  intro hclaim
  have hcontrolled := hclaim (.signedBy ⟨9⟩ 100) (.upgrade [2]) _
    ((returns_upgrade fun _ => true).mpr ⟨rfl, rfl⟩)
  obtain ⟨a, ha, hauth⟩ | ⟨op, _, _, hentry, -⟩ | ⟨op, hentry, -⟩ :=
    hcontrolled fun heq => absurd (congrArg Protected.executable heq) (by decide +kernel)
  · obtain rfl : (⟨1⟩ : Address) = a := by
      have hone : (LazyMint721.lazyContract LazyMint721.collection).creator founded721 = some ⟨1⟩ := by
        decide +kernel
      exact Option.mem_unique hone ha
    exact absurd hauth (by decide)
  · cases hentry
  · cases hentry

end ElcareHub.Collection
