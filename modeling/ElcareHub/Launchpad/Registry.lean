import ElcareHub.Launchpad
import ElcareHub.Lib.Catalogue

/-!
# What the launchpad does to its registry

The registry is a catalogue of records, entered under their number, their number among those of their
creator, and their address. `Books` is the registry together with what decides how it may change (the
addresses recorded for salts, the addresses that are taken, and what an earlier version has left) and
with the balances the fees are paid from. Every
invocation that returns makes one of five moves on the books (`op_moves`). Three of them treat the three
keys alike; a royalty update and the migration of what an earlier version has left do not.
-/

namespace ElcareHub.Launchpad

open Call hiding update
open Collection Catalogue Function

set_option synthInstance.maxSize 100000000

variable {op : Op} {n : Nat}

/-! ### Deployments -/

/-- The flat fee of a deployment. -/
def State.fee (s : State) : Int := s.deployFee.getD 0

/-- What a deployment costs, and whom. -/
structure Charge where
  creator : Address
  salt : Bytes32
  currency : Address
  receiver : Address
  fee : Int

/-- The charge is paid; a fee of zero is not transferred. -/
def Charge.settle (c : Charge) (b : Address × Address → Int) : Address × Address → Int :=
  if 0 < c.fee then moveBalance b c.currency c.creator c.receiver c.fee else b

/-- What a deployment costs in a state in which `receiver` receives the fees. -/
def State.chargeFor (s : State) (p : Plan) (receiver : Address) : Charge :=
  ⟨p.creator, p.salt, p.currency, receiver, s.fee⟩

/-- The fee of a deployment has been collected. -/
def State.charge (s : State) (p : Plan) (collection receiver : Address) : State :=
  { s with
    balances := (s.chargeFor p receiver).settle s.balances
    events := if 0 < s.fee then
      s.events ++ [.deploymentFeeCollected p.creator receiver s.fee p.currency collection p.kind.tag
        p.platformFeeBps]
      else s.events }

/-- A contract is deployed at `address` and recorded for the salt. -/
def State.occupy (s : State) (secureSalt : Bytes) (address : Address) : State :=
  { s with
    contracts := update s.contracts address true
    saltUsed := update s.saltUsed secureSalt true
    saltAddress := update s.saltAddress secureSalt (some address) }

/-- A record is entered in the registry. -/
def State.enter (s : State) (rec : CollectionRecord) : State :=
  { s with
    collectionByAddress := update s.collectionByAddress rec.address (some rec)
    collectionByIndex := update s.collectionByIndex s.collectionCount (some rec)
    creatorCollectionByIndex := update s.creatorCollectionByIndex
      (rec.creator, s.creatorCollectionCount rec.creator) (some rec)
    creatorCollectionCount := update s.creatorCollectionCount rec.creator
      (s.creatorCollectionCount rec.creator + 1)
    collectionCount := s.collectionCount + 1 }

section Specs

variable {host : Host} {env : Env} {s s' : State} {u : Unit} {p : Plan} {a r : Address}

theorem returns_transferTokens :
    Returns (transferTokens env token src dst amount) s u s' ↔
      ¬ TransferRefused env s.balances token src dst amount ∧
        { s with balances := moveBalance s.balances token src dst amount } = s' := by
  rw [transferTokens, returns_attempt]
  split <;> simp [*]

/-- Collecting the fee charges the creator once, and not at all where there is none. -/
theorem returns_collectDeployFee :
    Returns (collectDeployFee env p.creator p.currency c p.kind.tag p.platformFeeBps) s r s' ↔
      s.feeReceiver = some r ∧
        (0 < s.fee → ¬ TransferRefused env s.balances p.currency p.creator r s.fee) ∧
        s.charge p c r = s' := by
  by_cases hfee : 0 < s.deployFee.getD 0
  · have hle : ¬ s.deployFee.getD 0 ≤ 0 := by omega
    simp [collectDeployFee, getFeeConfig, returns_transferTokens, State.charge,
      State.chargeFor, Charge.settle, State.fee, hfee, hle]
  · have hle : s.deployFee.getD 0 ≤ 0 := by omega
    simp [collectDeployFee, getFeeConfig, State.charge, State.chargeFor, Charge.settle,
      State.fee, hfee, hle]

theorem returns_recordCollection : Returns (recordCollection rec) s u s' ↔
    s.creatorCollectionCount rec.creator < u64Max ∧ s.collectionCount < u64Max ∧ s.enter rec = s' := by
  simp [recordCollection, addUpTo, State.enter, Nat.add_one_le_iff]

/-- The state after a deployment with a salt that has not been used. -/
def Plan.deployed (host : Host) (env : Env) (p : Plan) (receiver : Address) (s : State) : State :=
  let address := host.deployedAddress (p.secureSalt host)
  let s1 := ((s.charge p address receiver).occupy (p.secureSalt host) address).enter
    (p.record address env.sequence)
  { s1 with events := s1.events ++ [.deploy p.kind.tag p.creator address] }

/-- The errors the validation of a deployment finds. -/
def Plan.problems (host : Host) (s : State) (p : Plan) : List Error :=
  p.validate s (p.secureSalt host) (s.wasm p.kind).isSome

/-- The host deploys the collection, which lets itself be initialised, and the counters have room. -/
structure Deployable (host : Host) (s : State) (p : Plan) (receiver : Address) : Prop where
  uploaded : ∃ wasm, s.wasm p.kind = some wasm ∧ host.uploaded wasm = true
  free : s.contracts (host.deployedAddress (p.secureSalt host)) = false
  initializes : p.initializes receiver = true
  creatorRoom : s.creatorCollectionCount p.creator < u64Max
  room : s.collectionCount < u64Max

theorem returns_deployNew : Returns (deployNew host env p) s a s' ↔
    p.problems host s = [] ∧ ∃ receiver, s.feeReceiver = some receiver ∧
      (0 < s.fee → ¬ TransferRefused env s.balances p.currency p.creator receiver s.fee) ∧
      Deployable host s p receiver ∧ host.deployedAddress (p.secureSalt host) = a ∧
      p.deployed host env receiver s = s' := by
  simp [deployNew, returns_onSome, returns_collectDeployFee, deployV2, recordSaltDeployment,
    returns_recordCollection, Plan.problems]
  refine fun _ => ⟨?_, ?_⟩
  · rintro ⟨wasm, hwasm, receiver, ⟨hreceiver, htoken⟩, ⟨hup, hfree⟩, hinit, ⟨hc, hr⟩, rfl, rfl⟩
    exact ⟨receiver, hreceiver, htoken, ⟨⟨wasm, hwasm, hup⟩, hfree, hinit, hc, hr⟩, rfl, rfl⟩
  · rintro ⟨receiver, hreceiver, htoken, ⟨⟨wasm, hwasm, hup⟩, hfree, hinit, hc, hr⟩, rfl, rfl⟩
    exact ⟨wasm, hwasm, receiver, ⟨hreceiver, htoken⟩, ⟨hup, hfree⟩, hinit, ⟨hc, hr⟩, rfl, rfl⟩

/-- **Deployments.** A salt that has been used leads to what was deployed for it; any other to a new
collection. -/
theorem returns_deployCollection (h : Returns (deployCollection host env p) s a s') :
    env.auth p.creator = true ∧ (s.saltAddress (p.secureSalt host) = some a ∧
          { s with events := s.events ++ [.deployIdempotent p.creator a] } = s' ∨
        s.saltAddress (p.secureSalt host) = none ∧
          host.deployedAddress (p.secureSalt host) = a ∧ s.contracts a = false ∧
            ∃ receiver, s.feeReceiver = some receiver ∧ p.deployed host env receiver s = s') := by
  obtain ⟨hauth, h⟩ := h.check
  obtain ⟨existing, s1, hview, h⟩ := h.bind
  obtain ⟨hexisting, rfl⟩ := hview.read
  refine ⟨by simpa using hauth, ?_⟩
  cases existing with
  | some existing =>
    obtain ⟨rfl, rfl⟩ := h.pure
    exact .inl ⟨hexisting, rfl⟩
  | none =>
    obtain ⟨-, receiver, hreceiver, -, hdeployable, rfl, rfl⟩ := returns_deployNew.mp h
    exact .inr ⟨hexisting, rfl, hdeployable.free, receiver, hreceiver, rfl⟩

end Specs

/-- The deploy operations run the common body. -/
theorem plan_exec (hop : op.plan = some p) :
    op.exec host env = (deployCollection host env p).discard := by
  cases op <;> cases hop <;> rfl

/-! ### Books -/

/-- The registry as a catalogue. -/
abbrev State.views (s : State) : Views CollectionRecord Address Address where
  count := s.collectionCount
  cell := s.collectionByIndex
  groupCount := s.creatorCollectionCount
  groupCell := s.creatorCollectionByIndex
  byKey := s.collectionByAddress

structure Books where
  views : Views CollectionRecord Address Address
  saltAddress : Bytes → Option Address
  contracts : Address → Bool
  legacy : Option (List CollectionRecord)
  balances : Address × Address → Int

abbrev State.books (s : State) : Books :=
  ⟨s.views, s.saltAddress, s.contracts, s.allCollectionsLegacy, s.balances⟩

/-- A collection is deployed, paid for and entered. -/
def Books.deploy (t : Books) (secureSalt : Bytes) (rec : CollectionRecord) (c : Charge) : Books where
  views := t.views.enter CollectionRecord.address CollectionRecord.creator rec
  saltAddress := update t.saltAddress secureSalt (some rec.address)
  contracts := update t.contracts rec.address true
  legacy := t.legacy
  balances := c.settle t.balances

/-- A royalty update writes the copy under the address. -/
def Books.setRoyalty (t : Books) (rec : CollectionRecord) (bps : Nat) (receiver : Address)
    (address : Address) : Books :=
  { t with
    views :=
      { t.views with
        byKey := update t.views.byKey address
          (some { rec with royaltyBps := bps, royaltyReceiver := receiver }) } }

/-- Records are written to the cells from `idx` on. -/
def fillCells (cell : Nat → Option CollectionRecord) :
    (idx : Nat) → List CollectionRecord → Nat → Option CollectionRecord
  | _, [] => cell
  | idx, rec :: records => fillCells (update cell idx (some rec)) (idx + 1) records

/-- The migration appends the legacy records to the global index. -/
def Books.migrate (t : Books) (records : List CollectionRecord) : Books :=
  { t with
    views :=
      { t.views with
        count := t.views.count + records.length
        cell := fillCells t.views.cell t.views.count records }
    legacy := none }

/-- How many steps of the migration an operation runs at most. -/
def Op.budget : Op → Nat
  | .migrate _ => u32Max
  | .migrateStep _ maxItems => maxItems
  | _ => 0

/-- What an invocation that returns does to the books. -/
inductive Books.Move (host : Host) (t : Books) : Op → Books → Prop
  | idle {op : Op} (hop : op.plan = none) : Books.Move host t op t
  | retry {op : Op} {p : Plan} {a : Address} (hop : op.plan = some p)
      (hused : t.saltAddress (p.secureSalt host) = some a) : Books.Move host t op t
  | deploy {op : Op} {p : Plan} (ledger : Nat) (c : Charge) (hop : op.plan = some p)
      (hnew : t.saltAddress (p.secureSalt host) = none)
      (hfree : t.contracts (host.deployedAddress (p.secureSalt host)) = false) :
      Books.Move host t op (t.deploy (p.secureSalt host)
        (p.record (host.deployedAddress (p.secureSalt host)) ledger) c)
  | royalty {a : Address} {rec : CollectionRecord} (bps : Nat) (receiver : Address)
      (hrec : t.views.byKey a = some rec) :
      Books.Move host t (.updateCollectionRoyalties a bps receiver) (t.setRoyalty rec bps receiver a)
  | migrate {op : Op} {records : List CollectionRecord} (hbudget : 0 < op.budget)
      (hlegacy : t.legacy = some records) : Books.Move host t op (t.migrate records)

section Frames

variable {host : Host} {env : Env}

instance : Preserves State.books (requirePauseAuthority env) := by
  refine .next fun stored => ?_
  cases stored <;> infer_instance

end Frames

/-- The operations that leave the books alone, in any state. -/
def Op.idle : Op → Bool
  | .migrate _ | .migrateStep _ _ | .updateCollectionRoyalties .. => false
  | op => op.plan.isNone

section Moves

variable {host : Host} {env : Env} {s s' : State} {u : Unit}

theorem op_idle (hop : op.idle = true) : Preserves State.books (op.exec host env) := by
  -- the frame of an idle operation is found by inference, and no other one is idle
  cases op <;> first | cases hop; done | (unfold Op.exec; infer_instance)

theorem books_deployed (p : Plan) (receiver : Address) (s : State) :
    (p.deployed host env receiver s).books = s.books.deploy (p.secureSalt host)
      (p.record (host.deployedAddress (p.secureSalt host)) env.sequence) (s.chargeFor p receiver) :=
  rfl

theorem deploy_moves (hop : op.plan = some p) (h : Returns (deployCollection host env p) s a s') :
    s.books.Move host op s'.books := by
  obtain ⟨-, ⟨hused, rfl⟩ | ⟨hnew, rfl, hfree, receiver, -, rfl⟩⟩ := returns_deployCollection h
  · exact .retry hop hused
  · rw [books_deployed]
    exact .deploy env.sequence _ hop hnew hfree

theorem royalty_moves (h : Returns (updateCollectionRoyalties env a bps receiver) s u s') :
    s.books.Move host (.updateCollectionRoyalties a bps receiver) s'.books := by
  obtain ⟨admin, s1, hadmin, h⟩ := h.bind
  obtain rfl : s = s1 := (Preserves.eq (f := id) hadmin).symm
  obtain ⟨-, h⟩ := h.check
  obtain ⟨rec, hrec, h⟩ := h.found
  obtain rfl := h.update
  exact .royalty bps receiver hrec

theorem returns_insertLegacy
    (h : Returns (insertLegacy idx records) s u s') :
    { s with collectionByIndex := fillCells s.collectionByIndex idx records } = s' := by
  induction records generalizing idx s with
  | nil => exact (h.pure).2
  | cons rec records ih =>
    obtain ⟨-, h⟩ := h.check
    exact ih h

/-- Phase 0 appends what an earlier version has left, if anything. -/
theorem migrateLegacy_books (h : Returns migrateLegacy s u s') :
    s'.books = s.books ∨ ∃ records, s.allCollectionsLegacy = some records ∧
      s'.books = s.books.migrate records := by
  obtain ⟨legacy, s1, hview, h⟩ := h.bind
  obtain ⟨hlegacy, rfl⟩ := hview.read
  cases legacy with
  | none =>
    obtain rfl := (h.pure).2
    exact .inl rfl
  | some records =>
    replace h := h.write
    obtain ⟨s2, hinsert, h⟩ := h.seq
    obtain rfl := returns_insertLegacy hinsert
    obtain ⟨total, s3, htotal, h⟩ := h.bind
    obtain ⟨rfl, rfl⟩ := returns_addUpTo htotal
    obtain rfl := h.update
    exact .inr ⟨records, hlegacy, rfl⟩

/-- The loop runs phase 0 at most once. -/
theorem migrationLoop_books (h : Returns (migrationLoop budget phase) s n s') :
    s'.books = s.books ∨ 0 < budget ∧ ∃ records, s.allCollectionsLegacy = some records ∧
      s'.books = s.books.migrate records := by
  match budget, phase with
  | 0, phase => exact .inl (congrArg State.books (h.pure).2.symm)
  | budget + 1, phase + 1 => exact .inl (congrArg State.books (h.pure).2.symm)
  | budget + 1, 0 =>
    obtain ⟨s1, hlegacy, h⟩ := h.seq
    obtain rfl : s1 = s' := by
      cases budget <;> exact (h.pure).2
    exact (migrateLegacy_books hlegacy).imp_right fun hmigrated => ⟨Nat.succ_pos _, hmigrated⟩

theorem migrateStep_moves (hplan : op.plan = none)
    (h : Returns (migrateStep env admin op.budget) s n s') : s.books.Move host op s'.books := by
  obtain ⟨s1, hpending, h⟩ := h.seq
  have hsame : Preserves id (requirePendingMigration env admin) := by
    unfold requirePendingMigration
    infer_instance
  obtain rfl : s = s1 := (hsame.eq hpending).symm
  replace h := h.view
  obtain ⟨phase, s2, hloop, h⟩ := h.bind
  have hlast : s'.books = s2.books := by
    split at h
    · exact h.last rfl
    · exact h.last rfl
  rw [hlast]
  obtain hsame | ⟨hbudget, records, hlegacy, hmigrated⟩ := migrationLoop_books hloop
  · rw [hsame]
    exact .idle hplan
  · rw [hmigrated]
    exact .migrate hbudget hlegacy

/-- **Every invocation that returns makes its move on the books.** -/
theorem op_moves (h : Returns (op.exec host env) s u s') : s.books.Move host op s'.books := by
  cases hplan : op.plan with
  | some p =>
    rw [plan_exec hplan] at h
    obtain ⟨a, h⟩ := h.discard
    exact deploy_moves hplan h
  | none =>
    by_cases hidle : op.idle = true
    · rw [(op_idle hidle).eq h]
      exact .idle hplan
    · cases op with
      | updateCollectionRoyalties => exact royalty_moves h
      | migrateStep =>
        obtain ⟨n, h⟩ := h.discard
        exact migrateStep_moves rfl h
      | migrate =>
        obtain ⟨n, h⟩ := h.discard
        exact migrateStep_moves rfl h
      | _ => first | exact absurd rfl hidle | cases hplan

/-- **Steps.** A call is accepted and makes its move, or leaves everything as it is. -/
theorem step_moves (host : Host) (s : State) (env : Env) (op : Op) :
    Returns (op.exec host env) s () (step host s (env, op)) ∧
        s.books.Move host op (step host s (env, op)).books ∨
      (∀ s', ¬ Returns (op.exec host env) s () s') ∧ step host s (env, op) = s := by
  unfold step
  cases hexec : op.exec host env s with
  | ok r => exact .inl ⟨hexec, op_moves hexec⟩
  | error e =>
    refine .inr ⟨fun s' h => ?_, rfl⟩
    cases hexec.symm.trans h

end Moves

end ElcareHub.Launchpad
