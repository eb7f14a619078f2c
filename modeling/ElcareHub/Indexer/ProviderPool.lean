import Mathlib.Logic.Function.Basic
import ElcareHub.Lib.Run

/-!
# The pool of RPC providers

`rpc-provider-pool.ts` routes every call to the active provider and moves on to another one after
repeated errors. A provider becomes active in three ways: the first one at start-up, without a check; a
candidate of a failover, after its network passphrase has been compared; and the first one again after a
probe, which alone also compares its latest ledger with the best known one.

Everything else may happen while a task waits for an answer. What a waiting task will go on with is in
`tasks`: a selection that has found the active provider in cool-down falls back to that provider, even
if another one has become active meanwhile.
-/

namespace ElcareHub.Indexer.ProviderPool

open Function

/-- The providers in their order of priority, and the limits the environment sets. -/
structure Setup where
  count : Nat
  /-- what `getNetwork` of a provider reports -/
  passphrase : Nat → Option String
  /-- `STELLAR_NETWORK` -/
  network : Option String
  failoverCooldown : Nat
  staleLedgerThreshold : Nat
  maxConsecutiveErrors : Nat

structure ProviderHealth where
  consecutiveErrors : Nat
  cooldownSince : Option Nat
  networkPassphrase : Option String
  chainVerified : Bool

inductive Task
  /-- `selectHealthyProvider`, which waits for `getNetwork` of a candidate -/
  | select (active candidate : Nat) (rest : List Nat)
  /-- the call itself -/
  | call (provider : Nat)
  /-- `failover` after repeated errors, which waits for `getNetwork` of a candidate -/
  | failover (fromHealth candidate : Nat) (rest : List Nat)
  /-- `probePrimaryRecovery`, which waits for `getLatestLedger`, or for `getNetwork` -/
  | probe | recover

structure Pool where
  providers : Nat → ProviderHealth
  activeIndex : Nat
  expectedNetworkPassphrase : Option String
  globalLatestLedger : Nat
  tasks : List Task
  /-- what the latest probe of a provider found, and the best known ledger at that time -/
  probed : Nat → Option (Nat × Nat)
  /-- where the latest step has routed a call -/
  routed : Option Nat

namespace Pool

variable (setup : Setup) (pool : Pool)

def initial : Pool where
  providers _ := ⟨0, none, none, false⟩
  activeIndex := 0
  expectedNetworkPassphrase := setup.network
  globalLatestLedger := 0
  tasks := []
  probed _ := none
  routed := none

def isInCooldown (now i : Nat) : Bool :=
  match (pool.providers i).cooldownSince with
  | none => false
  | some since => now - since < setup.failoverCooldown

def modify (i : Nat) (f : ProviderHealth → ProviderHealth) : Pool :=
  { pool with providers := update pool.providers i (f (pool.providers i)) }

/-- Whether the provider may be switched to; `answered` says whether `getNetwork` is answered, if it is
asked at all. -/
def verifyChainCompatibility (i : Nat) (answered : Bool) : Bool × Pool :=
  let health := pool.providers i
  if health.chainVerified && health.networkPassphrase.isSome then
    (match pool.expectedNetworkPassphrase with
      | none => true
      | expected => health.networkPassphrase = expected, pool)
  else if !answered then (false, pool)
  else
    let passphrase := setup.passphrase i
    let seen := pool.modify i fun health => { health with networkPassphrase := passphrase }
    let verified := seen.modify i fun health => { health with chainVerified := true }
    match pool.expectedNetworkPassphrase with
    | none => (true, { verified with expectedNetworkPassphrase := passphrase })
    | expected => if passphrase ≠ expected then (false, seen) else (true, verified)

/-- The next provider of a loop that is not the one to leave, and not in cool-down. -/
def next (now leave : Nat) (indices : List Nat) : Option (Nat × List Nat) :=
  match indices.dropWhile fun i => i = leave || pool.isInCooldown setup now i with
  | [] => none
  | candidate :: rest => some (candidate, rest)

def wait (task : Task) : Pool := { pool with tasks := task :: pool.tasks, routed := none }

def route (provider : Nat) : Pool :=
  { pool with tasks := .call provider :: pool.tasks, routed := some provider }

/-- The loop of `selectHealthyProvider`, from one of its iterations on. -/
def selectFrom (now active : Nat) (indices : List Nat) : Pool :=
  match pool.next setup now pool.activeIndex indices with
  | some (candidate, rest) => pool.wait (.select active candidate rest)
  | none => pool.route active

def selectHealthyProvider (now : Nat) : Pool :=
  if pool.isInCooldown setup now pool.activeIndex then
    pool.selectFrom setup now pool.activeIndex (List.range setup.count)
  else pool.route pool.activeIndex

/-- The loop of `failover`, from one of its iterations on. -/
def failoverFrom (now fromHealth : Nat) (indices : List Nat) : Pool :=
  match pool.next setup now fromHealth indices with
  | some (candidate, rest) => pool.wait (.failover fromHealth candidate rest)
  | none => pool

def coolDown (now i : Nat) : Pool := pool.modify i fun health => { health with cooldownSince := some now }

/-- A task goes on with an answer, or without one. -/
def resume (now : Nat) (answered : Bool) (ledger : Nat) : Task → Pool
  | .select active candidate rest =>
    let (compatible, pool) := pool.verifyChainCompatibility setup candidate answered
    if compatible then ({ pool.coolDown now active with activeIndex := candidate }).route candidate
    else pool.selectFrom setup now active rest
  | .call provider =>
    if answered then pool.modify provider fun health => { health with consecutiveErrors := 0 }
    else
      let pool := pool.modify provider fun health =>
        { health with consecutiveErrors := health.consecutiveErrors + 1 }
      if setup.maxConsecutiveErrors ≤ (pool.providers provider).consecutiveErrors then
        (pool.coolDown now provider).failoverFrom setup now provider (List.range setup.count)
      else pool
  | .failover fromHealth candidate rest =>
    let (compatible, pool) := pool.verifyChainCompatibility setup candidate answered
    if compatible then { pool with activeIndex := candidate }
    else pool.failoverFrom setup now fromHealth rest
  | .probe =>
    let pool' := { pool with
      probed := update pool.probed 0 (some (ledger, pool.globalLatestLedger)) }
    if !answered then pool
    else if ledger + setup.staleLedgerThreshold < pool.globalLatestLedger then pool'
    else pool'.wait .recover
  | .recover =>
    let (compatible, pool) := pool.verifyChainCompatibility setup 0 answered
    if compatible then
      { pool.modify 0 fun health => { health with consecutiveErrors := 0, cooldownSince := none } with
        activeIndex := 0 }
    else pool

def updateLatestLedger (ledger : Nat) : Pool :=
  { pool with globalLatestLedger := max ledger pool.globalLatestLedger }

inductive Act
  | call (now : Nat)
  | tick (now : Nat)
  | ledger (ledger : Nat)
  | resume (now : Nat) (answered : Bool) (ledger : Nat) (task : Task)

inductive Step : Act → Pool → Prop
  /-- a call, or one more attempt of a call -/
  | call (now : Nat) : Step (.call now) (pool.selectHealthyProvider setup now)
  /-- `probePrimaryRecovery` -/
  | tick (now : Nat) (hactive : pool.activeIndex ≠ 0) (hcooldown : pool.isInCooldown setup now 0 = false) :
    Step (.tick now) (pool.wait .probe)
  | ledger (ledger : Nat) : Step (.ledger ledger) { pool.updateLatestLedger ledger with routed := none }
  | resume {now : Nat} {answered : Bool} {ledger : Nat} {task : Task} (rest : List Task)
      (h : pool.tasks.Perm (task :: rest)) :
    Step (.resume now answered ledger task)
      ({ pool with tasks := rest, routed := none }.resume setup now answered ledger task)

/-- At its latest probe the provider was not too far behind the best known ledger. -/
def Fresh (i : Nat) : Prop :=
  ∀ ledger best, pool.probed i = some (ledger, best) → best ≤ ledger + setup.staleLedgerThreshold

/-- The provider is on the expected network, and fresh. -/
def Fit (i : Nat) : Prop :=
  (∀ expected, pool.expectedNetworkPassphrase = some expected → setup.passphrase i = some expected) ∧
    pool.Fresh setup i

/-- What is not checked: the provider that is about to become active is fresh; and a probe that finds
the first provider behind is answered while nothing uses that provider. -/
def Guarded : Act → Prop
  | .resume _ _ _ (.select _ candidate _) | .resume _ _ _ (.failover _ candidate _) =>
    pool.Fresh setup candidate
  | .resume _ _ _ .recover => pool.Fresh setup 0
  | .resume _ true ledger .probe =>
    pool.globalLatestLedger ≤ ledger + setup.staleLedgerThreshold ∨
      pool.activeIndex ≠ 0 ∧ ∀ candidate rest, .select 0 candidate rest ∉ pool.tasks
  | _ => True

/-! ### Every provider in use is fit -/

/-- What the pool relies on. -/
structure Sound (expected : String) : Prop where
  expected : pool.expectedNetworkPassphrase = some expected
  seen : ∀ i, (pool.providers i).networkPassphrase = none ∨
    (pool.providers i).networkPassphrase = setup.passphrase i
  active : pool.Fit setup pool.activeIndex
  fallback : ∀ active candidate rest, .select active candidate rest ∈ pool.tasks → pool.Fit setup active
  routed : ∀ i, pool.routed = some i → pool.Fit setup i

variable {setup pool} {expected : String} {i now : Nat} {answered : Bool}

section Sound

variable (h : pool.Sound setup expected)

include h

theorem Sound.fit (hpassphrase : setup.passphrase i = some expected)
    (hfresh : pool.Fresh setup i) : pool.Fit setup i :=
  ⟨fun _ hexpected => Option.mem_unique h.expected hexpected ▸ hpassphrase, hfresh⟩

theorem Sound.fit_of_probed {pool' : Pool} (h' : pool'.Sound setup expected)
    (hprobed : pool'.probed = pool.probed) (hfit : pool.Fit setup i) : pool'.Fit setup i :=
  h'.fit (hfit.1 expected h.expected) fun ledger best hi => hfit.2 ledger best (hprobed ▸ hi)

/-- The health of the providers may change in every other respect. -/
theorem Sound.modify
    (hf : (f (pool.providers i)).networkPassphrase = (pool.providers i).networkPassphrase ∨
      (f (pool.providers i)).networkPassphrase = setup.passphrase i) :
    (pool.modify i f).Sound setup expected where
  expected := h.expected
  seen j := by
    rcases eq_or_ne j i with rfl | hne
    · simp only [Pool.modify, Function.update_self]
      rcases hf with hf | hf
      · exact hf ▸ h.seen j
      · exact .inr hf
    · simp only [Pool.modify, Function.update_of_ne hne]
      exact h.seen j
  active := h.active
  fallback := h.fallback
  routed := h.routed

theorem Sound.verify (i : Nat) (answered : Bool) :
    (pool.verifyChainCompatibility setup i answered).2.Sound setup expected ∧
      ((pool.verifyChainCompatibility setup i answered).1 = true → setup.passphrase i = some expected) ∧
      (pool.verifyChainCompatibility setup i answered).2.probed = pool.probed := by
  have hseen := h.modify (f := fun health =>
    { health with networkPassphrase := setup.passphrase i }) (.inr rfl)
  have hverified := hseen.modify (i := i) (f := fun health => { health with chainVerified := true }) (.inl rfl)
  unfold verifyChainCompatibility
  rw [h.expected]
  dsimp only
  split
  · rename_i hfast
    refine ⟨h, fun hsame => ?_, rfl⟩
    -- what has been verified is what the provider reports
    rcases h.seen i with hnone | hreported
    · simp [hnone] at hfast
    · exact hreported ▸ of_decide_eq_true hsame
  · split
    · exact ⟨h, nofun, rfl⟩
    · split
      · exact ⟨hseen, nofun, rfl⟩
      · rename_i hsame
        exact ⟨hverified, fun _ => not_not.mp hsame, rfl⟩

theorem Sound.wait
    (htask : ∀ active candidate rest, task = .select active candidate rest → pool.Fit setup active) :
    (pool.wait task).Sound setup expected where
  expected := h.expected
  seen := h.seen
  active := h.active
  fallback active candidate rest hmem := by
    rcases List.mem_cons.mp hmem with heq | hmem
    · exact htask active candidate rest heq.symm
    · exact h.fallback active candidate rest hmem
  routed := nofun

theorem Sound.route (hfit : pool.Fit setup i) : (pool.route i).Sound setup expected where
  expected := h.expected
  seen := h.seen
  active := h.active
  fallback active candidate rest hmem := by
    rcases List.mem_cons.mp hmem with heq | hmem
    · nomatch heq
    · exact h.fallback active candidate rest hmem
  routed _ hrouted := Option.some.inj hrouted ▸ hfit

theorem Sound.activate (hfit : pool.Fit setup i) :
    { pool with activeIndex := i }.Sound setup expected :=
  { h with active := hfit }

theorem Sound.selectFrom (hfit : pool.Fit setup i) (now : Nat)
    (indices : List Nat) : (pool.selectFrom setup now i indices).Sound setup expected := by
  unfold Pool.selectFrom
  split
  · refine h.wait fun active candidate rest heq => ?_
    injection heq with hactive
    exact hactive ▸ hfit
  · exact h.route hfit

theorem Sound.failoverFrom (now : Nat) (indices : List Nat) :
    (pool.failoverFrom setup now i indices).Sound setup expected := by
  unfold Pool.failoverFrom
  split
  · exact h.wait nofun
  · exact h

/-- A probe that finds the first provider behind does not concern the providers in use. -/
theorem Sound.probe
    (hguard : pool.globalLatestLedger ≤ ledger + setup.staleLedgerThreshold ∨
      pool.activeIndex ≠ 0 ∧ ∀ candidate rest, .select 0 candidate rest ∉ pool.tasks)
    (hrouted : pool.routed = none) :
    { pool with probed := update pool.probed 0 (some (ledger, pool.globalLatestLedger)) }.Sound
      setup expected := by
  have hfit (i : Nat) (hi : pool.Fit setup i)
      (hfresh : pool.globalLatestLedger ≤ ledger + setup.staleLedgerThreshold ∨ i ≠ 0) :
      { pool with
        probed := update pool.probed 0 (some (ledger, pool.globalLatestLedger)) }.Fit setup i := by
    refine ⟨hi.1, fun found best hprobed => ?_⟩
    rcases eq_or_ne i 0 with rfl | hne
    · simp only [Function.update_self, Option.some.injEq, Prod.mk.injEq] at hprobed
      exact hprobed.1 ▸ hprobed.2 ▸ hfresh.resolve_right fun h => h rfl
    · exact hi.2 found best (by simpa only [Function.update_of_ne hne] using hprobed)
  exact {
    expected := h.expected
    seen := h.seen
    active := hfit _ h.active (hguard.imp_right And.left)
    fallback := fun active candidate rest hmem => hfit _ (h.fallback active candidate rest hmem)
      (hguard.imp_right fun hidle hzero => hidle.2 candidate rest (hzero ▸ hmem))
    routed := fun i hi => nomatch hrouted.symm.trans hi }

/-- A provider that has been verified and was fresh is fit. -/
theorem Sound.verified (hfresh : pool.Fresh setup i)
    (hverified : (pool.verifyChainCompatibility setup i answered).1 = true) :
    (pool.verifyChainCompatibility setup i answered).2.Fit setup i := by
  obtain ⟨hsound, hpassphrase, hprobed⟩ := h.verify i answered
  exact h.fit_of_probed hsound hprobed (h.fit (hpassphrase hverified) hfresh)

theorem Sound.resume (hrouted : pool.routed = none)
    (hguard : pool.Guarded setup (.resume now answered ledger task))
    (hfallback : ∀ active candidate rest, task = .select active candidate rest → pool.Fit setup active) :
    (pool.resume setup now answered ledger task).Sound setup expected := by
  cases task with
  | select active candidate rest =>
    obtain ⟨hsound, -, hprobed⟩ := h.verify candidate answered
    dsimp only [Pool.resume]
    split
    · rename_i hcompatible
      have hfit := h.verified hguard hcompatible
      exact ((hsound.modify (.inl rfl)).activate hfit).route hfit
    · exact hsound.selectFrom (h.fit_of_probed hsound hprobed (hfallback _ _ _ rfl)) now rest
  | call provider =>
    dsimp only [Pool.resume]
    split
    · exact h.modify (.inl rfl)
    · split
      · exact ((h.modify (.inl rfl)).modify (.inl rfl)).failoverFrom now _
      · exact h.modify (.inl rfl)
  | failover fromHealth candidate rest =>
    obtain ⟨hsound, -⟩ := h.verify candidate answered
    dsimp only [Pool.resume]
    split
    · rename_i hcompatible
      exact hsound.activate (h.verified hguard hcompatible)
    · exact hsound.failoverFrom now rest
  | probe =>
    dsimp only [Pool.resume]
    cases answered with
    | false => exact h
    | true =>
      have hprobe := h.probe hguard hrouted
      split
      · contradiction
      · split
        · exact hprobe
        · exact hprobe.wait nofun
  | recover =>
    obtain ⟨hsound, -⟩ := h.verify 0 answered
    dsimp only [Pool.resume]
    split
    · rename_i hcompatible
      exact (hsound.modify (.inl rfl)).activate (h.verified hguard hcompatible)
    · exact hsound

theorem Sound.step (hguard : pool.Guarded setup act)
    (hstep : pool.Step setup act pool') : pool'.Sound setup expected := by
  cases hstep with
  | call now =>
    unfold selectHealthyProvider
    split
    · exact h.selectFrom h.active now _
    · exact h.route h.active
  | tick now hactive hcooldown => exact h.wait nofun
  | ledger ledger => exact { h with routed := nofun }
  | @resume now answered ledger task rest hperm =>
    have hrest : { pool with tasks := rest, routed := none }.Sound setup expected :=
      { h with
        fallback := fun active candidate more hmem =>
          h.fallback active candidate more (hperm.mem_iff.mpr (List.mem_cons_of_mem _ hmem))
        routed := nofun }
    refine hrest.resume rfl ?_ fun active candidate more htask =>
      h.fallback active candidate more (hperm.mem_iff.mpr (htask ▸ List.mem_cons_self))
    cases task with
    | probe =>
      cases answered with
      | false => trivial
      | true =>
        exact hguard.imp_right fun hidle => ⟨hidle.1, fun candidate more hmem =>
          hidle.2 candidate more (hperm.mem_iff.mpr (List.mem_cons_of_mem _ hmem))⟩
    | _ => exact hguard

end Sound

/-- **One fresh chain.** Where the network is configured and the first provider is on it, in every run
whose steps are guarded each call is routed to a provider that is on the network and was fresh when it
was last probed. -/
theorem routed_fit (setup : Setup) (hnetwork : setup.network.isSome)
    (hfirst : setup.passphrase 0 = setup.network) (pool : Pool)
    (hrun : Run.Reaches (Step setup) (Guarded setup) (initial setup) pool) :
    ∀ i, pool.routed = some i → pool.Fit setup i := by
  obtain ⟨expected, hexpected⟩ := Option.isSome_iff_exists.mp hnetwork
  refine (hrun.invariant (I := fun pool : Pool => pool.Sound setup expected) ?_
    fun _ _ _ h hguard hstep => h.step hguard hstep).routed
  exact {
    expected := hexpected
    seen := fun _ => .inl rfl
    active := ⟨fun _ h => hfirst.trans h, nofun⟩
    fallback := nofun
    routed := nofun }

/-- Two providers for the network `"net"`, the first of which may be on another one. -/
def pair (first : String) : Setup :=
  ⟨2, fun i => some (if i = 0 then first else "net"), some "net", 60, 50, 1⟩

theorem routed_fit_first :
    ((initial (pair "net")).selectHealthyProvider (pair "net") 0).routed = some 0 ∧
      ((initial (pair "net")).selectHealthyProvider (pair "net") 0).Fit (pair "net") 0 :=
  ⟨rfl, routed_fit (pair "net") rfl rfl _ (Run.Reaches.refl.step (i := .call 0) trivial (.call 0)) 0 rfl⟩

/-- At start-up a call goes to a provider of another network. And a failover goes to a provider that
the latest probe has found behind: the first provider fails, is found far behind, and is next when the
second one fails. -/
theorem unfit_routed :
    (∃ pool, Run.Reaches (Step (pair "other")) (fun _ _ => True) (initial (pair "other")) pool ∧
      pool.routed = some 0 ∧ ¬ pool.Fit (pair "other") 0) ∧
    ∃ pool, Run.Reaches (Step (pair "net")) (fun _ _ => True) (initial (pair "net")) pool ∧
      pool.routed = some 0 ∧ ¬ pool.Fit (pair "net") 0 := by
  constructor
  · refine ⟨_, Run.Reaches.refl.step trivial (.call 0), rfl, fun hfit => ?_⟩
    exact absurd (hfit.1 "net" rfl) (by decide)
  · have hfailed := ((Run.Reaches.refl : Run.Reaches (Step (pair "net")) (fun _ _ => True)
      (initial (pair "net")) _).step trivial (.call 0)).step (i := .resume 0 false 0 (.call 0)) trivial
      (.resume [] (.refl _))
    have hsecond := hfailed.step (i := .resume 0 true 0 (.failover 0 1 [])) trivial (.resume [] (.refl _))
    have hbehind := ((hsecond.step trivial (.ledger 1000)).step trivial (.tick 100 (by decide) rfl)).step
      (i := .resume 100 true 10 .probe) trivial (.resume [] (.refl _))
    have hback := ((hbehind.step trivial (.call 100)).step (i := .resume 100 false 0 (.call 1)) trivial
      (.resume [] (.refl _))).step (i := .resume 100 true 0 (.failover 1 0 [1])) trivial
      (.resume [] (.refl _))
    refine ⟨_, hback.step trivial (.call 101), rfl, fun hfit => ?_⟩
    exact absurd (hfit.2 10 1000 rfl) (by decide)

end Pool

end ElcareHub.Indexer.ProviderPool
