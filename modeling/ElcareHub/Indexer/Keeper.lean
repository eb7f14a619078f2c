import Mathlib.Algebra.Order.BigOperators.Group.List
import Mathlib.Algebra.Order.Ring.Nat
import Mathlib.Logic.Function.Basic
import ElcareHub.Lib.Run

/-!
# The keeper

The keeper sends maintenance transactions (`keeper/runner.ts`, `keeper/tx-pipeline.ts`) and keeps a row
of `KeeperAction` for every target (`keeper/idempotency.ts`). A step goes from one awaited call to the
next, and a crash may come between any two.

The pipeline reports a fee of 0 for every transaction, and the budget is checked when a transaction has
succeeded. So it never binds; what bounds the fees of a day is the number of transactions that the cycles
of the day can send (`Keeper.credit`).

The row becomes `Submitted`, and counts an attempt, when the transaction has already succeeded. Before
that nothing durable says that a transaction is under way, and an attempt that fails is not counted.
-/

namespace ElcareHub.Indexer.Keeper

open Function

inductive TargetType
  | expireListing | finalizeAuction | reclaimOffer | renewStorage
  deriving DecidableEq

structure Target where
  targetType : TargetType
  targetId : Nat
  deriving DecidableEq

inductive Status
  | pending | submitted | succeeded | failed | skipped

/-- A row of `KeeperAction`. -/
structure Action where
  status : Status
  attempts : Nat

structure Config where
  maxActionsPerCycle : Nat
  dailyFeeBudgetStroops : Nat
  feeBumpMaxRetries : Nat

/-- The fees of a day, as the process knows them. -/
structure Tracker where
  dailyBudgetDate : Nat
  dailyFeesSpentStroops : Nat

def checkAndAccumulateFee (feeStroops maxDaily today : Nat) (t : Tracker) : Bool × Tracker :=
  let t := if today ≠ t.dailyBudgetDate then ⟨today, 0⟩ else t
  if maxDaily < t.dailyFeesSpentStroops + feeStroops then (false, t)
  else (true, { t with dailyFeesSpentStroops := t.dailyFeesSpentStroops + feeStroops })

/-- The fee that `executeTransaction` reports: 0, whatever the envelope says. -/
def feePaid : Nat := 0

/-- Where a cycle is. `left` more candidates may follow. -/
inductive Phase
  | idle
  | sweep (left : Nat)
  /-- the transaction of a candidate is built and simulated -/
  | build (left : Nat) (target : Target)
  /-- it is about to be sent, as a fee bump from the second time on -/
  | send (left : Nat) (target : Target) (bumpAttempt : Nat)
  /-- it has been sent -/
  | poll (left : Nat) (target : Target) (bumpAttempt : Nat)
  /-- it has succeeded, and its row is `Submitted` -/
  | record (left : Nat) (target : Target)
  deriving DecidableEq

/-- The target whose transaction is under way. -/
def Phase.target : Phase → Option Target
  | .build _ target | .send _ target _ | .poll _ target _ | .record _ target => some target
  | _ => none

/-- The candidates that may follow. -/
def Phase.left : Phase → Nat
  | .idle => 0
  | .sweep left | .build left _ | .send left _ _ | .poll left _ _ | .record left _ => left

structure State where
  rows : Target → Option Action
  phase : Phase
  tracker : Tracker
  today : Nat
  /-- the targets of the transactions that may still be included -/
  afloat : List Target
  /-- how often a target has been attempted -/
  made : Target → Nat
  /-- the fees of the transactions sent today, and the cycles under way today -/
  sent : List Nat
  cycles : Nat

namespace State

def initial : State := ⟨fun _ => none, .idle, ⟨0, 0⟩, 0, [], fun _ => 0, [], 0⟩

/-- What `processCandidate` leaves alone. -/
def Blocked (cfg : Config) : Option Action → Prop
  | none => False
  | some action => match action.status with
    | .succeeded | .skipped | .submitted => True
    | .failed => cfg.feeBumpMaxRetries + 1 ≤ action.attempts
    | .pending => False

/-- `createOrSkipAction` -/
def createOrSkip (row : Option Action) : Action := row.getD ⟨.pending, 0⟩

def setRow (k : State) (target : Target) (action : Action) : State :=
  { k with rows := update k.rows target (some action) }

/-- `markSucceeded`, `markFailed` and `markSkipped` -/
def mark (k : State) (target : Target) (status : Status) : State :=
  k.setRow target { createOrSkip (k.rows target) with status }

def goto (k : State) (phase : Phase) : State := { k with phase }

inductive Act
  | cycle | begin (target : Target) | send (fee : Nat) | rebuild (target : Target)
  /-- a transaction that has been sent is left without a final answer -/
  | leave (target : Target)
  | other

variable (cfg : Config) (k : State)

inductive Step : Act → State → Prop
  | cycle (h : k.phase = .idle) :
    Step .cycle { k with phase := .sweep cfg.maxActionsPerCycle, cycles := k.cycles + 1 }
  /-- `resumeSubmittedActions` gets a final answer -/
  | resume {left target row status} (h : k.phase = .sweep left) (hrow : k.rows target = some row)
      (hsubmitted : row.status = .submitted) (hstatus : status = .succeeded ∨ status = .failed) :
    Step .other (k.mark target status)
  | skip {left} (h : k.phase = .sweep (left + 1)) : Step .other (k.goto (.sweep left))
  | begin {left} (target) (h : k.phase = .sweep (left + 1)) (hfree : ¬ Blocked cfg (k.rows target)) :
    Step (.begin target) { (k.setRow target (createOrSkip (k.rows target))) with
      phase := .build left target, made := update k.made target (k.made target + 1) }
  /-- the simulation fails -/
  | refuse {left target status} (h : k.phase = .build left target)
      (hstatus : status = .skipped ∨ status = .failed) :
    Step .other ((k.mark target status).goto (.sweep left))
  | build {left target} (h : k.phase = .build left target) : Step .other (k.goto (.send left target 0))
  /-- `sendTransaction`; a fee bump is for the transaction that is afloat -/
  | send {left target bumpAttempt} (fee : Nat) (h : k.phase = .send left target bumpAttempt) :
    Step (.send fee) { k with
      phase := .poll left target bumpAttempt
      afloat := if bumpAttempt = 0 then target :: k.afloat else k.afloat
      sent := fee :: k.sent }
  /-- the poll ends without an answer, and retries remain -/
  | bump {left target bumpAttempt} (h : k.phase = .poll left target bumpAttempt)
      (hretry : bumpAttempt < cfg.feeBumpMaxRetries) :
    Step .other (k.goto (.send left target (bumpAttempt + 1)))
  /-- a sequence collision is reported -/
  | rebuild {left target} (h : k.phase = .poll left target 0) :
    Step (.rebuild target) (k.goto (.build left target))
  /-- the poll ends without an answer for the last time, or sending it fails -/
  | fail {left target bumpAttempt} (h : k.phase = .poll left target bumpAttempt) :
    Step (.leave target) ((k.mark target .failed).goto (.sweep left))
  /-- it fails for good -/
  | abandon {left target bumpAttempt} (h : k.phase = .poll left target bumpAttempt) :
    Step .other ((k.mark target .skipped).goto (.sweep left))
  /-- it has been included and has failed -/
  | revert {left target bumpAttempt} (h : k.phase = .poll left target bumpAttempt)
      (hfinal : target ∉ k.afloat) : Step .other ((k.mark target .failed).goto (.sweep left))
  /-- it has been included and has succeeded -/
  | succeed {left target bumpAttempt tracker} (h : k.phase = .poll left target bumpAttempt)
      (hfinal : target ∉ k.afloat)
      (hbudget : checkAndAccumulateFee feePaid cfg.dailyFeeBudgetStroops k.today k.tracker = (true, tracker)) :
    Step .other { (k.setRow target
      ⟨.submitted, (createOrSkip (k.rows target)).attempts + 1⟩).goto (.record left target) with tracker }
  /-- `BudgetExhaustedError` -/
  | exhaust {left target bumpAttempt tracker} (h : k.phase = .poll left target bumpAttempt)
      (hfinal : target ∉ k.afloat)
      (hbudget : checkAndAccumulateFee feePaid cfg.dailyFeeBudgetStroops k.today k.tracker = (false, tracker)) :
    Step .other { k.goto .idle with tracker }
  | record {left target} (h : k.phase = .record left target) :
    Step .other ((k.mark target .succeeded).goto (.sweep left))
  /-- an unexpected error ends the work on a candidate, or the process crashes -/
  | drop {target phase} (h : k.phase.target = some target)
      (hphase : phase = .idle ∨ phase = .sweep k.phase.left) : Step (.leave target) (k.goto phase)
  /-- the cycle ends, or the process crashes between two candidates -/
  | finish {left} (h : k.phase = .sweep left) : Step .other (k.goto .idle)
  /-- the process starts anew -/
  | restart (h : k.phase = .idle) : Step .other { k with tracker := ⟨k.today, 0⟩ }
  /-- a transaction is included, or expires -/
  | settle (target : Target) : Step .other { k with afloat := k.afloat.erase target }
  | midnight :
    Step .other { k with today := k.today + 1, sent := [], cycles := if k.phase = .idle then 0 else 1 }

/-! ### Fees -/

/-- The transactions that a cycle can still send: for each candidate one and its fee bumps. -/
def credit (retries : Nat) : Phase → Nat
  | .idle => 0
  | .sweep left | .record left _ => left * (retries + 1)
  | .build left _ => left * (retries + 1) + (retries + 1)
  | .send left _ bumpAttempt => left * (retries + 1) + (retries + 1 - bumpAttempt)
  | .poll left _ bumpAttempt => left * (retries + 1) + (retries - bumpAttempt)

/-- At most `cycles` cycles a day, no fee above `maxFee`, and no sequence collision. -/
def Rationed (cycles maxFee : Nat) : Act → Prop
  | .cycle => k.cycles < cycles
  | .send fee => fee ≤ maxFee
  | .rebuild _ => False
  | _ => True

/-- What has been sent today, and can still be sent, is a share for each cycle of today. -/
structure Bounded (cycles maxFee : Nat) : Prop where
  credit : credit cfg.feeBumpMaxRetries k.phase ≤ cfg.maxActionsPerCycle * (cfg.feeBumpMaxRetries + 1)
  share : k.sent.length + State.credit cfg.feeBumpMaxRetries k.phase ≤
    k.cycles * (cfg.maxActionsPerCycle * (cfg.feeBumpMaxRetries + 1))
  cycles : k.cycles ≤ cycles
  fees : ∀ fee ∈ k.sent, fee ≤ maxFee
  bumps : ∀ left target bumpAttempt, k.phase = .send left target bumpAttempt →
    bumpAttempt ≤ cfg.feeBumpMaxRetries

variable {cfg k} {k' : State} {act : Act} {cycles maxFee : Nat}

/-- A step that sends nothing and begins nothing. -/
theorem Bounded.less (h : k.Bounded cfg cycles maxFee) (hsent : k'.sent = k.sent)
    (hcycles : k'.cycles = k.cycles)
    (hcredit : State.credit cfg.feeBumpMaxRetries k'.phase ≤ State.credit cfg.feeBumpMaxRetries k.phase)
    (hbumps : ∀ left target bumpAttempt, k'.phase = .send left target bumpAttempt →
      bumpAttempt ≤ cfg.feeBumpMaxRetries) : k'.Bounded cfg cycles maxFee where
  credit := hcredit.trans h.credit
  share := by
    rw [hsent, hcycles]
    exact (Nat.add_le_add_left hcredit _).trans h.share
  cycles := hcycles ▸ h.cycles
  fees := hsent ▸ h.fees
  bumps := hbumps

theorem credit_left (retries : Nat) (phase : Phase) :
    credit retries (.sweep phase.left) ≤ credit retries phase := by
  cases phase <;> simp [credit, Phase.left]

theorem Bounded.step (h : k.Bounded cfg cycles maxFee) (hcycles : 0 < cycles)
    (hration : k.Rationed cycles maxFee act) (hstep : k.Step cfg act k') :
    k'.Bounded cfg cycles maxFee := by
  cases hstep with
  | cycle hidle =>
    have hshare := h.share
    exact {
      credit := le_rfl
      share := by
        simp only [State.credit, Nat.succ_mul] at hshare ⊢
        omega
      cycles := hration
      fees := h.fees
      bumps := nofun }
  | @send left target bumpAttempt fee hphase =>
    have hbumps := h.bumps left target bumpAttempt hphase
    have hcredit := h.credit
    have hshare := h.share
    rw [hphase] at hcredit hshare
    simp only [State.credit] at hcredit hshare
    exact {
      credit := by
        simp only [State.credit]
        omega
      share := by
        simp only [State.credit, List.length_cons]
        omega
      cycles := h.cycles
      fees := List.forall_mem_cons.mpr ⟨hration, h.fees⟩
      bumps := nofun }
  | midnight =>
    -- a cycle that goes on has at most its own share left for the new day
    refine { credit := h.credit, share := ?_, cycles := ?_, fees := nofun, bumps := h.bumps } <;> dsimp only
    · split
      · rename_i hidle
        simp [hidle, State.credit]
      · simpa using h.credit
    · split <;> omega
  | rebuild hphase => cases hration
  | resume | restart | settle => exact h.less rfl rfl le_rfl h.bumps
  | skip hphase | begin target hphase hfree =>
    refine h.less rfl rfl ?_ nofun
    rw [hphase]
    simp [State.goto, State.credit, Nat.succ_mul]
  | build hphase =>
    refine h.less rfl rfl ?_ fun left target bumpAttempt heq => ?_
    · rw [hphase]
      exact le_rfl
    · cases heq
      exact Nat.zero_le _
  | bump hphase hretry =>
    refine h.less rfl rfl ?_ fun left target bumpAttempt heq => ?_
    · rw [hphase]
      simp only [State.goto, State.credit]
      omega
    · cases heq
      exact hretry
  | refuse hphase | fail hphase | abandon hphase | revert hphase | record hphase | succeed hphase =>
    refine h.less rfl rfl ?_ nofun
    rw [hphase]
    simp [State.goto, State.credit]
  | exhaust | finish => exact h.less rfl rfl (Nat.zero_le _) nofun
  | drop htarget hphase =>
    obtain rfl | rfl := hphase
    · exact h.less rfl rfl (Nat.zero_le _) nofun
    · exact h.less rfl rfl (credit_left _ _) nofun

/-- **The daily budget.** In every run with at most `cycles` cycles a day, fees of at most `maxFee` and no
sequence collision, the fees of a day stay within a budget that has room for all the transactions that so
many cycles can send. -/
theorem fees_within_budget (cfg : Config) (cycles maxFee : Nat) (hcycles : 0 < cycles)
    (hroom : cycles * (cfg.maxActionsPerCycle * (cfg.feeBumpMaxRetries + 1)) * maxFee ≤
      cfg.dailyFeeBudgetStroops)
    (k : State) (hrun : Run.Reaches (Step cfg) (fun k => Rationed k cycles maxFee) initial k) :
    k.sent.sum ≤ cfg.dailyFeeBudgetStroops := by
  have h : k.Bounded cfg cycles maxFee := by
    refine hrun.invariant (I := fun k => Bounded cfg k cycles maxFee) ?_
      fun _ _ _ h hration hstep => h.step hcycles hration hstep
    exact ⟨Nat.zero_le _, Nat.zero_le _, Nat.zero_le _, nofun, nofun⟩
  calc k.sent.sum ≤ k.sent.length * maxFee := by
        simpa using List.sum_le_card_nsmul k.sent maxFee h.fees
    _ ≤ cycles * (cfg.maxActionsPerCycle * (cfg.feeBumpMaxRetries + 1)) * maxFee := by
        refine Nat.mul_le_mul_right _ ((Nat.le_add_right _ _).trans (h.share.trans ?_))
        exact Nat.mul_le_mul_right _ h.cycles
    _ ≤ cfg.dailyFeeBudgetStroops := hroom

/-! ### Attempts -/

def Terminal (row : Option Action) : Prop :=
  ∃ action, row = some action ∧ (action.status = .succeeded ∨ action.status = .skipped)

/-- The row counts every attempt that has been made, and no transaction is left, by failure or crash or
for another one, that may still be included. -/
def Counted (k : State) : Act → Prop
  | .begin target => k.made target ≤ (createOrSkip (k.rows target)).attempts
  | .rebuild target | .leave target => target ∉ k.afloat
  | _ => True

/-- The target of the transaction that has been sent. -/
def inFlight : Phase → Option Target
  | .poll _ target _ | .send _ target (_ + 1) => some target
  | _ => none

structure Tidy (cfg : Config) (k : State) : Prop where
  working : ∀ target, k.phase.target = some target → ¬ Terminal (k.rows target)
  once : k.afloat.Nodup
  followed : ∀ target ∈ k.afloat, Terminal (k.rows target) ∨ inFlight k.phase = some target
  pending : ∀ target action, k.rows target = some action → action.status = .pending → action.attempts = 0
  made : ∀ target, k.made target ≤ cfg.feeBumpMaxRetries + 1

theorem target_of_inFlight {phase : Phase} (h : inFlight phase = some target) :
    phase.target = some target := by
  unfold inFlight at h
  split at h <;> first | exact h | cases h

theorem Terminal.blocked (h : Terminal row) : Blocked cfg row := by
  obtain ⟨action, rfl, hstatus⟩ := h
  rcases hstatus with hstatus | hstatus <;> simp [Blocked, hstatus]

/-- A step that concerns the target under way, if there is one. -/
theorem Tidy.frame (h : k.Tidy cfg) (hafloat : k'.afloat = k.afloat) (hmade : k'.made = k.made)
    (hrows : ∀ target, k.phase.target ≠ some target → k'.rows target = k.rows target)
    (hnext : ∀ target, k'.phase.target = some target →
      k.phase.target = some target ∧ ¬ Terminal (k'.rows target))
    (hleft : ∀ target, k.phase.target = some target → target ∈ k.afloat →
      Terminal (k'.rows target) ∨ inFlight k'.phase = some target)
    (hpending : ∀ target action, k.phase.target = some target → k'.rows target = some action →
      action.status = .pending → action.attempts = 0) : k'.Tidy cfg where
  working target htarget := (hnext target htarget).2
  once := hafloat ▸ h.once
  followed target hmem := by
    rw [hafloat] at hmem
    by_cases htarget : k.phase.target = some target
    · exact hleft target htarget hmem
    · rw [hrows target htarget]
      exact (h.followed target hmem).imp_right fun hflight => absurd (target_of_inFlight hflight) htarget
  pending target action hrow := by
    by_cases htarget : k.phase.target = some target
    · exact hpending target action htarget hrow
    · exact h.pending target action (hrows target htarget ▸ hrow)
  made := hmade ▸ h.made

theorem Tidy.grounded (h : k.Tidy cfg) (htarget : k.phase.target = some target)
    (hflight : inFlight k.phase = none) : target ∉ k.afloat := fun hmem =>
  (h.followed target hmem).elim (h.working target htarget) fun hsome => nomatch hflight.symm.trans hsome

theorem not_terminal_of_status (h : action.status ≠ .succeeded ∧ action.status ≠ .skipped) :
    ¬ Terminal (some action) := by
  rintro ⟨_, heq, hstatus⟩
  obtain rfl := Option.some.inj heq
  exact hstatus.elim h.1 h.2

/-- The phase moves on, with the row as it is. -/
theorem Tidy.goto (h : k.Tidy cfg) {phase : Phase}
    (hnext : ∀ target, phase.target = some target → k.phase.target = some target)
    (hleft : ∀ target, k.phase.target = some target → target ∈ k.afloat → inFlight phase = some target) :
    (k.goto phase).Tidy cfg :=
  h.frame rfl rfl (fun _ _ => rfl) (fun target ht => ⟨hnext target ht, h.working target (hnext target ht)⟩)
    (fun target ht hmem => .inr (hleft target ht hmem)) fun target action _ => h.pending target action

/-- The row is written for the transaction that is under way, which is final or will never be retried. -/
theorem Tidy.write (h : k.Tidy cfg) {phase : Phase}
    (htarget : k.phase.target = some target) (hstatus : action.status ≠ .pending)
    (hfinal : action.status = .skipped ∨ target ∉ k.afloat)
    (hnext : ∀ t, phase.target = some t → t = target ∧ action.status = .submitted) :
    ((k.setRow target action).goto phase).Tidy cfg := by
  have hrow : (k.setRow target action).rows target = some action := update_self ..
  refine h.frame rfl rfl (fun t ht => ?_) (fun t ht => ?_) (fun t ht hmem => ?_) fun t a ht ha hpending => ?_
  · have hne : t ≠ target := fun heq => ht (heq ▸ htarget)
    exact update_of_ne hne _ _
  · obtain ⟨rfl, hsubmitted⟩ := hnext t ht
    refine ⟨htarget, ?_⟩
    change ¬ Terminal ((k.setRow t action).rows t)
    rw [hrow]
    exact not_terminal_of_status (by simp [hsubmitted])
  · obtain rfl := Option.mem_unique htarget ht
    exact .inl ⟨action, hrow, .inr (hfinal.resolve_right fun hnot => hnot hmem)⟩
  · obtain rfl := Option.mem_unique htarget ht
    exact absurd (Option.mem_unique hrow ha ▸ hpending) hstatus

theorem Tidy.close (h : k.Tidy cfg)
    (htarget : k.phase.target = some target) (hstatus : status ≠ .pending)
    (hfinal : status = .skipped ∨ target ∉ k.afloat) :
    ((k.mark target status).goto (.sweep left)).Tidy cfg :=
  h.write htarget hstatus hfinal nofun

/-- The budget and the number of cycles do not matter. -/
theorem Tidy.counters (h : k.Tidy cfg) (tracker : Tracker) (cycles : Nat) :
    { k with tracker, cycles }.Tidy cfg :=
  ⟨h.working, h.once, h.followed, h.pending, h.made⟩

/-- A target that is not blocked has been attempted fewer times than it may be. -/
theorem Tidy.attempts_le (h : k.Tidy cfg) (hfree : ¬ Blocked cfg (k.rows target)) :
    (createOrSkip (k.rows target)).attempts ≤ cfg.feeBumpMaxRetries := by
  cases hrow : k.rows target with
  | none => exact Nat.zero_le _
  | some action =>
    have hpending := h.pending target action hrow
    cases hstatus : action.status with
    | pending => simp [createOrSkip, hpending hstatus]
    | failed => simpa [hrow, Blocked, hstatus, createOrSkip, Nat.lt_succ_iff] using hfree
    | _ => simp [hrow, Blocked, hstatus] at hfree

theorem Tidy.begin (h : k.Tidy cfg) (hphase : k.phase.target = none)
    (hfree : ¬ Blocked cfg (k.rows target)) (hcounted : k.Counted (.begin target)) :
    { (k.setRow target (createOrSkip (k.rows target))) with
      phase := .build left target,
      made := update k.made target (k.made target + 1) }.Tidy cfg := by
  have hcreated : ¬ Terminal (some (createOrSkip (k.rows target))) ∧
      ∀ action, some (createOrSkip (k.rows target)) = some action → action.status = .pending →
        action.attempts = 0 := by
    cases hrow : k.rows target with
    | none => exact ⟨not_terminal_of_status (by simp [createOrSkip]), by rintro _ ⟨⟩ _; rfl⟩
    | some action => exact ⟨fun hterminal => hfree (hrow ▸ hterminal.blocked), hrow ▸ h.pending target⟩
  have hterminal (t : Target) (ht : t ∈ k.afloat) : Terminal (k.rows t) :=
    (h.followed t ht).resolve_right fun hsome => nomatch hphase.symm.trans (target_of_inFlight hsome)
  refine ⟨fun t ht => ?_, h.once, fun t ht => ?_, fun t action => ?_, fun t => ?_⟩
  · obtain rfl := Option.some.inj ht
    simpa [setRow] using hcreated.1
  · have hne : t ≠ target := by
      rintro rfl
      exact hfree (hterminal t ht).blocked
    simpa [setRow, hne] using .inl (hterminal t ht)
  · rcases eq_or_ne t target with rfl | hne
    · simpa [setRow] using hcreated.2 action
    · simpa [setRow, hne] using h.pending t action
  · rcases eq_or_ne t target with rfl | hne
    · simpa using hcounted.trans (h.attempts_le hfree)
    · simpa [hne] using h.made t

theorem Tidy.step (h : k.Tidy cfg) (hcounted : k.Counted act) (hstep : k.Step cfg act k') :
    k'.Tidy cfg := by
  cases hstep with
  | cycle hphase =>
    have hsweep : (k.goto (.sweep cfg.maxActionsPerCycle)).Tidy cfg :=
      h.goto nofun (by simp [hphase, Phase.target])
    exact hsweep.counters k.tracker _
  | skip hphase | finish hphase => exact h.goto nofun (by simp [hphase, Phase.target])
  | restart | midnight => exact ⟨h.working, h.once, h.followed, h.pending, h.made⟩
  | settle target =>
    exact ⟨h.working, h.once.erase target, fun t ht => h.followed t (List.mem_of_mem_erase ht), h.pending, h.made⟩
  | @resume left target row status hphase hrow hsubmitted hstatus =>
    have hkeep (t : Target) (ht : t ≠ target) : (k.mark target status).rows t = k.rows t :=
      update_of_ne ht _ _
    have hopen : ¬ Terminal (k.rows target) := hrow ▸ not_terminal_of_status (by simp [hsubmitted])
    refine ⟨fun t ht => ?_, h.once, fun t ht => ?_, fun t action haction hpending => ?_, h.made⟩
    · rw [mark, setRow, hphase] at ht
      cases ht
    · refine (h.followed t ht).imp_left fun hterminal => ?_
      rwa [hkeep t fun heq => hopen (heq ▸ hterminal)]
    · rcases eq_or_ne t target with rfl | hne
      · simp only [mark, setRow, update_self] at haction
        rcases hstatus with rfl | rfl <;> cases haction <;> cases hpending
      · exact h.pending t action (hkeep t hne ▸ haction) hpending
  | begin target hphase hfree => exact h.begin (by simp [hphase, Phase.target]) hfree hcounted
  | refuse hphase hstatus =>
    have htarget := congrArg Phase.target hphase
    have hground := h.grounded htarget (by rw [hphase]; rfl)
    exact h.close htarget (by rcases hstatus with rfl | rfl <;> simp) (.inr hground)
  | build hphase =>
    refine h.goto (by simp [hphase, Phase.target]) fun target htarget hmem => ?_
    exact absurd hmem (h.grounded htarget (by rw [hphase]; rfl))
  | @send left target bumpAttempt fee hphase =>
    have htarget := congrArg Phase.target hphase
    refine ⟨fun t ht => h.working t (htarget.trans ht), ?_, fun t ht => ?_, h.pending, h.made⟩
    · split
      · rename_i hfirst
        exact List.nodup_cons.mpr ⟨h.grounded htarget (by rw [hphase, hfirst]; rfl), h.once⟩
      · exact h.once
    · have hmem : t = target ∨ t ∈ k.afloat := by
        split at ht
        · exact List.mem_cons.mp ht
        · exact .inr ht
      obtain rfl | hmem := hmem
      · exact .inr rfl
      · exact (h.followed t hmem).imp_right fun hflight =>
          htarget.symm.trans (target_of_inFlight hflight)
  | bump hphase hretry => exact h.goto (by simp [hphase, Phase.target]) (by simp [hphase, Phase.target, inFlight])
  | rebuild hphase =>
    refine h.goto (by simp [hphase, Phase.target]) fun t ht hmem => absurd hmem ?_
    obtain rfl := Option.some.inj ((congrArg Phase.target hphase).symm.trans ht)
    exact hcounted
  | fail hphase => exact h.close (congrArg Phase.target hphase) nofun (.inr hcounted)
  | abandon hphase => exact h.close (congrArg Phase.target hphase) nofun (.inl rfl)
  | revert hphase hfinal => exact h.close (congrArg Phase.target hphase) nofun (.inr hfinal)
  | @succeed left target _ tracker hphase hfinal hbudget =>
    have hrecord : ((k.setRow target ⟨.submitted, (createOrSkip (k.rows target)).attempts + 1⟩).goto
        (.record left target)).Tidy cfg :=
      h.write (congrArg Phase.target hphase) nofun (.inr hfinal) fun _ ht => ⟨(Option.some.inj ht).symm, rfl⟩
    exact hrecord.counters tracker k.cycles
  | record hphase =>
    have htarget := congrArg Phase.target hphase
    exact h.close htarget nofun (.inr (h.grounded htarget (by rw [hphase]; rfl)))
  | exhaust hphase hfinal hbudget =>
    have hidle : (k.goto .idle).Tidy cfg := h.goto nofun fun t ht hmem =>
      absurd (Option.some.inj ((congrArg Phase.target hphase).symm.trans ht) ▸ hmem) hfinal
    exact hidle.counters _ k.cycles
  | drop htarget hphase =>
    refine h.goto (by obtain rfl | rfl := hphase <;> nofun) fun t ht hmem => ?_
    exact absurd (Option.mem_unique htarget ht ▸ hmem) hcounted

/-- A target that is recorded as succeeded or skipped stays so, and is not attempted. -/
theorem terminal_step (h : Terminal (k.rows t)) (hidle : k.phase.target ≠ some t)
    (hstep : k.Step cfg act k') :
    Terminal (k'.rows t) ∧ k'.phase.target ≠ some t ∧ k'.made t = k.made t := by
  have hwrite {target : Target} (htarget : k.phase.target = some target) (action : Action) :
      Terminal ((k.setRow target action).rows t) := by
    have hne : t ≠ target := fun heq => hidle (heq ▸ htarget)
    simpa only [setRow, update_of_ne hne] using h
  cases hstep with
  | cycle | skip | exhaust | finish => exact ⟨h, nofun, rfl⟩
  | restart | settle | midnight => exact ⟨h, hidle, rfl⟩
  | @resume left target row status hphase hrow hsubmitted hstatus =>
    have hne : t ≠ target := by
      rintro rfl
      exact not_terminal_of_status (by simp [hsubmitted]) (hrow ▸ h)
    exact ⟨by simpa only [mark, setRow, update_of_ne hne] using h, hidle, rfl⟩
  | begin target hphase hfree =>
    have hne : t ≠ target := fun heq => hfree (heq ▸ h).blocked
    refine ⟨by simpa only [setRow, update_of_ne hne] using h, ?_, update_of_ne hne _ _⟩
    exact fun heq => hne (Option.some.inj heq).symm
  | build hphase | send fee hphase | bump hphase | rebuild hphase =>
    rw [hphase] at hidle
    exact ⟨h, hidle, rfl⟩
  | refuse hphase | fail hphase | abandon hphase | revert hphase | record hphase =>
    exact ⟨hwrite (congrArg Phase.target hphase) _, nofun, rfl⟩
  | succeed hphase =>
    refine ⟨hwrite (congrArg Phase.target hphase) _, ?_, rfl⟩
    rw [hphase] at hidle
    exact hidle
  | drop htarget hphase => exact ⟨h, by obtain rfl | rfl := hphase <;> nofun, rfl⟩

/-- **Submissions.** In every run in which each attempt is counted in its row and no transaction is left
that may still be included: two transactions for one target are never afloat together, no target is
attempted more often than the cap says, and one that is recorded as succeeded or skipped is not attempted
by whatever follows. -/
theorem submissions_bounded (cfg : Config) (k : State)
    (hrun : Run.Reaches (Step cfg) Counted initial k) :
    k.afloat.Nodup ∧ (∀ target, k.made target ≤ cfg.feeBumpMaxRetries + 1) ∧
      ∀ target, Terminal (k.rows target) → ∀ k', Run.Reaches (Step cfg) (fun _ _ => True) k k' →
        k'.made target = k.made target := by
  have h : k.Tidy cfg := by
    refine hrun.invariant ?_ fun _ _ _ h hcounted hstep => h.step hcounted hstep
    exact ⟨nofun, List.nodup_nil, nofun, nofun, fun _ => Nat.zero_le _⟩
  refine ⟨h.once, h.made, fun target hterminal k' hrun' => ?_⟩
  have hlater := hrun'.invariant (I := fun k' =>
    Terminal (k'.rows target) ∧ k'.phase.target ≠ some target ∧ k'.made target = k.made target)
    ⟨hterminal, fun htarget => h.working target htarget hterminal, rfl⟩ fun _ _ _ h _ hstep => by
      obtain ⟨hterminal, hidle, hmade⟩ := terminal_step h.1 h.2.1 hstep
      exact ⟨hterminal, hidle, hmade.trans h.2.2⟩
  exact hlater.2.2

/-! ### Runs -/

/-- One candidate per cycle, a budget of 50 and no fee bumps. -/
def thrifty : Config := ⟨1, 50, 0⟩

def listing : Target := ⟨.expireListing, 1⟩

/-- A cycle sends a transaction for a listing. -/
theorem exists_sent (k : State) (fee : Nat)
    (hrun : Run.Reaches (Step thrifty) P initial k) (hidle : k.phase = .idle)
    (hfree : ¬ Blocked thrifty (k.rows listing)) (hcycle : P k .cycle)
    (hbegin : ∀ k', k'.rows = k.rows → k'.made = k.made → P k' (.begin listing))
    (hsend : ∀ k, P k (.send fee)) (hother : ∀ k, P k .other) :
    ∃ k', Run.Reaches (Step thrifty) P initial k' ∧ k'.phase = .poll 0 listing 0 ∧
      k'.afloat = listing :: k.afloat ∧ k'.sent = fee :: k.sent ∧ k'.made listing = k.made listing + 1 ∧
      k'.rows listing = some (createOrSkip (k.rows listing)) := by
  have hbegun := (hrun.step hcycle (Step.cycle hidle)).step (hbegin _ rfl rfl) (Step.begin listing rfl hfree)
  exact ⟨_, (hbegun.step (hother _) (Step.build rfl)).step (hsend _) (Step.send fee rfl), rfl, rfl, rfl,
    by simp [goto], by simp [goto, setRow]⟩

theorem fees_within_budget_once :
    ∃ k : State, k.sent = [50] ∧ k.sent.sum ≤ thrifty.dailyFeeBudgetStroops := by
  obtain ⟨k, hrun, -, -, hsent, -⟩ := exists_sent (P := fun k => Rationed k 1 50) initial 50 .refl rfl id
    Nat.one_pos (fun _ _ _ => trivial) (fun _ => le_rfl) fun _ => trivial
  exact ⟨k, hsent, fees_within_budget thrifty 1 50 (by decide) (by decide) k hrun⟩

/-- One transaction costs more than the budget of the day. -/
theorem fee_exceeds_budget :
    ∃ k, Run.Reaches (Step thrifty) (fun _ _ => True) initial k ∧
      thrifty.dailyFeeBudgetStroops < k.sent.sum := by
  obtain ⟨k, hrun, -, -, hsent, -⟩ := exists_sent (P := fun _ _ => True) initial 100 .refl rfl id trivial
    (fun _ _ _ => trivial) (fun _ => trivial) fun _ => trivial
  exact ⟨k, hrun, by rw [hsent]; decide⟩

theorem submissions_bounded_once : ∃ k : State, k.afloat = [listing] ∧ k.made listing ≤ 1 := by
  obtain ⟨k, hrun, -, hafloat, -⟩ := exists_sent (P := Counted) initial 50 .refl rfl id trivial
    (fun k' _ hmade => by simp [Counted, hmade, initial]) (fun _ => trivial) fun _ => trivial
  exact ⟨k, hafloat, (submissions_bounded thrifty k hrun).2.1 listing⟩

/-- The answer to the first transaction takes too long, and the next cycle sends a second one. -/
theorem sent_twice :
    ∃ k, Run.Reaches (Step thrifty) (fun _ _ => True) initial k ∧ ¬ k.afloat.Nodup ∧
      thrifty.feeBumpMaxRetries + 1 < k.made listing := by
  obtain ⟨k, hrun, hpoll, hafloat, -, hmade, hrow⟩ := exists_sent (P := fun _ _ => True) initial 50 .refl rfl id
    trivial (fun _ _ _ => trivial) (fun _ => trivial) fun _ => trivial
  have hfailed := (hrun.step trivial (Step.fail hpoll)).step trivial (Step.finish rfl)
  have hfree : ¬ Blocked thrifty ((k.mark listing .failed).rows listing) := by
    simp [mark, setRow, hrow, Blocked, createOrSkip, initial]
  obtain ⟨k', hrun', -, hafloat', -, hmade', -⟩ := exists_sent _ 50 hfailed rfl hfree trivial
    (fun _ _ _ => trivial) (fun _ => trivial) fun _ => trivial
  refine ⟨k', hrun', ?_, ?_⟩
  · rw [hafloat', List.nodup_cons, not_and_or, not_not]
    exact .inl (hafloat ▸ List.mem_cons_self)
  · rw [hmade']
    exact Nat.lt_succ_of_le (hmade ▸ le_rfl)

end State

end ElcareHub.Indexer.Keeper
