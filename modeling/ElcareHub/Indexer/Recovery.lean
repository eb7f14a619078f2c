import ElcareHub.Lib.Run

/-!
# The recovery state machine

`recoveryFSM` (`recovery-state-machine.ts`) is told by poll loops, by the worker that repairs gaps and by
the operator what happens to them. None of them knows the mode it is in. The header of the file documents
which changes of mode there are; `transition` checks none of this. It drops a call that names the mode the
machine is in already, with all that the call reports, and obeys every other one.
-/

namespace ElcareHub.Indexer.Recovery

inductive RecoveryMode
  | sync | retry | gapRepair | reorgRollback | halted
  deriving DecidableEq

structure RecoveryState where
  mode : RecoveryMode
  consecutiveRetries : Nat
  lastReorgSafeLedger : Option Nat
  lastReorgDepth : Option Nat
  activeGapId : Option Nat
  totalReorgRollbacks : Nat
  totalGapRepairs : Nat
  totalGapRepairFailures : Nat

/-- `INITIAL_STATE`. -/
def initial : RecoveryState := ⟨.sync, 0, none, none, none, 0, 0, 0⟩

/-- `transition`, with the state the patch makes. -/
def transition (s : RecoveryState) (next : RecoveryMode) (patched : RecoveryState) : RecoveryState :=
  if s.mode = next ∧ next ≠ .retry then s else { patched with mode := next }

inductive Call
  | toSync
  | toRetry
  | toGapRepair (gapId : Nat)
  | gapRepairComplete (gapId : Nat)
  | gapRepairFailed (gapId : Nat)
  | toReorgRollback (safeLedger depth : Nat)
  | reorgRollbackComplete (safeLedger : Nat)
  | toHalted
  | operatorResume

def step (s : RecoveryState) : Call → RecoveryState
  | .toSync => transition s .sync { s with consecutiveRetries := 0, activeGapId := none }
  | .toRetry => transition s .retry { s with consecutiveRetries := s.consecutiveRetries + 1 }
  | .toGapRepair gapId => transition s .gapRepair { s with activeGapId := some gapId }
  | .gapRepairComplete _ => transition s .sync
    { s with activeGapId := none, consecutiveRetries := 0, totalGapRepairs := s.totalGapRepairs + 1 }
  | .gapRepairFailed _ => transition s .sync
    { s with activeGapId := none, totalGapRepairFailures := s.totalGapRepairFailures + 1 }
  | .toReorgRollback safeLedger depth => transition s .reorgRollback
    { s with lastReorgSafeLedger := some safeLedger, lastReorgDepth := some depth }
  | .reorgRollbackComplete _ => transition s .sync
    { s with consecutiveRetries := 0, totalReorgRollbacks := s.totalReorgRollbacks + 1 }
  | .toHalted => transition s .halted s
  | .operatorResume => transition s .sync { s with consecutiveRetries := 0 }

/-! ### What is documented -/

/-- The transitions of the header. -/
def Documented : RecoveryMode → RecoveryMode → Bool
  | .sync, .retry | .retry, .sync | .sync, .reorgRollback | .retry, .reorgRollback
  | .reorgRollback, .sync | .reorgRollback, .halted | _, .gapRepair | .gapRepair, .sync
  | .gapRepair, .halted | .halted, .sync => true
  | _, _ => false

/-- A call changes the mode as documented, and only the operator ends a halt. -/
def Disciplined (s : RecoveryState) (c : Call) : Prop :=
  (step s c).mode ≠ s.mode →
    Documented s.mode (step s c).mode = true ∧ (s.mode = .halted → c = .operatorResume)

def notePending (pending : List Nat) : Call → List Nat
  | .toGapRepair i => i :: pending
  | .gapRepairComplete i | .gapRepairFailed i => pending.filter (· ≠ i)
  | _ => pending

/-- The gaps whose repair has been announced and not reported on since, the latest first. -/
def pendingGaps (calls : List Call) : List Nat := calls.foldl notePending []

/-- The state says what the calls have reported. -/
structure Reports (calls : List Call) (s : RecoveryState) : Prop where
  gap : s.activeGapId = (pendingGaps calls).head?
  repairs : s.totalGapRepairs = calls.countP (· matches .gapRepairComplete _)
  failures : s.totalGapRepairFailures = calls.countP (· matches .gapRepairFailed _)
  rollbacks : s.totalReorgRollbacks = calls.countP (· matches .reorgRollbackComplete _)

/-- A call in a mode it may be made in, and about the gap that is being repaired, if there is one. What
is to be counted must not meet the mode it leads to, nor a gap the one of another. -/
def Call.Fits (s : RecoveryState) : Call → Prop
  | .toSync => s.mode = .sync ∨ s.mode ≠ .halted ∧ s.activeGapId = none
  | .toRetry => s.mode = .sync ∨ s.mode = .retry
  | .toGapRepair i => s.mode ≠ .halted ∧ (∀ j ∈ s.activeGapId, j = i) ∧
    (s.mode = .gapRepair → s.activeGapId = some i)
  | .gapRepairComplete i | .gapRepairFailed i =>
    s.mode ≠ .sync ∧ s.mode ≠ .halted ∧ ∀ j ∈ s.activeGapId, j = i
  | .toReorgRollback .. => s.mode = .sync ∨ s.mode = .retry ∨ s.mode = .reorgRollback
  | .reorgRollbackComplete _ => s.mode ≠ .sync ∧ s.mode ≠ .halted
  | .toHalted => s.mode = .reorgRollback ∨ s.mode = .gapRepair ∨ s.mode = .halted
  | .operatorResume => True

/-! ### Steps -/

variable {s : RecoveryState} {c : Call} {calls : List Call}

theorem disciplined_of_fits (h : c.Fits s) : Disciplined s c := by
  cases hmode : s.mode <;> cases c <;>
    simp_all [Call.Fits, Disciplined, step, transition, Documented]

/-- A call counts what it reports, and nothing else is counted. -/
theorem totals_of_fits (h : c.Fits s) :
    (step s c).totalGapRepairs = s.totalGapRepairs + [c].countP (· matches .gapRepairComplete _) ∧
      (step s c).totalGapRepairFailures =
        s.totalGapRepairFailures + [c].countP (· matches .gapRepairFailed _) ∧
      (step s c).totalReorgRollbacks =
        s.totalReorgRollbacks + [c].countP (· matches .reorgRollbackComplete _) := by
  cases c <;> simp_all [Call.Fits, step, transition, apply_ite]

/-- A gap is announced or reported on, or nothing is said about gaps. -/
theorem gap_of_fits (h : c.Fits s) :
    (∃ i, c = .toGapRepair i ∧ (∀ j ∈ s.activeGapId, j = i) ∧ (step s c).activeGapId = some i) ∨
      (∃ i, (c = .gapRepairComplete i ∨ c = .gapRepairFailed i) ∧ (∀ j ∈ s.activeGapId, j = i) ∧
        (step s c).activeGapId = none) ∨
      (∀ gaps, notePending gaps c = gaps) ∧ (step s c).activeGapId = s.activeGapId := by
  cases c <;> simp_all [Call.Fits, step, transition, notePending, apply_ite]
  case toSync => exact fun hsync => (h.resolve_left hsync).2.symm

/-- What carries the reports through a run: no two gaps are pending at a time. -/
structure Tracks (calls : List Call) (s : RecoveryState) : Prop extends Reports calls s where
  single : ∀ j ∈ pendingGaps calls, s.activeGapId = some j

theorem Tracks.step (h : Tracks calls s) (hc : c.Fits s) : Tracks (calls ++ [c]) (step s c) := by
  obtain ⟨hrepairs, hfailures, hrollbacks⟩ := totals_of_fits hc
  have hgaps : (Recovery.step s c).activeGapId = (pendingGaps (calls ++ [c])).head? ∧
      ∀ j ∈ pendingGaps (calls ++ [c]), (Recovery.step s c).activeGapId = some j := by
    rw [show pendingGaps (calls ++ [c]) = notePending (pendingGaps calls) c by simp [pendingGaps]]
    rcases gap_of_fits hc with ⟨i, rfl, hi, hafter⟩ | ⟨i, hreport, hi, hafter⟩ | ⟨hsame, hafter⟩
    · refine ⟨hafter, fun j hj => ?_⟩
      rcases List.mem_cons.mp hj with rfl | hj
      · exact hafter
      · rw [hafter, hi j (h.single j hj)]
    · -- the gap that is reported on was the only one
      have hnil : notePending (pendingGaps calls) c = [] := by
        rcases hreport with rfl | rfl <;>
          exact List.filter_eq_nil_iff.mpr fun j hj => by simpa using hi j (h.single j hj)
      simp [hnil, hafter]
    · rw [hsame, hafter]
      exact ⟨h.gap, h.single⟩
  refine ⟨⟨hgaps.1, ?_, ?_, ?_⟩, hgaps.2⟩
  · rw [hrepairs, h.repairs, List.countP_append]
  · rw [hfailures, h.failures, List.countP_append]
  · rw [hrollbacks, h.rollbacks, List.countP_append]

/-- **Recovery.** In every sequence of calls that fit the state they are made in, every change of mode is a
documented one, only the operator ends a halt, and the state names the gap that is being repaired and
counts what has been reported. -/
theorem recovery_follows_table (calls : List Call) (h : Run.Along step Call.Fits initial calls) :
    Run.Along step Disciplined initial calls ∧ Reports calls (Run.exec step initial calls) := by
  refine ⟨h.mono fun _ _ => disciplined_of_fits, ?_⟩
  suffices Tracks calls (Run.exec step initial calls) from this.toReports
  induction calls using List.reverseRecOn with
  | nil => exact ⟨⟨rfl, rfl, rfl, rfl⟩, by simp [pendingGaps]⟩
  | append_singleton calls c ih =>
    obtain ⟨hfront, hlast⟩ := Run.along_append.mp h
    rw [Run.exec_append]
    exact (ih hfront).step hlast.1

theorem recovery_follows_table_repaired : Reports [.toRetry, .toGapRepair 7, .gapRepairComplete 7]
      (Run.exec step initial [.toRetry, .toGapRepair 7, .gapRepairComplete 7]) :=
  (recovery_follows_table _ (by simp [Call.Fits, step, transition, initial])).2

/-- A poll loop that succeeds ends a halt; the repair of a gap that is reported to a machine in sync is
not counted, and the gap stays active. -/
theorem halt_ended_by_poller :
    ¬ Disciplined (Run.exec step initial [.toReorgRollback 5 90, .toHalted]) .toSync ∧
      ¬ Reports [.toGapRepair 7, .toReorgRollback 5 2, .reorgRollbackComplete 5, .gapRepairComplete 7]
        (Run.exec step initial
          [.toGapRepair 7, .toReorgRollback 5 2, .reorgRollbackComplete 5, .gapRepairComplete 7]) := by
  refine ⟨by simp [Disciplined, step, transition, initial], fun h => ?_⟩
  cases h.repairs

end ElcareHub.Indexer.Recovery
