import Mathlib.Logic.Basic

/-!
# The keeper's transaction pipeline

`executeTransaction` simulates a call, submits it, polls for its outcome, and wraps it in a fee bump each
time the poll gives up. A sequence error at the first submission makes it call itself ("tail-recurse once").
Nothing counts these calls: a server at which every first submission collides is asked for ever.
-/

namespace ElcareHub.Indexer.Pipeline

/-- An error as the pipeline reads it: its text, `classifyError` and `isSeqError`. -/
structure Failure where
  text : String
  permanent : Bool
  isSeqError : Bool

inductive SubmitOutcome
  | succeeded (txHash : String) (feePaid : Nat)
  | permanentSkip (reason : String)
  | transientFailure (error : String)

def Failure.outcome (e : Failure) (error : String) : SubmitOutcome :=
  if e.permanent then .permanentSkip e.text else .transientFailure error

inductive Sent
  | thrown (e : Failure)
  | error (e : Failure)
  | accepted (hash : String)

inductive Status
  | thrown (e : Failure)
  | notFound
  | found (result : Except Failure Unit)

/-- The replies of the server to one call of `executeTransaction`: to the simulation, to each submission,
and to each status query after it, with the milliseconds that query took. -/
structure Replies where
  simulate : Except Failure Unit
  send : Nat → Sent
  status : Nat → Nat → Status × Nat

structure Config where
  feeBumpMaxRetries : Nat
  pollTimeout : Nat
  pollInterval : Nat
  pollInterval_pos : 0 < pollInterval
  dryRun : Bool

variable (cfg : Config)

/-- `pollTransaction` from query `query` on, `left` milliseconds before its deadline. -/
def pollTransaction (status : Nat → Status × Nat) (left query : Nat) :
    Except String (Except Failure Unit) :=
  if left = 0 then .error "poll timeout"
  else match (status query).1 with
    | .thrown e => .error e.text
    | .found result => .ok result
    | .notFound =>
      pollTransaction status (left - ((status query).2 + cfg.pollInterval)) (query + 1)
termination_by left
decreasing_by
  have := cfg.pollInterval_pos
  omega

/-- The submission loop at `bumpAttempt`, with `left` fee bumps left. Its outcome is `none` where the
transaction is to be rebuilt; with it comes the number of fee bumps made. -/
def submit (r : Replies) (left bumpAttempt : Nat) : Option SubmitOutcome × Nat :=
  match r.send bumpAttempt with
  | .thrown e =>
    (if e.isSeqError ∧ ¬e.permanent ∧ bumpAttempt = 0 then none else some (e.outcome e.text), bumpAttempt)
  | .error e => (some (e.outcome e.text), bumpAttempt)
  | .accepted hash =>
    match pollTransaction cfg (r.status bumpAttempt) cfg.pollTimeout 0, left with
    | .ok (.ok ()), _ => (some (.succeeded hash 0), bumpAttempt)
    | .ok (.error e), _ => (some (e.outcome s!"on-chain failure: {e.text}"), bumpAttempt)
    | .error e, 0 =>
      (some (.transientFailure s!"fee-bump cap reached after {bumpAttempt} bumps; last error: {e}"),
        bumpAttempt)
    | .error _, left + 1 => submit r left (bumpAttempt + 1)

/-- One call of `executeTransaction`, up to the call it makes of itself. -/
def attempt (r : Replies) : Option SubmitOutcome × Nat :=
  match r.simulate with
  | .error e => (some (e.outcome e.text), 0)
  | .ok () =>
    if cfg.dryRun then (some (.succeeded "dry-run" 0), 0) else submit cfg r cfg.feeBumpMaxRetries 0

structure Report where
  outcome : SubmitOutcome
  rebuilds : Nat
  bumps : Nat

/-- `executeTransaction` after `rebuilds` calls of itself: `none` where `fuel` calls are not enough. -/
def executeTransaction (server : Nat → Replies) : Nat → Nat → Option Report
  | 0, _ => none
  | fuel + 1, rebuilds =>
    match attempt cfg (server rebuilds) with
    | (some outcome, bumps) => some ⟨outcome, rebuilds, bumps⟩
    | (none, _) => executeTransaction server fuel (rebuilds + 1)

/-- The first submission of a transaction fails with a sequence error. -/
def Collides (r : Replies) : Prop :=
  cfg.dryRun = false ∧ r.simulate = .ok () ∧ ∃ e, r.send 0 = .thrown e ∧ e.isSeqError ∧ ¬e.permanent

variable {cfg}

theorem submit_bumps_le (r : Replies) (left bumpAttempt : Nat) :
    (submit cfg r left bumpAttempt).2 ≤ bumpAttempt + left := by
  fun_induction submit cfg r left bumpAttempt <;> grind

theorem attempt_bumps_le (cfg : Config) (r : Replies) : (attempt cfg r).2 ≤ cfg.feeBumpMaxRetries := by
  grind [attempt, submit_bumps_le]

theorem submit_eq_none_iff (r : Replies) (left bumpAttempt : Nat) :
    (submit cfg r left bumpAttempt).1 = none ↔
      bumpAttempt = 0 ∧ ∃ e, r.send 0 = .thrown e ∧ e.isSeqError ∧ ¬e.permanent := by
  fun_induction submit cfg r left bumpAttempt <;> grind

/-- The pipeline calls itself in this one case. -/
theorem attempt_eq_none_iff (r : Replies) : (attempt cfg r).1 = none ↔ Collides cfg r := by
  rw [attempt, Collides]
  grind [submit_eq_none_iff]

variable {server : Nat → Replies} {fuel rebuilds : Nat} {report : Report}

theorem execute_of_collides (h : Collides cfg (server rebuilds)) :
    executeTransaction cfg server (fuel + 1) rebuilds =
      executeTransaction cfg server fuel (rebuilds + 1) := by
  grind [executeTransaction, (attempt_eq_none_iff (server rebuilds)).2 h]

theorem execute_of_not_collides (h : ¬Collides cfg (server rebuilds)) :
    ∃ outcome bumps, executeTransaction cfg server (fuel + 1) rebuilds =
      some ⟨outcome, rebuilds, bumps⟩ ∧ bumps ≤ cfg.feeBumpMaxRetries := by
  rw [← attempt_eq_none_iff] at h
  have hle := attempt_bumps_le cfg (server rebuilds)
  rw [executeTransaction]
  generalize attempt cfg (server rebuilds) = result at h hle
  obtain ⟨_ | outcome, bumps⟩ := result
  · exact absurd rfl h
  · exact ⟨outcome, bumps, rfl, hle⟩

theorem le_rebuilds (h : executeTransaction cfg server fuel rebuilds = some report) :
    rebuilds ≤ report.rebuilds := by
  fun_induction executeTransaction cfg server fuel rebuilds <;> grind

theorem execute_eq_none (h : ∀ round, Collides cfg (server round)) :
    executeTransaction cfg server fuel rebuilds = none := by
  induction fuel generalizing rebuilds with
  | zero => rfl
  | succ fuel ih => rw [execute_of_collides (h rebuilds), ih]

end ElcareHub.Indexer.Pipeline
