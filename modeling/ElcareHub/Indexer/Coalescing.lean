import ElcareHub.Lib.Run
import Mathlib

/-!
# Coalescing of cache misses

`getCached` enters the promise of its pipeline (the read from Redis, the optional lock, the origin fetch)
in the map `inflight`, where later callers find and join it. The pipeline removes the entry in a
`finally`. It leaves its `try` with `return runFetch(…)`, not with `return await runFetch(…)`, so that the
`finally` runs when the fetch has begun and not when it has ended: who calls during the fetch begins
another one.
-/

namespace ElcareHub.Indexer.Coalescing

variable {κ ε ρ : Type} [DecidableEq κ]

/-- What the pipeline of one call is waiting for. -/
inductive Phase (ε ρ : Type)
  | reading | locking | waiting | fetching
  | settled (outcome : Except ε ρ)

/-- The pipeline is still inside its `try`. -/
def Phase.pending : Phase ε ρ → Bool
  | .fetching | .settled _ => false
  | _ => true

/-- What a pipeline is told: a read of the cache (no value where the entry has expired, has been
invalidated or is corrupt), the outcome of `acquireLock`, of `waitForCachedValue` and of `runFetch`. -/
inductive Answer (ε ρ : Type)
  | cached (value : Option ρ) (distributed : Bool)
  | lock (acquired : Bool)
  | waited (value : Option ρ)
  | fetched (outcome : Except ε ρ)

def Phase.next : Phase ε ρ → Answer ε ρ → Option (Phase ε ρ)
  | .reading, .cached (some value) _ => some (.settled (.ok value))
  | .reading, .cached none distributed => some (if distributed then .locking else .fetching)
  | .locking, .lock acquired => some (if acquired then .fetching else .waiting)
  | .waiting, .waited (some value) => some (.settled (.ok value))
  | .waiting, .waited none => some .fetching
  | .fetching, .fetched outcome => some (.settled outcome)
  | _, _ => none

/-- A pipeline that has left its `try` begins nothing more. -/
theorem Phase.next_of_left {phase next : Phase ε ρ} (h : phase.next a = some next) :
    phase.pending ∨ phase = .fetching ∧ ∃ outcome, next = .settled outcome := by
  cases phase <;> cases a <;> grind [Phase.next, Phase.pending]

/-- The calls for one key: its entry in `inflight`, the pipelines, and whose promise each caller holds. -/
structure Calls (ε ρ : Type) where
  inflight : Option Nat := none
  pipelines : List (Phase ε ρ) := []
  callers : List Nat := []

inductive Event (ε ρ : Type)
  | getCached
  | answer (pipeline : Nat) (a : Answer ε ρ)

namespace Calls

variable (c : Calls ε ρ)

def step : Event ε ρ → Calls ε ρ
  | .getCached => match c.inflight with
    | some existing => { c with callers := c.callers ++ [existing] }
    | none =>
      let promise := c.pipelines.length
      ⟨some promise, c.pipelines ++ [.reading], c.callers ++ [promise]⟩
  | .answer p a => match c.pipelines[p]? with
    | none => c
    | some phase => match phase.next a with
      | none => c
      | some next =>
        -- the `finally`
        { c with
          inflight := if phase.pending && !next.pending then none else c.inflight
          pipelines := c.pipelines.set p next }

def Fetching (p : Nat) : Prop := c.pipelines[p]? = some .fetching

/-- The entry is that of the pipeline inside its `try`, and there is none during a fetch. -/
structure Sound : Prop where
  entry p : c.inflight = some p ↔ (c.pipelines[p]?).any Phase.pending
  alone p q : c.Fetching p → c.Fetching q → p = q
  bare p : c.Fetching p → c.inflight = none

variable {c}

theorem Sound.step (h : c.Sound) (hquiet : e = .getCached → ∀ p, ¬ c.Fetching p) :
    (c.step e).Sound := by
  cases e with
  | getCached =>
    have hidle := hquiet rfl
    rw [Calls.step]
    split
    · exact ⟨h.entry, h.alone, fun p hp => (hidle p hp).elim⟩
    · rename_i hnone
      have hphase (p : Nat) : (c.pipelines ++ [.reading])[p]? =
          if p = c.pipelines.length then some .reading else c.pipelines[p]? := by grind
      have hentry := h.entry
      constructor <;> simp only [Fetching, hphase] at * <;> grind [Phase.pending]
  | answer p a =>
    rw [Calls.step]
    split
    · exact h
    · rename_i phase hp
      split
      · exact h
      · rename_i next hnext
        have hphase (q : Nat) : (c.pipelines.set p next)[q]? =
            if q = p then some next else c.pipelines[q]? := by grind
        have hleft := Phase.next_of_left hnext
        obtain ⟨hentry, halone, hbare⟩ := h
        constructor <;> simp only [Fetching, hphase] at * <;> grind [Phase.pending]

end Calls

/-- The calls of one process. -/
abbrev State (κ ε ρ : Type) := κ → Calls ε ρ

def State.step (s : State κ ε ρ) (i : κ × Event ε ρ) : State κ ε ρ :=
  Function.update s i.1 ((s i.1).step i.2)

/-- At most one fetch of a key is under way, a caller who arrives during it is given its promise, and
where all pipelines have settled the next miss is fetched. -/
structure Coalesces (s : State κ ε ρ) (i : κ × Event ε ρ) : Prop where
  single k p q : (s.step i k).Fetching p → (s.step i k).Fetching q → p = q
  joins : i.2 = .getCached → ∀ p, (s i.1).Fetching p → (s.step i i.1).callers = (s i.1).callers ++ [p]
  renews k : (∀ phase ∈ (s k).pipelines, ∃ outcome, phase = .settled outcome) →
    (((s k).step .getCached).step (.answer (s k).pipelines.length (.cached none false))).Fetching
      (s k).pipelines.length

/-- Nobody calls for a key while it is being fetched. -/
def Quiet (s : State κ ε ρ) (i : κ × Event ε ρ) : Prop :=
  i.2 = .getCached → ∀ p, ¬ (s i.1).Fetching p

theorem sound_step {i : κ × Event ε ρ} (h : ∀ k, (s k).Sound) (hi : Quiet s i) (k : κ) :
    (s.step i k).Sound := by
  rw [State.step, Function.update_apply]
  split
  · exact (h i.1).step hi
  · exact h k

theorem coalesces_iff (h : ∀ k, (s k).Sound) (i : κ × Event ε ρ) : Coalesces s i ↔ Quiet s i := by
  constructor
  · intro hi hcall p hp
    -- the caller begins a pipeline of its own
    have hjoins := hi.joins hcall p hp
    have hlength : p < (s i.1).pipelines.length := (List.getElem?_eq_some_iff.mp hp).1
    simp [State.step, hcall, Calls.step, (h i.1).bare p hp] at hjoins
    omega
  · intro hi
    refine ⟨fun k => (sound_step h hi k).alone, fun hcall p hp => (hi hcall p hp).elim, fun k hk => ?_⟩
    have hnone : (s k).inflight = none := by
      refine Option.eq_none_iff_forall_ne_some.mpr fun p hp => ?_
      have hpending := ((h k).entry p).mp hp
      cases hphase : (s k).pipelines[p]? with
      | none => simp [hphase] at hpending
      | some phase =>
        obtain ⟨outcome, rfl⟩ := hk phase (List.mem_of_getElem? hphase)
        simp [hphase, Phase.pending] at hpending
    simp [Calls.step, Calls.Fetching, hnone, Phase.next]

end ElcareHub.Indexer.Coalescing
