import ElcareHub.Lib.Mirror

/-!
# Jobs that are run a budget at a time

A *job* is a chain of positions. At each position the next round is fixed and leads to a known
position: a `unit` round does one unit of the work, a `free` round comes on the way to the next unit,
and at a `stop` there is nothing left to do. `resume` runs a job from a position until a budget of
units is spent, and returns the position it got to, from which a later call goes on.

How the work is cut into calls makes no difference. `Paced` says that the rounds count down, the units
by `work` and the free ones by `slack`; for such a job `resume_add` turns a run on `m + n` units
into one on `m` followed by one on `n`, also where the cut falls between a unit and a free round:
no run makes a free round when its budget is spent, so the second one makes it.
`work_of_resume` counts what is left, and `resume_enough` says that budget beyond the work is unused.
-/

variable {ε σ P : Type}

open Call

/-- what a round of a job does. -/
inductive Round (ε σ P : Type) where
  | stop
  | free (act : Call ε σ Unit) (next : P)
  | unit (act : Call ε σ Unit) (next : P)

namespace Round

/-- The same kind of round, by two acts that mirror each other. -/
inductive Mirrors (R : σ → σ → Prop) : Round ε σ P → Round ε σ P → Prop where
  | stop : Mirrors R .stop .stop
  | free {act act' : Call ε σ Unit} (h : Call.Mirrors R act act') (next : P) :
      Mirrors R (.free act next) (.free act' next)
  | unit {act act' : Call ε σ Unit} (h : Call.Mirrors R act act') (next : P) :
      Mirrors R (.unit act next) (.unit act' next)

/-- Where a round leads, if it is not a stop. -/
def next : Round ε σ P → Option P
  | .stop => none
  | .free _ p => some p
  | .unit _ p => some p

end Round

/-- Run `job` from `p` until `budget` units are done, in at most `fuel` rounds. -/
def resume (job : P → Round ε σ P) : (fuel budget : Nat) → P → Call ε σ P
  | 0, _, p => pure p
  | fuel + 1, budget, p =>
    if budget = 0 then pure p
    else
      match job p with
      | .stop => pure p
      | .free act next => do
        act
        resume job fuel budget next
      | .unit act next => do
        act
        resume job fuel (budget - 1) next

/-- `work p` units and at most `slack p` free rounds are left at `p`. -/
structure Paced (job : P → Round ε σ P) (work slack : P → Nat) : Prop where
  stop : ∀ {p}, job p = .stop ↔ work p = 0
  free : ∀ {p act next}, job p = .free act next → work next = work p ∧ slack next < slack p
  unit : ∀ {p act next}, job p = .unit act next → work next + 1 = work p ∧ slack next ≤ slack p

namespace Paced

variable {job : P → Round ε σ P} {work slack : P → Nat} {p q : P} {s s' : σ} {fuel fuel' b b' : Nat}

theorem resume_stop (h : job p = .stop) : resume job fuel b p = pure p := by
  cases fuel with
  | zero => rfl
  | succ fuel => simp only [resume, h, ite_self]

theorem resume_none : resume job fuel 0 p = pure p := by
  cases fuel with
  | zero => rfl
  | succ fuel => simp only [resume, if_true]

theorem resume_free (h : job p = .free act q) :
    resume job (fuel + 1) (b + 1) p = act >>= fun _ => resume job fuel (b + 1) q := by
  simp only [resume, h, Nat.add_one_ne_zero, if_false]

theorem resume_unit (h : job p = .unit act q) :
    resume job (fuel + 1) (b + 1) p = act >>= fun _ => resume job fuel b q := by
  simp only [resume, h, Nat.add_one_ne_zero, if_false, Nat.add_sub_cancel]

variable (hjob : Paced job work slack)

include hjob

/-- Rounds beyond those that are needed are not made. -/
theorem resume_fuel (h : b + slack p ≤ fuel) (h' : b + slack p ≤ fuel') :
    resume job fuel b p = resume job fuel' b p := by
  induction fuel generalizing fuel' b p with
  | zero =>
    obtain rfl : b = 0 := by omega
    rw [resume_none, resume_none]
  | succ fuel ih =>
    cases b with
    | zero => rw [resume_none, resume_none]
    | succ b =>
      obtain ⟨fuel', rfl⟩ : ∃ n, fuel' = n + 1 := ⟨fuel' - 1, by omega⟩
      cases hp : job p with
      | stop => rw [resume_stop hp, resume_stop hp]
      | free act q =>
        have hslack := (hjob.free hp).2
        have hrest : resume job fuel (b + 1) q = resume job fuel' (b + 1) q :=
          ih (by omega) (by omega)
        rw [resume_free hp, resume_free hp, hrest]
      | unit act q =>
        have hslack := (hjob.unit hp).2
        have hrest : resume job fuel b q = resume job fuel' b q := ih (by omega) (by omega)
        rw [resume_unit hp, resume_unit hp, hrest]

/-- **Cutting a run.** A run on `m + n` units is a run on `m`, and one on `n` from where it got to. -/
theorem resume_add (h : m + n + slack p ≤ fuel) (h1 : m + slack p ≤ f)
    (h2 : n + slack p ≤ g) : resume job fuel (m + n) p = resume job f m p >>= resume job g n := by
  -- Induction on the rounds of the first part. Where its budget is spent, the second part makes
  -- the next round whatever that is.
  induction f generalizing fuel m p with
  | zero =>
    obtain rfl : m = 0 := by omega
    rw [resume_none, pure_then, Nat.zero_add]
    exact hjob.resume_fuel (by omega) h2
  | succ f ih =>
    cases m with
    | zero =>
      rw [resume_none, pure_then, Nat.zero_add]
      exact hjob.resume_fuel (by omega) h2
    | succ m =>
      obtain ⟨fuel, rfl⟩ : ∃ k, fuel = k + 1 := ⟨fuel - 1, by omega⟩
      rw [Nat.add_right_comm] at h ⊢
      cases hp : job p with
      | stop => rw [resume_stop hp, resume_stop hp, pure_then, resume_stop hp]
      | free act q =>
        have hslack := (hjob.free hp).2
        have hrest : resume job fuel (m + 1 + n) q = resume job f (m + 1) q >>= resume job g n :=
          ih (by omega) (by omega) (by omega)
        rw [resume_free hp, resume_free hp, bind_bind, Nat.add_right_comm, hrest]
      | unit act q =>
        have hslack := (hjob.unit hp).2
        have hrest : resume job fuel (m + n) q = resume job f m q >>= resume job g n :=
          ih (by omega) (by omega) (by omega)
        rw [resume_unit hp, resume_unit hp, bind_bind, hrest]

/-- Budget beyond the work that is left is not used. -/
theorem resume_enough (hb : work p ≤ b) (hb' : work p ≤ b') (h : b + slack p ≤ fuel)
    (h' : b' + slack p ≤ fuel') : resume job fuel b p = resume job fuel' b' p := by
  induction fuel generalizing fuel' b b' p with
  | zero =>
    have hstop : job p = .stop := hjob.stop.mpr (by omega)
    rw [resume_stop hstop, resume_stop hstop]
  | succ fuel ih =>
    cases hp : job p with
    | stop => rw [resume_stop hp, resume_stop hp]
    | free act q =>
      obtain ⟨hwork, hslack⟩ := hjob.free hp
      have hleft : work p ≠ 0 := fun h0 => by simp [hjob.stop.mpr h0] at hp
      obtain ⟨b, rfl⟩ : ∃ n, b = n + 1 := ⟨b - 1, by omega⟩
      obtain ⟨b', rfl⟩ : ∃ n, b' = n + 1 := ⟨b' - 1, by omega⟩
      obtain ⟨fuel', rfl⟩ : ∃ n, fuel' = n + 1 := ⟨fuel' - 1, by omega⟩
      have hrest : resume job fuel (b + 1) q = resume job fuel' (b' + 1) q :=
        ih (by omega) (by omega) (by omega) (by omega)
      rw [resume_free hp, resume_free hp, hrest]
    | unit act q =>
      obtain ⟨hwork, hslack⟩ := hjob.unit hp
      obtain ⟨b, rfl⟩ : ∃ n, b = n + 1 := ⟨b - 1, by omega⟩
      obtain ⟨b', rfl⟩ : ∃ n, b' = n + 1 := ⟨b' - 1, by omega⟩
      obtain ⟨fuel', rfl⟩ : ∃ n, fuel' = n + 1 := ⟨fuel' - 1, by omega⟩
      have hrest : resume job fuel b q = resume job fuel' b' q :=
        ih (by omega) (by omega) (by omega) (by omega)
      rw [resume_unit hp, resume_unit hp, hrest]

/-- A run does as many units as its budget allows, if that many are left. -/
theorem work_of_resume (h : b + slack p ≤ fuel) (hrun : Returns (resume job fuel b p) s q s') :
    work q = work p - min b (work p) ∧ slack q ≤ slack p := by
  induction fuel generalizing b p s with
  | zero =>
    obtain ⟨rfl, -⟩ := hrun.pure
    exact ⟨by omega, Nat.le_refl _⟩
  | succ fuel ih =>
    cases b with
    | zero =>
      obtain ⟨rfl, -⟩ := hrun.pure
      exact ⟨by omega, Nat.le_refl _⟩
    | succ b =>
      cases hp : job p with
      | stop =>
        rw [resume_stop hp] at hrun
        obtain ⟨rfl, -⟩ := hrun.pure
        have hdone := hjob.stop.mp hp
        exact ⟨by omega, Nat.le_refl _⟩
      | free act r =>
        rw [resume_free hp] at hrun
        obtain ⟨s1, -, hrest⟩ := hrun.seq
        obtain ⟨hwork, hslack⟩ := hjob.free hp
        obtain ⟨hleft, hle⟩ := ih (by omega) hrest
        exact ⟨by omega, by omega⟩
      | unit act r =>
        rw [resume_unit hp] at hrun
        obtain ⟨s1, -, hrest⟩ := hrun.seq
        obtain ⟨hwork, hslack⟩ := hjob.unit hp
        obtain ⟨hleft, hle⟩ := ih (by omega) hrest
        exact ⟨by omega, by omega⟩

end Paced

/-- A stretch of units is a loop over them. -/
theorem resume_units (pos : Nat → P) {act : Nat → Call ε σ Unit}
    (hunits : ∀ i, c ≤ i → i < c + n → job (pos i) = .unit (act (i + 1)) (pos (i + 1))) :
    resume job (n + fuel) (n + b) (pos c) =
      Call.each act (List.range' (c + 1) n) >>= fun _ => resume job fuel b (pos (c + n)) := by
  induction n generalizing c with
  | zero =>
    simp only [Nat.zero_add]
    rfl
  | succ n ih =>
    have hrest := ih (c := c + 1) fun i hi hlt => hunits i (by omega) (by omega)
    rw [Nat.add_right_comm n 1 fuel, Nat.add_right_comm n 1 b,
      Paced.resume_unit (hunits c (Nat.le_refl c) (by omega)), hrest, List.range'_succ, Call.each,
      bind_bind, Nat.add_right_comm c 1 n, Nat.add_assoc c n 1]

/-- What every round keeps of the position, a run keeps. -/
theorem resume_invariant {job : P → Round ε σ P} {I : P → Prop}
    (hround : ∀ p q, I p → (job p).next = some q → I q)
    (hp : I p) (hrun : Returns (resume job fuel b p) s q s') : I q := by
  induction fuel generalizing b p s with
  | zero =>
    obtain ⟨rfl, -⟩ := hrun.pure
    exact hp
  | succ fuel ih =>
    unfold resume at hrun
    by_cases hb : b = 0
    · rw [if_pos hb] at hrun
      obtain ⟨rfl, -⟩ := hrun.pure
      exact hp
    · rw [if_neg hb] at hrun
      split at hrun
      · obtain ⟨rfl, -⟩ := hrun.pure
        exact hp
      · rename_i act next hjob
        obtain ⟨s1, -, hrest⟩ := hrun.seq
        exact ih (hround p next hp (by rw [hjob, Round.next])) hrest
      · rename_i act next hjob
        obtain ⟨s1, -, hrest⟩ := hrun.seq
        exact ih (hround p next hp (by rw [hjob, Round.next])) hrest

/-- Two jobs whose rounds mirror each other get to the same positions, in related states. -/
theorem mirrors_resume {job' : P → Round ε σ P}
    (h : ∀ p, (job p).Mirrors R (job' p)) (fuel b : Nat) (p : P) :
    Call.Mirrors R (resume job fuel b p) (resume job' fuel b p) := by
  induction fuel generalizing b p with
  | zero => exact .pure p
  | succ fuel ih =>
    unfold resume
    have hround := h p
    -- the two rounds are of one kind and lead to one position
    generalize job p = round at hround ⊢
    generalize job' p = round' at hround ⊢
    by_cases hb : b = 0
    · rw [if_pos hb, if_pos hb]
      exact .pure p
    · rw [if_neg hb, if_neg hb]
      cases hround with
      | stop => exact .pure p
      | free hact q =>
        exact .bind
      | unit hact q =>
        exact .bind
