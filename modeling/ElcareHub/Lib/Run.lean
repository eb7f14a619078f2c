import Mathlib.Data.List.Induction

/-!
# Runs of a transition system, and invariants along them

A system is a function `step : σ → ι → σ`: the state after one input. A *run* folds a list of
inputs. `Along P s is` says that every input of the run meets `P` in the state it is applied to;
the conditions under which a property of all runs is claimed are stated with it.

Every prefix of a run is a run (`along_append`), so a property of the last state of every run is a
property of every state a run passes through.

A property that speaks of the past of a run is one of its *transcript*: what each step puts on
record, in order. The transcript is no part of the state; `Along.transcript` is the invariant rule
for a relation between the two. `Since P Q` says that some input of the run met `P` and every later one
`Q`; `since_of_exec` finds the input that brought a state of affairs about.

Where a step may turn out in several ways, or not be possible at all, the system is a relation
`σ → ι → σ → Prop`, and its runs are `Reaches`.
-/

namespace Run

variable {σ ι : Type}
variable {I : σ → Prop}

/-- The state after the inputs `is`, applied in order from `s`. -/
def exec (step : σ → ι → σ) (s : σ) (is : List ι) : σ := is.foldl step s

/-- Every input of the run meets `P` in the state it is applied to. -/
def Along (step : σ → ι → σ) (P : σ → ι → Prop) : σ → List ι → Prop
  | _, [] => True
  | s, i :: is => P s i ∧ Along step P (step s i) is

variable {step : σ → ι → σ} {P Q : σ → ι → Prop} {s : σ} {i : ι} {is js : List ι}

@[simp]
theorem exec_nil : exec step s [] = s := rfl

@[simp]
theorem exec_cons : exec step s (i :: is) = exec step (step s i) is := rfl

theorem exec_append : exec step s (is ++ js) = exec step (exec step s is) js :=
  List.foldl_append

@[simp]
theorem along_nil : Along step P s [] := trivial

@[simp]
theorem along_cons : Along step P s (i :: is) ↔ P s i ∧ Along step P (step s i) is := Iff.rfl

theorem along_append :
    Along step P s (is ++ js) ↔ Along step P s is ∧ Along step P (exec step s is) js := by
  induction is generalizing s with
  | nil => simp
  | cons i is ih => simp [ih, and_assoc]

/-- A run that meets a condition meets every weaker one. -/
theorem Along.mono (h : Along step P s is) (hPQ : ∀ s i, P s i → Q s i) : Along step Q s is := by
  induction is generalizing s with
  | nil => trivial
  | cons i is ih => exact ⟨hPQ s i h.1, ih h.2⟩

/-- A condition on the inputs alone. -/
theorem along_of_mem (h : ∀ i ∈ is, ∀ s, P s i) : Along step P s is := by
  induction is generalizing s with
  | nil => trivial
  | cons i is ih =>
    exact ⟨h i List.mem_cons_self s, ih fun j hj => h j (List.mem_cons_of_mem i hj)⟩

theorem along_of_forall (h : ∀ s i, P s i) : Along step P s is :=
  along_of_mem fun i _ s => h s i

/-- **Invariant rule.** What holds at the start and is kept by every step that meets `P` holds
after every run whose steps meet `P`. -/
theorem Along.invariant (hrun : Along step P s is) (hstart : I s)
    (hstep : ∀ s i, I s → P s i → I (step s i)) : I (exec step s is) := by
  induction is generalizing s with
  | nil => exact hstart
  | cons i is ih => exact ih hrun.2 (hstep s i hstart hrun.1)

/-- The invariant rule without a condition on the steps. -/
theorem invariant (hstart : I s) (hstep : ∀ s i, I s → I (step s i)) : I (exec step s is) :=
  (along_of_forall (P := fun _ _ => True) fun _ _ => trivial).invariant hstart
    fun s i hs _ => hstep s i hs

/-- **Relative invariant.** A step may use an invariant that is already known of all runs. -/
theorem Along.invariant_of {Known : σ → Prop} (hrun : Along step P s is) (hknown : Known s)
    (hkeep : ∀ s i, Known s → Known (step s i)) (hstart : I s)
    (hstep : ∀ s i, Known s → I s → P s i → I (step s i)) : I (exec step s is) :=
  (hrun.invariant (I := fun s => Known s ∧ I s) ⟨hknown, hstart⟩
    fun s i hs hi => ⟨hkeep s i hs.1, hstep s i hs.1 hs.2 hi⟩).2

/-- Two conditions that come to the same where an invariant holds, which each step that meets them keeps,
come to the same along a run. -/
theorem along_congr (hstart : I s) (hiff : ∀ s i, I s → (P s i ↔ Q s i))
    (hstep : ∀ s i, I s → Q s i → I (step s i)) : Along step P s is ↔ Along step Q s is := by
  induction is generalizing s with
  | nil => rfl
  | cons i is ih =>
    rw [along_cons, along_cons, hiff s i hstart]
    exact and_congr_right fun hi => ih (hstep s i hstart hi)

/-- A run of a system that is given by a relation, in which every step meets `P`. -/
inductive Reaches (step : σ → ι → σ → Prop) (P : σ → ι → Prop) (s : σ) : σ → Prop
  | refl : Reaches step P s s
  | step {s1 s2 : σ} {i : ι} (hrun : Reaches step P s s1) (hP : P s1 i) (hstep : step s1 i s2) :
    Reaches step P s s2

/-- The invariant rule for relations. -/
theorem Reaches.invariant {step : σ → ι → σ → Prop} (hrun : Reaches step P s s')
    (hstart : I s) (hstep : ∀ s i s', I s → P s i → step s i s' → I s') : I s' := by
  induction hrun with
  | refl => exact hstart
  | step _ hP h ih => exact hstep _ _ _ ih hP h

/-! ### Transcripts -/

variable {ω : Type}

/-- What the steps of a run put on record, in order. -/
def transcript (step : σ → ι → σ) (out : σ → ι → List ω) : σ → List ι → List ω
  | _, [] => []
  | s, i :: is => out s i ++ transcript step out (step s i) is

variable {out : σ → ι → List ω}

theorem transcript_append : transcript step out s (is ++ js) =
      transcript step out s is ++ transcript step out (exec step s is) js := by
  induction is generalizing s with
  | nil => rfl
  | cons i is ih => simp [transcript, ih]

theorem transcript_snoc :
    transcript step out s (is ++ [i]) = transcript step out s is ++ out (exec step s is) i := by
  rw [transcript_append, transcript, transcript, List.append_nil]

/-- **Transcript rule.** A relation between transcript and state that holds at the start, and that
every step keeps while adding to the transcript, holds after every run. A step may use what is known
of the states of all runs. -/
theorem Along.transcript {I : List ω → σ → Prop} {K : σ → Prop} (hrun : Along step P s is)
    (hknown : ∀ is, K (exec step s is)) (hstart : I [] s)
    (hstep : ∀ log s i, K s → P s i → I log s → I (log ++ out s i) (step s i)) :
    I (transcript step out s is) (exec step s is) := by
  -- the transcript grows at its end, so the induction is on the run from its end
  induction is using List.reverseRecOn with
  | nil => exact hstart
  | append_singleton is i ih =>
    obtain ⟨hfront, hlast⟩ := along_append.mp hrun
    rw [transcript_snoc, exec_append]
    exact hstep _ _ i (hknown is) hlast.1 (ih hfront)

/-! ### Since -/

/-- Some input of the run met `P`, and every later one met `Q`. -/
def Since (step : σ → ι → σ) (P Q : σ → ι → Prop) (s : σ) (is : List ι) : Prop :=
  ∃ before i after, is = before ++ i :: after ∧ P (exec step s before) i ∧
    Along step Q (step (exec step s before) i) after

theorem Since.now (h : P (exec step s is) i) : Since step P Q s (is ++ [i]) :=
  ⟨is, i, [], rfl, h, trivial⟩

theorem Since.later (h : Since step P Q s is) (hi : Q (exec step s is) i) :
    Since step P Q s (is ++ [i]) := by
  obtain ⟨before, j, after, rfl, hj, hafter⟩ := h
  refine ⟨before, j, after ++ [i], by simp, hj, along_append.mpr ⟨hafter, ?_, trivial⟩⟩
  rwa [exec_append] at hi

/-- **Provenance rule.** What holds after a run and did not at its start has been brought about by one
of the inputs, and every later input has left it in place. A step may use what is known of the states
of all runs. -/
theorem since_of_exec {K : σ → Prop} (hknown : ∀ is, K (exec step s is)) (hstart : ¬ I s)
    (hstep : ∀ s i, K s → I (step s i) → P s i ∨ (I s ∧ Q s i)) (h : I (exec step s is)) :
    Since step P Q s is := by
  induction is using List.reverseRecOn with
  | nil => exact (hstart h).elim
  | append_singleton is i ih =>
    rw [exec_append] at h
    obtain hnow | ⟨hbefore, hkept⟩ := hstep _ i (hknown is) h
    · exact .now hnow
    · exact (ih hbefore).later hkept

end Run
