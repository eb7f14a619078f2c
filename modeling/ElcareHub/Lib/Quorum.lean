import Mathlib.Data.List.Dedup
import Mathlib.Data.List.Perm.Subperm
import Mathlib.Logic.Function.Basic

/-!
# Motions that pass by quorum

A motion is put to a list of voters and may be executed once a threshold of them has approved it
before its deadline. The approvals are kept in a list of their own and counted by its length, so that
a quorum of distinct voters rests on what the list can hold.

`Step` is one act on the register of motions, with the conditions under which it is admitted, and
`History acts s` says that the register `s` is what the acts, each admitted in its turn, have made of
an empty one. What is proved of a register is proved of its history: who approved, and when; that
nothing is executed twice; that a motion stays what it was when it was proposed.
-/

namespace Quorum

open Function

variable {V T : Type}

/-- What is put to the vote. -/
structure Motion (V T : Type) where
  voters : List V
  threshold : Nat
  deadline : Nat
  content : T

/-- Where the vote on a motion stands. -/
structure Poll (V T : Type) where
  motion : Motion V T
  approvals : List V
  executed : Bool
  cancelled : Bool

/-- Neither executed nor cancelled. -/
def Poll.Live (p : Poll V T) : Prop := p.executed = false ∧ p.cancelled = false

/-- The acts on the register. -/
inductive Act (V T : Type)
  | propose (id : Nat) (motion : Motion V T)
  | approve (id : Nat) (voter : V) (time : Nat)
  | execute (id : Nat) (time : Nat)
  | cancel (id : Nat)

/-- The motion an act is about. -/
def Act.id : Act V T → Nat
  | .propose id _ | .approve id _ _ | .execute id _ | .cancel id => id

/-- The act executes the motion `id`. -/
def Act.executes (id : Nat) : Act V T → Bool
  | .execute id' _ => id' == id
  | _ => false

theorem executes_of_ne {id : Nat} (hne : act.id ≠ id) : Act.executes id act = false := by
  cases act <;> simp_all [Act.executes, Act.id]

/-- Acts on other motions do not execute the motion `id`. -/
theorem countP_of_forall_ne {acts : List (Act V T)} {id : Nat} (hne : ∀ a ∈ acts, Act.id a ≠ id) :
    acts.countP (Act.executes id) = 0 := by
  rw [List.countP_eq_zero]
  intro a ha
  rw [executes_of_ne (hne a ha)]
  exact Bool.false_ne_true

/-- The register of motions. -/
abbrev Polls (V T : Type) := Nat → Option (Poll V T)

/-- One act on the register. -/
inductive Step : Polls V T → Act V T → Polls V T → Prop
  | propose {s : Polls V T} {id : Nat} (m : Motion V T) (hnew : s id = none) :
      Step s (.propose id m) (update s id (some ⟨m, [], false, false⟩))
  | approve {s : Polls V T} {id : Nat} {p : Poll V T} (v : V) (time : Nat)
      (hpoll : s id = some p) (hlive : p.Live) (htime : time ≤ p.motion.deadline)
      (hvoter : v ∈ p.motion.voters) (hnew : v ∉ p.approvals) :
      Step s (.approve id v time)
        (update s id (some { p with approvals := p.approvals ++ [v] }))
  | execute {s : Polls V T} {id : Nat} {p : Poll V T} (time : Nat)
      (hpoll : s id = some p) (hlive : p.Live) (htime : time ≤ p.motion.deadline)
      (hquorum : p.motion.threshold ≤ p.approvals.length) :
      Step s (.execute id time) (update s id (some { p with executed := true }))
  | cancel {s : Polls V T} {id : Nat} {p : Poll V T} (hpoll : s id = some p) (hlive : p.Live) :
      Step s (.cancel id) (update s id (some { p with cancelled := true }))

/-- The acts, each admitted in its turn, have made `s` of an empty register. -/
inductive History : List (Act V T) → Polls V T → Prop
  | nil : History [] fun _ => none
  | snoc {acts : List (Act V T)} {act : Act V T} {s s' : Polls V T} (h : History acts s)
      (hstep : Step s act s') : History (acts ++ [act]) s'

/-! ### What a poll says about its history -/

/-- The poll of the motion `id` is explained by the acts. -/
structure Explains (acts : List (Act V T)) (id : Nat) (p : Poll V T) : Prop where
  proposed : .propose id p.motion ∈ acts
  terms : ∀ m, .propose id m ∈ acts → m = p.motion
  nodup : p.approvals.Nodup
  approved : ∀ v ∈ p.approvals, v ∈ p.motion.voters ∧
    ∃ time ≤ p.motion.deadline, .approve id v time ∈ acts
  executed : acts.countP (Act.executes id) = if p.executed then 1 else 0
  cancelled : .cancel id ∈ acts ↔ p.cancelled = true
  exclusive : p.executed = true → p.cancelled = false

namespace Explains

variable {acts : List (Act V T)} {id : Nat} {p : Poll V T} {act : Act V T}

/-- What has been approved stays on record. -/
theorem approved_append (h : Explains acts id p) (more : List (Act V T)) :
    ∀ v ∈ p.approvals, v ∈ p.motion.voters ∧
      ∃ time ≤ p.motion.deadline, .approve id v time ∈ acts ++ more := by
  intro v hv
  obtain ⟨hvoter, time, htime, hmem⟩ := h.approved v hv
  exact ⟨hvoter, time, htime, List.mem_append_left _ hmem⟩

/-- An act on another motion. -/
theorem frame (h : Explains acts id p) (hne : act.id ≠ id) : Explains (acts ++ [act]) id p where
  proposed := List.mem_append_left _ h.proposed
  terms m hm := by
    rcases List.mem_append.mp hm with hm | hm
    · exact h.terms m hm
    · cases List.mem_singleton.mp hm
      exact (hne rfl).elim
  nodup := h.nodup
  approved := h.approved_append _
  executed := by
    rw [List.countP_append, h.executed, List.countP_singleton, executes_of_ne hne]
    rfl
  cancelled := by
    have hother : Act.cancel id ≠ act := by
      rintro rfl
      exact hne rfl
    simp only [List.mem_append, List.mem_singleton, hother, or_false]
    exact h.cancelled
  exclusive := h.exclusive

/-- A motion nobody has acted on is proposed. -/
theorem propose (hnone : ∀ a ∈ acts, Act.id a ≠ id) (m : Motion V T) :
    Explains (acts ++ [.propose id m]) id ⟨m, [], false, false⟩ where
  proposed := List.mem_append_right _ (List.mem_singleton.mpr rfl)
  terms m' hm' := by
    rcases List.mem_append.mp hm' with hm' | hm'
    · exact (hnone _ hm' rfl).elim
    · cases List.mem_singleton.mp hm'
      rfl
  nodup := List.nodup_nil
  approved v hv := absurd hv List.not_mem_nil
  executed := by
    rw [List.countP_append, countP_of_forall_ne hnone]
    rfl
  cancelled := by
    have hnot : Act.cancel id ∉ acts := fun hmem => hnone _ hmem rfl
    simp [hnot]
  exclusive h := by cases h

theorem approve (h : Explains acts id p) (htime : time ≤ p.motion.deadline)
    (hvoter : v ∈ p.motion.voters) (hnew : v ∉ p.approvals) :
    Explains (acts ++ [.approve id v time]) id { p with approvals := p.approvals ++ [v] } where
  proposed := List.mem_append_left _ h.proposed
  terms m hm := h.terms m (by simpa using hm)
  nodup := List.nodup_append.mpr
    ⟨h.nodup, List.nodup_singleton v, fun a ha b hb hab => hnew (List.mem_singleton.mp hb ▸ hab ▸ ha)⟩
  approved v' hv' := by
    rcases List.mem_append.mp hv' with hv' | hv'
    · exact h.approved_append _ v' hv'
    · obtain rfl := List.mem_singleton.mp hv'
      exact ⟨hvoter, time, htime, List.mem_append_right _ (List.mem_singleton.mpr rfl)⟩
  executed := by
    rw [List.countP_append, h.executed]
    simp [Act.executes]
  cancelled := by simpa using h.cancelled
  exclusive := h.exclusive

theorem execute (h : Explains acts id p) (hlive : p.Live) (time : Nat) :
    Explains (acts ++ [.execute id time]) id { p with executed := true } where
  proposed := List.mem_append_left _ h.proposed
  terms m hm := h.terms m (by simpa using hm)
  nodup := h.nodup
  approved := h.approved_append _
  executed := by
    rw [List.countP_append, h.executed, hlive.1]
    simp [Act.executes]
  cancelled := by simpa using h.cancelled
  exclusive _ := hlive.2

theorem cancel (h : Explains acts id p) (hlive : p.Live) :
    Explains (acts ++ [.cancel id]) id { p with cancelled := true } where
  proposed := List.mem_append_left _ h.proposed
  terms m hm := h.terms m (by simpa using hm)
  nodup := h.nodup
  approved := h.approved_append _
  executed := by
    rw [List.countP_append, h.executed]
    simp [Act.executes]
  cancelled := by simp
  exclusive hexec := by
    rw [hlive.1] at hexec
    cases hexec

/-- No more approvals than there are voters. -/
theorem approvals_le [DecidableEq V] (h : Explains acts id p) :
    p.approvals.length ≤ p.motion.voters.dedup.length := by
  have hsub : p.approvals ⊆ p.motion.voters.dedup := fun v hv =>
    List.mem_dedup.mpr (h.approved v hv).1
  exact (List.subperm_of_subset h.nodup hsub).length_le

end Explains

/-! ### Histories -/

namespace History

variable {acts before after : List (Act V T)} {act : Act V T} {s : Polls V T} {id time : Nat}
  {p : Poll V T} {m : Motion V T}

/-- What one act does to the polls of the other motions, and to its own. -/
theorem explained (h : History acts s) :
    (∀ id, s id = none → ∀ a ∈ acts, Act.id a ≠ id) ∧ ∀ id p, s id = some p → Explains acts id p := by
  induction h with
  | nil => exact ⟨fun _ _ _ ha => absurd ha List.not_mem_nil, fun _ _ hp => by cases hp⟩
  | @snoc acts act s s' _ hstep ih =>
    obtain ⟨hnone, hsome⟩ := ih
    -- every act changes the poll of its own motion only, to one that its history explains
    obtain ⟨p, hs', hp⟩ : ∃ p, s' = update s act.id (some p) ∧
        Explains (acts ++ [act]) act.id p := by
      cases hstep with
      | propose m hnew => exact ⟨_, rfl, .propose (hnone _ hnew) m⟩
      | approve v time hpoll _ htime hvoter hnew =>
        exact ⟨_, rfl, (hsome _ _ hpoll).approve htime hvoter hnew⟩
      | execute time hpoll hlive => exact ⟨_, rfl, (hsome _ _ hpoll).execute hlive time⟩
      | cancel hpoll hlive => exact ⟨_, rfl, (hsome _ _ hpoll).cancel hlive⟩
    subst hs'
    refine ⟨fun id hid a ha => ?_, fun id q hq => ?_⟩
    · have hne : id ≠ act.id := by
        rintro rfl
        rw [Function.update_self] at hid
        cases hid
      rw [Function.update_of_ne hne] at hid
      rcases List.mem_append.mp ha with ha | ha
      · exact hnone id hid a ha
      · rw [List.mem_singleton.mp ha]
        exact hne.symm
    · by_cases hid : id = act.id
      · rw [hid, Function.update_self] at hq
        cases hq
        rwa [hid]
      · rw [Function.update_of_ne hid] at hq
        exact (hsome id q hq).frame (Ne.symm hid)

/-- An act of the history was admitted in the register that the acts before it had made. -/
theorem split (h : History acts s) (hacts : acts = before ++ act :: after) :
    ∃ s1 s2, History before s1 ∧ Step s1 act s2 := by
  induction h generalizing after with
  | nil => simp at hacts
  | @snoc acts act' s s' h hstep ih =>
    rcases List.eq_nil_or_concat after with rfl | ⟨after', last, rfl⟩
    · obtain ⟨rfl, hact⟩ := List.append_inj' hacts rfl
      cases hact
      exact ⟨s, s', h, hstep⟩
    · rw [List.concat_eq_append, ← List.cons_append, ← List.append_assoc] at hacts
      exact ih (List.append_inj' hacts rfl).1

/-- **A motion is executed at most once.** -/
theorem executed_once (h : History acts s) (id : Nat) : acts.countP (Act.executes id) ≤ 1 := by
  obtain ⟨hnone, hsome⟩ := h.explained
  cases hs : s id with
  | none =>
    rw [countP_of_forall_ne (hnone id hs)]
    exact Nat.zero_le 1
  | some p =>
    rw [(hsome id p hs).executed]
    split <;> omega

/-- **A motion is not both executed and cancelled.** -/
theorem not_executed_and_cancelled (h : History acts s) (hexec : .execute id time ∈ acts) :
    .cancel id ∉ acts := by
  intro hcancel
  obtain ⟨hnone, hsome⟩ := h.explained
  cases hs : s id with
  | none => exact hnone id hs _ hcancel rfl
  | some p =>
    have hp := hsome id p hs
    have hpos : 0 < acts.countP (Act.executes id) :=
      List.countP_pos_iff.mpr ⟨_, hexec, by simp [Act.executes]⟩
    have hexecuted : p.executed = true := by
      by_contra hnot
      rw [hp.executed, if_neg hnot] at hpos
      exact absurd hpos (Nat.lt_irrefl 0)
    have hcancelled := hp.cancelled.mp hcancel
    rw [hp.exclusive hexecuted] at hcancelled
    cases hcancelled

/-- **Quorum.** When a motion is executed, as many different voters as it asks for have approved it
before its deadline. -/
theorem quorum (h : History acts s) (hacts : acts = before ++ .execute id time :: after) :
    ∃ m, .propose id m ∈ before ∧ time ≤ m.deadline ∧
      ∃ voters : List V, voters.Nodup ∧ m.threshold ≤ voters.length ∧
        ∀ v ∈ voters, v ∈ m.voters ∧ ∃ t ≤ m.deadline, .approve id v t ∈ before := by
  obtain ⟨s1, s2, hbefore, hstep⟩ := h.split hacts
  cases hstep with
  | execute _ hpoll hlive htime hquorum =>
    have hp := hbefore.explained.2 id _ hpoll
    exact ⟨_, hp.proposed, htime, _, hp.nodup, hquorum, hp.approved⟩

/-- **A motion stays what it was when it was proposed.** -/
theorem proposed_kept (h : History acts s) (hmem : .propose id m ∈ acts) :
    ∃ p, s id = some p ∧ p.motion = m := by
  obtain ⟨hnone, hsome⟩ := h.explained
  cases hs : s id with
  | none => exact (hnone id hs _ hmem rfl).elim
  | some p => exact ⟨p, rfl, ((hsome id p hs).terms m hmem).symm⟩

end History

end Quorum
