import ElcareHub.Lib.Call
import Mathlib.Data.List.Basic

/-!
# Batches in two phases

A batch looks at all its items first and performs them afterwards, one by one. What it checks of an item
is checked in the state it was called in, not in the state its earlier items leave, so the batch and the
sequence of the single calls are different programs. `TwoPhase` names what makes them agree: performing an
item changes no guard of another one, performs the checks of the first phase again, and makes no check
pass that did not pass before. The rule is `TwoPhase.returns_collect`; items may occur more than once.
-/

namespace Call

variable {ε σ α β : Type} {s s' : σ}

/-! ### The first phase -/

/-- A first phase that only looks. -/
theorem returns_each_check (P : α → σ → Prop)
    (hc : ∀ x s u s', Returns (c x) s u s' ↔ P x s ∧ s = s') :
    Returns (each c l) s u s' ↔ (∀ x ∈ l, P x s) ∧ s = s' := by
  induction l with
  | nil => simp
  | cons x l ih =>
    rw [returns_each_cons, List.forall_mem_cons]
    constructor
    · rintro ⟨s1, hx, hrest⟩
      obtain ⟨hP, rfl⟩ := (hc ..).mp hx
      obtain ⟨hall, rfl⟩ := ih.mp hrest
      exact ⟨⟨hP, hall⟩, rfl⟩
    · rintro ⟨⟨hP, hall⟩, rfl⟩
      exact ⟨s, (hc ..).mpr ⟨hP, rfl⟩, ih.mpr ⟨hall, rfl⟩⟩

/-- The same when the items are numbered, and the numbers do not matter. -/
theorem returns_each_check_zipIdx (P : α → σ → Prop)
    (hc : ∀ p s u s', Returns (c p) s u s' ↔ P p.1 s ∧ s = s') {xs : List α} :
    Returns (each c xs.zipIdx) s u s' ↔ (∀ x ∈ xs, P x s) ∧ s = s' := by
  rw [returns_each_check (fun p => P p.1) hc]
  refine and_congr_left fun _ => ?_
  conv_rhs => rw [← List.zipIdx_map_fst 0 xs, List.forall_mem_map]

/-! ### The second phase -/

/-- Items that all return the same value. -/
theorem returns_collect_const :
    Returns (collect (fun x => c x >>= fun _ => pure b) xs) s bs s' ↔
      bs = List.replicate xs.length b ∧ Returns (each c xs) s () s' := by
  induction xs generalizing s bs with
  | nil => simp
  | cons x xs ih =>
    rw [returns_collect_cons, returns_each_cons]
    constructor
    · rintro ⟨b', s1, hx, bs', s2, hrest, rfl, rfl⟩
      obtain ⟨s3, hc, hdone⟩ := hx.seq
      obtain ⟨rfl, rfl⟩ := hdone.pure
      obtain ⟨rfl, heach⟩ := ih.mp hrest
      exact ⟨rfl, s3, hc, heach⟩
    · rintro ⟨rfl, s1, hc, heach⟩
      exact ⟨b, s1, returns_seq.mpr ⟨s1, hc, returns_pure.mpr ⟨rfl, rfl⟩⟩, _, s',
        ih.mpr ⟨rfl, heach⟩, rfl, rfl⟩

/-- How a single call and an item of a batch are related, in the states that satisfy `I`. The single call
checks `Guard` and then does what the batch does for the item, which includes the checks `Check` the batch
makes in its first phase. -/
structure TwoPhase (I : σ → Prop) (Guard Check : α → σ → Prop) (single inner : α → Call ε σ β) :
    Prop where
  single_iff : ∀ {x s b s'}, Returns (single x) s b s' ↔ Guard x s ∧ Returns (inner x) s b s'
  keeps : ∀ {x s b s'}, I s → Returns (inner x) s b s' → I s'
  guard_iff : ∀ {x y s b s'}, I s → Returns (inner x) s b s' → (Guard y s' ↔ Guard y s)
  checked : ∀ {x s b s'}, I s → Returns (inner x) s b s' → Check x s
  check_before : ∀ {x y s b s'}, I s → Returns (inner x) s b s' → Check y s' → Check y s

namespace TwoPhase

variable {I : σ → Prop} {Guard Check : α → σ → Prop} {single inner : α → Call ε σ β} {xs : List α}
  {bs : List β}

/-- What is performed would have passed the first phase. -/
theorem checked_all (h : TwoPhase I Guard Check single inner) (hs : I s)
    (hreturns : Returns (collect inner xs) s bs s') : ∀ x ∈ xs, Check x s := by
  induction xs generalizing s bs with
  | nil => exact fun x hx => by cases hx
  | cons x xs ih =>
    obtain ⟨b, s1, hx, bs', s2, hrest, -, rfl⟩ := returns_collect_cons.mp hreturns
    have hafter := ih (h.keeps hs hx) hrest
    exact List.forall_mem_cons.mpr
      ⟨h.checked hs hx, fun y hy => h.check_before hs hx (hafter y hy)⟩

/-- The single calls all succeed when the guards hold at the start and the items can be performed. -/
theorem returns_collect_single (h : TwoPhase I Guard Check single inner) (hs : I s) :
    Returns (collect single xs) s bs s' ↔
      (∀ x ∈ xs, Guard x s) ∧ Returns (collect inner xs) s bs s' := by
  induction xs generalizing s bs with
  | nil => simp
  | cons x xs ih =>
    rw [returns_collect_cons, returns_collect_cons, List.forall_mem_cons]
    constructor
    · rintro ⟨b, s1, hx, bs', s2, hrest, hbs, rfl⟩
      obtain ⟨hguard, hinner⟩ := h.single_iff.mp hx
      obtain ⟨hguards, hinners⟩ := (ih (h.keeps hs hinner)).mp hrest
      exact ⟨⟨hguard, fun y hy => (h.guard_iff hs hinner).mp (hguards y hy)⟩,
        b, s1, hinner, bs', s2, hinners, hbs, rfl⟩
    · rintro ⟨⟨hguard, hguards⟩, b, s1, hinner, bs', s2, hinners, hbs, rfl⟩
      have hafter : ∀ y ∈ xs, Guard y s1 := fun y hy => (h.guard_iff hs hinner).mpr (hguards y hy)
      exact ⟨b, s1, h.single_iff.mpr ⟨hguard, hinner⟩, bs', s2,
        (ih (h.keeps hs hinner)).mpr ⟨hafter, hinners⟩, hbs, rfl⟩

/-- **Two phases.** Single calls, one after the other, do what is done by guarding and checking every
item in the state at the start and performing the items then. -/
theorem returns_collect (h : TwoPhase I Guard Check single inner) (hs : I s) :
    Returns (collect single xs) s bs s' ↔
      (∀ x ∈ xs, Guard x s ∧ Check x s) ∧ Returns (collect inner xs) s bs s' := by
  rw [h.returns_collect_single hs]
  refine and_congr_left fun hreturns => ?_
  have hchecked := h.checked_all hs hreturns
  exact forall₂_congr fun x hx => (and_iff_left (hchecked x hx)).symm

end TwoPhase

end Call
