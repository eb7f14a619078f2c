import Mathlib.Logic.Function.Basic
import Mathlib.Logic.Basic

/-!
# Calls: state-passing programs that either return or abort

A *call* runs on a state. It either returns a value together with the state it leaves behind, or it
aborts with an error and leaves nothing behind at all: the caller of an aborted call keeps the state
it had before. This is the execution model of a transactional host, where a trapped invocation is
rolled back as a whole.

The file gives the monad, its primitives, and two views of a call that proofs are written in:

* `Returns c s a s'`, the *run* view: `c` started in `s` returns `a` and leaves `s'`. One lemma per
  primitive (`returns_bind`, `returns_abortIf`, …) turns a statement about a program into a
  statement about its parts; together they are the simp set that executes a program symbolically.
  A proof that follows a program takes its run apart with their forward directions, `h.seq`, `h.check`
  and so on.
* `Preserves f c`, the *frame* view: whatever `c` does, the observation `f` of the state is the
  same afterwards. It composes along `>>=`, so a frame is read off the primitives a program uses.
  `Keeps f P c` is the weaker frame of an invariant: if `f` satisfied `P`, it still does.

`zoom` runs a call on a part of a larger state.
-/

/-- A program on states `σ` that returns an `α` or aborts with an `ε`. -/
def Call (ε σ α : Type) : Type := σ → Except ε (α × σ)

namespace Call

variable {ε σ α β γ δ τ : Type}
variable {x : Call ε σ α} {u : Unit} {c : Prop} {as : List α}
variable {o : Option α} {bs : List β} {t : τ} {ν : Type} {get : σ → τ} {put : τ → σ → σ}

/-- Run both, the second on the state the first leaves; the first abort ends the run. -/
def andThen (x : Call ε σ α) (f : α → Call ε σ β) : Call ε σ β := fun s =>
  match x s with
  | .ok (a, s') => f a s'
  | .error e => .error e

instance : Monad (Call ε σ) where
  pure a := fun s => .ok (a, s)
  bind := andThen

/-- Sequencing is associative. Stated for calls: with a `LawfulMonad` instance the simp set would
turn programs into maps and leave the run view. -/
theorem bind_bind (x : Call ε σ α) (f : α → Call ε σ β) (g : β → Call ε σ γ) :
    x >>= f >>= g = x >>= fun a => f a >>= g := by
  funext s
  change andThen (andThen x f) g s = andThen x (fun a => andThen (f a) g) s
  unfold andThen
  cases x s <;> rfl

theorem pure_then (a : α) (f : α → Call ε σ β) : (pure a : Call ε σ α) >>= f = f a := rfl

/-- End the run with `e`. -/
def abort (e : ε) : Call ε σ α := fun _ => .error e

/-- Read an observation of the state. -/
def view (f : σ → α) : Call ε σ α := fun s => .ok (f s, s)

/-- Replace the state. -/
def update (f : σ → σ) : Call ε σ Unit := fun s => .ok ((), f s)

/-- End the run with `e` when `c` holds, and do nothing otherwise. -/
def abortIf (c : Prop) [Decidable c] (e : ε) : Call ε σ Unit := fun s =>
  if c then .error e else .ok ((), s)

/-- The value of `o`, or the end of the run with `e` when there is none. -/
def orAbort (o : Option α) (e : ε) : Call ε σ α := fun s =>
  match o with
  | some a => .ok (a, s)
  | none => .error e

/-- `if c { x }`. -/
abbrev when (c : Prop) [Decidable c] (x : Call ε σ Unit) : Call ε σ Unit :=
  if c then x else pure ()

/-- `if let Some(a) = o { x(a) }`. -/
def onSome (o : Option α) (x : α → Call ε σ Unit) : Call ε σ Unit :=
  match o with
  | some a => x a
  | none => pure ()

/-- A computation on the state that may fail, run as a call. -/
def attempt (f : σ → Except ε (α × σ)) : Call ε σ α := f

/-- Run `c` for every element of a list, from left to right. -/
def each (c : α → Call ε σ Unit) : List α → Call ε σ Unit
  | [] => pure ()
  | a :: as => do
    c a
    each c as

/-- Run `c` for every element of a list, from left to right, and collect what it returns. -/
def collect (c : α → Call ε σ β) : List α → Call ε σ (List β)
  | [] => pure []
  | a :: as => do
    let b ← c a
    let bs ← collect c as
    pure (b :: bs)

/-- Run `c` for its effect on the state only. -/
abbrev discard (c : Call ε σ α) : Call ε σ Unit := do
  let _ ← c
  pure ()

/-! ### The run view -/

/-- `c`, started in `s`, returns `a` and leaves the state `s'`. -/
def Returns (c : Call ε σ α) (s : σ) (a : α) (s' : σ) : Prop := c s = .ok (a, s')

section Returns

variable {s s' : σ} {a : α} {b : β} {e : ε}

@[simp]
theorem returns_pure : Returns (pure a' : Call ε σ α) s a s' ↔ a' = a ∧ s = s' := by
  simp [Returns, pure]

@[simp]
theorem returns_bind :
    Returns (x >>= f) s b s' ↔ ∃ a s1, Returns x s a s1 ∧ Returns (f a) s1 b s' := by
  constructor
  · intro h
    change andThen x f s = _ at h
    unfold andThen at h
    split at h
    · rename_i a s1 hx
      exact ⟨a, s1, hx, h⟩
    · cases h
  · rintro ⟨a, s1, hx, hf⟩
    change andThen x f s = _
    simp only [andThen, show x s = .ok (a, s1) from hx]
    exact hf

@[simp high]
theorem returns_seq {x : Call ε σ Unit} :
    Returns (x >>= f) s b s' ↔ ∃ s1, Returns x s () s1 ∧ Returns (f ()) s1 b s' :=
  returns_bind.trans ⟨fun ⟨_, s1, h⟩ => ⟨s1, h⟩, fun ⟨s1, h⟩ => ⟨(), s1, h⟩⟩

@[simp]
theorem returns_abort : ¬ Returns (abort e : Call ε σ α) s a s' := by
  simp [Returns, abort]

@[simp]
theorem returns_view : Returns (view f : Call ε σ α) s a s' ↔ f s = a ∧ s = s' := by
  simp [Returns, view]

@[simp]
theorem returns_update : Returns (update f : Call ε σ Unit) s u s' ↔ f s = s' := by
  simp [Returns, update]

@[simp]
theorem returns_abortIf [Decidable c] :
    Returns (abortIf c e : Call ε σ Unit) s u s' ↔ ¬ c ∧ s = s' := by
  by_cases hc : c <;> simp [Returns, abortIf, hc]

@[simp]
theorem returns_orAbort : Returns (orAbort o e : Call ε σ α) s a s' ↔ o = some a ∧ s = s' := by
  cases o <;> simp [Returns, orAbort]

@[simp]
theorem returns_attempt : Returns (attempt f : Call ε σ α) s a s' ↔ f s = .ok (a, s') := Iff.rfl

theorem returns_ite [Decidable c] :
    Returns (if c then x else y) s a s' ↔ (c ∧ Returns x s a s') ∨ (¬ c ∧ Returns y s a s') := by
  by_cases hc : c <;> simp [hc]

@[simp]
theorem returns_when [Decidable c] {x : Call ε σ Unit} :
    Returns (when c x) s u s' ↔ (c ∧ Returns x s u s') ∨ (¬ c ∧ s = s') := by
  by_cases hc : c <;> simp [when, hc]

theorem returns_onSome {x : α → Call ε σ Unit} : Returns (onSome o x) s u s' ↔
      (∃ a, o = some a ∧ Returns (x a) s u s') ∨ (o = none ∧ s = s') := by
  cases o <;> simp [onSome]

@[simp]
theorem returns_each_nil {c : α → Call ε σ Unit} : Returns (each c []) s u s' ↔ s = s' := by
  simp [each]

@[simp]
theorem returns_each_cons {c : α → Call ε σ Unit} : Returns (each c (a :: as)) s u s' ↔
      ∃ s1, Returns (c a) s () s1 ∧ Returns (each c as) s1 u s' := by
  simp [each]

@[simp]
theorem returns_collect_nil {c : α → Call ε σ β} :
    Returns (collect c []) s bs s' ↔ [] = bs ∧ s = s' := by
  simp [collect]

@[simp]
theorem returns_collect_cons {c : α → Call ε σ β} : Returns (collect c (a :: as)) s bs s' ↔
      ∃ b' s1, Returns (c a) s b' s1 ∧
        ∃ bs' s2, Returns (collect c as) s1 bs' s2 ∧ b' :: bs' = bs ∧ s2 = s' := by
  simp [collect]

@[simp]
theorem returns_discard {c : Call ε σ α} : Returns (discard c) s u s' ↔ ∃ a, Returns c s a s' := by
  simp

/-- What follows a part that returns. -/
theorem Returns.bind_eq (h : Returns x s a s1) : (x >>= f) s = f a s1 := by
  change andThen x f s = _
  simp only [andThen, show x s = .ok (a, s1) from h]

/-- A part that only looks up hands what it finds to the rest. -/
theorem returns_lookup {P : α → Prop} (hx : ∀ a s1, Returns x s a s1 ↔ P a ∧ s = s1) :
    Returns (x >>= f) s b s' ↔ ∃ a, P a ∧ Returns (f a) s b s' := by
  rw [returns_bind]
  constructor
  · rintro ⟨a, s1, hfound, hrest⟩
    obtain ⟨hP, rfl⟩ := (hx ..).mp hfound
    exact ⟨a, hP, hrest⟩
  · rintro ⟨a, hP, hrest⟩
    exact ⟨a, s, (hx ..).mpr ⟨hP, rfl⟩, hrest⟩

theorem returns_orAbort_bind :
    Returns (orAbort o e >>= f) s b s' ↔ ∃ a, o = some a ∧ Returns (f a) s b s' :=
  returns_lookup fun _ _ => returns_orAbort

/-- A part that only checks leaves its condition, and the rest in the same state. -/
theorem returns_check {x : Call ε σ Unit} (hx : ∀ u s1, Returns x s u s1 ↔ P ∧ s = s1) :
    Returns (x >>= f) s b s' ↔ P ∧ Returns (f ()) s b s' :=
  (returns_lookup hx).trans ⟨fun ⟨_, h⟩ => h, fun h => ⟨(), h⟩⟩

theorem returns_abortIf_bind [Decidable c] :
    Returns (abortIf c e >>= f) s b s' ↔ ¬ c ∧ Returns (f ()) s b s' :=
  returns_check fun _ _ => returns_abortIf

/-- A part that only reads hands what it reads to the rest. -/
theorem returns_read (hx : ∀ a s1, Returns x s a s1 ↔ v = a ∧ s = s1) :
    Returns (x >>= f) s b s' ↔ Returns (f v) s b s' :=
  (returns_lookup hx).trans ⟨fun ⟨_, rfl, h⟩ => h, fun h => ⟨v, rfl, h⟩⟩

theorem returns_view_bind : Returns (view g >>= f) s b s' ↔ Returns (f (g s)) s b s' :=
  returns_read fun _ _ => returns_view

theorem returns_update_bind : Returns (update g >>= f) s b s' ↔ Returns (f ()) (g s) b s' := by
  simp

/-- `c`, started in `s`, returns, and what it returns passes the test `p`. -/
def passes (c : Call ε σ α) (s : σ) (p : α → σ → Bool) : Bool :=
  match c s with
  | .ok (a, s') => p a s'
  | .error _ => false

/-- A call that passes a test returns. -/
theorem exists_returns {c : Call ε σ α} {p : α → σ → Bool} (h : passes c s p = true) :
    ∃ a s', Returns c s a s' ∧ p a s' = true := by
  unfold passes at h
  split at h
  · rename_i a s' hc
    exact ⟨a, s', hc, h⟩
  · cases h

/-- **Loop rule.** A relation that holds of no iterations and is extended by one more iteration at
the front holds of the whole loop. -/
theorem Returns.each_induction {c : α → Call ε σ Unit} {R : List α → σ → σ → Prop}
    (hnil : ∀ s, R [] s s)
    (hcons : ∀ a as s s1 s2, Returns (c a) s () s1 → R as s1 s2 → R (a :: as) s s2)
    (h : Returns (each c as) s u s') : R as s s' := by
  induction as generalizing s with
  | nil =>
    rw [returns_each_nil] at h
    exact h ▸ hnil s
  | cons a as ih =>
    obtain ⟨s1, ha, has⟩ := returns_each_cons.mp h
    exact hcons a as s s1 s' ha (ih has)

end Returns

/-! ### The frame view -/

/-- Equal by computation; a class, so that it is found by unification. -/
class Same {τ : Type} (a b : τ) : Prop where
  eq : a = b

instance (a : τ) : Same a a := ⟨rfl⟩

/-- Whenever `c` returns, the observation `f` of the state is what it was. A class, so that the frame
of a program is inferred from the frames of its parts. -/
class Preserves (f : σ → τ) (c : Call ε σ α) : Prop where
  eq : ∀ {s : σ} {a : α} {s' : σ}, Returns c s a s' → f s' = f s

namespace Preserves

variable {f : σ → τ}

instance pure (a : α) : Preserves f (Pure.pure a : Call ε σ α) where
  eq h := by
    obtain ⟨-, rfl⟩ := returns_pure.mp h
    rfl

instance bind [Preserves f x] [∀ a, Preserves f (g a)] : Preserves f (x >>= g) where
  eq h := by
    obtain ⟨a, s1, h1, h2⟩ := returns_bind.mp h
    exact (Preserves.eq h2).trans (Preserves.eq h1)

theorem next [Preserves f x] (h : ∀ a, Preserves f (g a)) : Preserves f (x >>= g) :=
  bind

instance abort (e : ε) : Preserves f (Call.abort e : Call ε σ α) where
  eq h := (returns_abort h).elim

instance view (g : σ → α) : Preserves f (Call.view g : Call ε σ α) where
  eq h := by
    obtain ⟨-, rfl⟩ := returns_view.mp h
    rfl

/-- What a write leaves alone is a fact about the write. -/
theorem update (hg : ∀ s, f (g s) = f s) : Preserves f (Call.update g : Call ε σ Unit) where
  eq h := by rw [← returns_update.mp h, hg]

/-- A write that evidently leaves the observation alone. -/
instance (priority := low) [h : ∀ s, Same (f (g s)) (f s)] :
    Preserves f (Call.update g : Call ε σ Unit) := .update fun s => (h s).eq

instance abortIf (c : Prop) [Decidable c] (e : ε) :
    Preserves f (Call.abortIf c e : Call ε σ Unit) where
  eq h := by
    obtain ⟨-, rfl⟩ := returns_abortIf.mp h
    rfl

instance orAbort (o : Option α) (e : ε) : Preserves f (Call.orAbort o e : Call ε σ α) where
  eq h := by
    obtain ⟨-, rfl⟩ := returns_orAbort.mp h
    rfl

instance ite [Decidable c] [Preserves f x] [Preserves f y] :
    Preserves f (if c then x else y) := by
  split <;> infer_instance

instance onSome {x : α → Call ε σ Unit} [∀ a, Preserves f (x a)] : Preserves f (Call.onSome o x) := by
  unfold Call.onSome
  split <;> infer_instance

instance each {c : α → Call ε σ Unit} [∀ a, Preserves f (c a)] (as : List α) :
    Preserves f (Call.each c as) := by
  induction as with
  | nil => exact pure ()
  | cons a as ih => exact bind

instance {c : α → Call ε σ Unit} : Preserves f (Call.each c []) := pure ()

instance {c : α → Call ε σ Unit} [Preserves f (c a)] [Preserves f (Call.each c as)] :
    Preserves f (Call.each c (a :: as)) := bind

instance collect {c : α → Call ε σ β} [∀ a, Preserves f (c a)] (as : List α) :
    Preserves f (Call.collect c as) := by
  induction as with
  | nil => exact pure []
  | cons a as ih => exact bind

end Preserves

/-- **Skipping.** A part that preserves `f` is passed over: `f` still has the value `t` in the state
in which the rest runs. Most calls begin with several such parts, their checks. -/
theorem Returns.skip [Preserves f x] (ht : f s = t)
    (h : Returns (x >>= g) s b s') : ∃ a s1, f s1 = t ∧ Returns (g a) s1 b s' := by
  obtain ⟨a, s1, h1, h2⟩ := returns_bind.mp h
  exact ⟨a, s1, (Preserves.eq h1).trans ht, h2⟩

theorem Returns.skip₂ {g : α → Call ε σ β} {k : α → β → Call ε σ γ} [Preserves f x]
    [∀ a, Preserves f (g a)] {c : γ} (ht : f s = t)
    (h : Returns (x >>= fun a => g a >>= k a) s c s') :
    ∃ a b s1, f s1 = t ∧ Returns (k a b) s1 c s' := by
  obtain ⟨a, s1, ht, h⟩ := h.skip ht
  exact ⟨a, h.skip ht⟩

theorem Returns.skip₃ {g : α → Call ε σ β} {k : α → β → Call ε σ γ}
    {l : α → β → γ → Call ε σ δ} [Preserves f x] [∀ a, Preserves f (g a)]
    [∀ a b, Preserves f (k a b)] (ht : f s = t)
    (h : Returns (x >>= fun a => g a >>= fun b => k a b >>= l a b) s d s') :
    ∃ a b c s1, f s1 = t ∧ Returns (l a b c) s1 d s' := by
  obtain ⟨a, s1, ht, h⟩ := h.skip ht
  exact ⟨a, h.skip₂ ht⟩

theorem Returns.skip₄ {g : α → Call ε σ β} {k : α → β → Call ε σ γ}
    {l : α → β → γ → Call ε σ δ} {m : α → β → γ → δ → Call ε σ ν} [Preserves f x]
    [∀ a, Preserves f (g a)] [∀ a b, Preserves f (k a b)] [∀ a b c, Preserves f (l a b c)]
    (ht : f s = t)
    (h : Returns (x >>= fun a => g a >>= fun b => k a b >>= fun c => l a b c >>= m a b c) s n s') :
    ∃ a b c d s1, f s1 = t ∧ Returns (m a b c d) s1 n s' := by
  obtain ⟨a, s1, ht, h⟩ := h.skip ht
  exact ⟨a, h.skip₃ ht⟩

/-- A part that only reads is passed over. -/
theorem Returns.pass [Preserves id x] (h : Returns (x >>= g) s b s') : ∃ a, Returns (g a) s b s' := by
  obtain ⟨a, s1, h1, h2⟩ := returns_bind.mp h
  obtain rfl : s = s1 := (Preserves.eq (f := id) h1).symm
  exact ⟨a, h2⟩

theorem Returns.pass₃ {g : α → Call ε σ β} {k : α → β → Call ε σ γ} {l : α → β → γ → Call ε σ δ}
    [Preserves id x] [∀ a, Preserves id (g a)] [∀ a b, Preserves id (k a b)]
    (h : Returns (x >>= fun a => g a >>= fun b => k a b >>= l a b) s d s') :
    ∃ a b c, Returns (l a b c) s d s' := by
  obtain ⟨a, h⟩ := h.pass
  obtain ⟨b, h⟩ := h.pass
  exact ⟨a, b, h.pass⟩

/-- A last part that preserves `f` leaves its value. -/
theorem Returns.last [Preserves f x] (ht : f s = t) (h : Returns x s a s') : f s' = t :=
  (Preserves.eq h).trans ht

/-! ### Invariants -/

/-- Whenever `c` returns, the observation `f` of the state satisfies `P` if it did before. -/
class Keeps (f : σ → τ) (P : τ → Prop) (c : Call ε σ α) : Prop where
  keeps : ∀ {s : σ} {a : α} {s' : σ}, Returns c s a s' → P (f s) → P (f s')

namespace Keeps

variable {f : σ → τ} {P : τ → Prop}

instance (priority := low) of_preserves {c : Call ε σ α} [Preserves f c] : Keeps f P c where
  keeps h hs := by
    rw [Preserves.eq (f := f) h]
    exact hs

instance bind [Keeps f P x] [∀ a, Keeps f P (g a)] : Keeps f P (x >>= g) where
  keeps h hs := by
    obtain ⟨a, s1, h1, h2⟩ := returns_bind.mp h
    exact Keeps.keeps h2 (Keeps.keeps h1 hs)

instance ite [Decidable c] [Keeps f P x] [Keeps f P y] :
    Keeps f P (if c then x else y) := by
  split <;> infer_instance

instance onSome {x : α → Call ε σ Unit} [∀ a, Keeps f P (x a)] : Keeps f P (Call.onSome o x) := by
  unfold Call.onSome
  split <;> infer_instance

instance each {c : α → Call ε σ Unit} [∀ a, Keeps f P (c a)] (as : List α) :
    Keeps f P (Call.each c as) := by
  induction as with
  | nil => exact of_preserves
  | cons a as ih => exact bind

instance collect {c : α → Call ε σ β} [∀ a, Keeps f P (c a)] (as : List α) :
    Keeps f P (Call.collect c as) := by
  induction as with
  | nil => exact of_preserves (c := pure [])
  | cons a as ih => exact bind

end Keeps

/-! ### Calls on a part of the state -/

/-- Run `c` on the part `get` of the state, and put back what it leaves. -/
def zoom (get : σ → τ) (put : τ → σ → σ) (c : Call ε τ α) : Call ε σ α := fun s =>
  match c (get s) with
  | .ok (a, t) => .ok (a, put t s)
  | .error e => .error e

@[simp]
theorem returns_zoom {c : Call ε τ α} :
    Returns (zoom get put c) s a s' ↔ ∃ t, Returns c (get s) a t ∧ put t s = s' := by
  unfold Returns zoom
  cases c (get s) with
  | error e => simp
  | ok r => simp [Prod.ext_iff, and_assoc]

/-- What reads the part only leaves the whole as it was. -/
theorem Returns.zoom_eq {c : Call ε τ α} [Preserves id c] (h : Returns (zoom get put c) s a s')
    (hput : ∀ s, put (get s) s = s) : s = s' := by
  obtain ⟨t, hc, rfl⟩ := returns_zoom.mp h
  rw [show t = get s from Preserves.eq (f := id) hc, hput]

/-- A call on a part leaves alone what it leaves alone of the part. -/
theorem Preserves.zoom {c : Call ε τ α} (g : τ → ν) [Preserves g c]
    (hf : ∀ s t, g t = g (get s) → f (put t s) = f s) : Preserves f (zoom get put c) where
  eq {s _ _} h := by
    obtain ⟨t, hc, rfl⟩ := returns_zoom.mp h
    exact hf s t (Preserves.eq hc)

/-! ### Taking a run apart -/

alias ⟨Returns.bind, _⟩ := returns_bind
alias ⟨Returns.seq, _⟩ := returns_seq
alias ⟨Returns.view, _⟩ := returns_view_bind
alias ⟨Returns.write, _⟩ := returns_update_bind
alias ⟨Returns.check, _⟩ := returns_abortIf_bind
alias ⟨Returns.found, _⟩ := returns_orAbort_bind
alias ⟨Returns.pure, _⟩ := returns_pure
alias ⟨Returns.read, _⟩ := returns_view
alias ⟨Returns.passed, _⟩ := returns_abortIf
alias ⟨Returns.value, _⟩ := returns_orAbort
alias ⟨Returns.update, _⟩ := returns_update
alias ⟨Returns.when, _⟩ := returns_when
alias ⟨Returns.discard, _⟩ := returns_discard
alias ⟨Returns.next, _⟩ := returns_each_cons
alias ⟨Returns.done, _⟩ := returns_each_nil
alias ⟨Returns.zoom, _⟩ := returns_zoom

end Call
