import ElcareHub.Lib.Call
import Mathlib.Logic.Relation

/-!
# How an observation of the state evolves

A frame says that a call leaves an observation alone. When a call does change it, what matters is by
which changes: `Evolves f P S c` says that, from a state whose observation `f` satisfies `P`, a run of
`c` changes the observation by steps of `S` only, however many.

Like frames, evolutions are inferred from the parts of a program. Two parts follow each other when the
steps keep `P` (`Stable`), or when one of them leaves the observation alone. What a program has read
and checked on its way to a write is carried in `P` (`Evolves.load`) or in the rest of the program
(`Evolves.abortIf`, `Evolves.fact`), so that a write is judged where everything known about it is at
hand.
-/

namespace Call

open Relation (ReflTransGen)

variable {ε σ α β τ : Type}
variable {x : Call ε σ α} {g : α → Call ε σ β}
variable {c : Call ε σ α}

/-- From states that satisfy `P`, the observation `f` is changed by steps of `S` only. -/
class Evolves (f : σ → τ) (P : τ → Prop) (S : τ → τ → Prop) (c : Call ε σ α) : Prop where
  evolves : ∀ {s : σ} {a : α} {s' : σ}, P (f s) → Returns c s a s' → ReflTransGen S (f s) (f s')

/-- Every step of `S` keeps `P`. -/
class Stable (P : τ → Prop) (S : τ → τ → Prop) : Prop where
  step : ∀ {t t' : τ}, P t → S t t' → P t'

theorem Stable.steps [Stable P S] (ht : P t) (h : ReflTransGen S t t') : P t' := by
  induction h with
  | refl => exact ht
  | tail _ hstep ih => exact step ih hstep

namespace Evolves

variable {f : σ → τ} {P Q : τ → Prop} {S : τ → τ → Prop}

instance (priority := low) of_preserves [Preserves f c] : Evolves f P S c where
  evolves _ h := by
    rw [Preserves.eq (f := f) h]

instance bind [Stable P S] [Evolves f P S x] [∀ a, Evolves f P S (g a)] :
    Evolves f P S (x >>= g) where
  evolves hs h := by
    obtain ⟨a, s1, h1, h2⟩ := h.bind
    have hfirst := evolves (S := S) hs h1
    exact hfirst.trans (evolves (Stable.steps hs hfirst) h2)

/-- What leaves the observation alone may come first. -/
instance after [Preserves f x] [∀ a, Evolves f P S (g a)] : Evolves f P S (x >>= g) where
  evolves {s b s'} hs h := by
    obtain ⟨a, s1, e, h2⟩ := h.skip (f := f) rfl
    have hs1 : P (f s1) := e ▸ hs
    rw [← e]
    exact evolves hs1 h2

/-- `after`, with the rest of the program still to be judged. -/
theorem skip [Preserves f x] (h : ∀ a, Evolves f P S (g a)) : Evolves f P S (x >>= g) :=
  after

/-- What leaves the observation alone may come last. -/
instance before [Evolves f P S x] [∀ a, Preserves f (g a)] : Evolves f P S (x >>= g) where
  evolves hs h := by
    obtain ⟨a, s1, h1, h2⟩ := h.bind
    rw [Preserves.eq (f := f) h2]
    exact evolves hs h1

/-- A part judged with more knowledge than the steps keep may come first. -/
theorem next [Stable Q S] (hPQ : ∀ t, P t → Q t) (hx : Evolves f P S x)
    (hg : ∀ a, Evolves f Q S (g a)) : Evolves f P S (x >>= g) where
  evolves hs h := by
    obtain ⟨a, s1, h1, h2⟩ := h.bind
    have hfirst := hx.evolves hs h1
    exact hfirst.trans ((hg a).evolves (Stable.steps (hPQ _ hs) hfirst) h2)

theorem weaken (hPQ : ∀ t, P t → Q t) (h : Evolves f Q S c) : Evolves f P S c where
  evolves hs hreturns := h.evolves (hPQ _ hs) hreturns

/-- A write that makes one step. -/
theorem update {g : σ → σ} (hg : ∀ s, P (f s) → S (f s) (f (g s))) :
    Evolves f P S (Call.update g : Call ε σ Unit) where
  evolves hs h := by
    rw [← h.update]
    exact .single (hg _ hs)

/-- What was read from the observation is known of it. -/
theorem load {v : τ → α} (h : ∀ a, Evolves f (fun t => P t ∧ v t = a) S (g a)) :
    Evolves f P S (Call.view (fun s => v (f s)) >>= g) where
  evolves hs hreturns := by
    have hrest := hreturns.view
    exact (h _).evolves ⟨hs, rfl⟩ hrest

/-- What was checked is known of the rest. -/
theorem abortIf {c : Prop} [Decidable c] {g : Unit → Call ε σ β}
    (h : ¬ c → Evolves f P S (g ())) : Evolves f P S (Call.abortIf c e >>= g) where
  evolves hs hreturns := by
    obtain ⟨hc, hrest⟩ := hreturns.check
    exact (h hc).evolves hs hrest

/-- What is known of every result of a part is known of the rest. -/
theorem fact {φ : α → Prop} [Preserves f x] (hφ : ∀ {s a s'}, Returns x s a s' → φ a)
    (h : ∀ a, φ a → Evolves f P S (g a)) : Evolves f P S (x >>= g) where
  evolves hs hreturns := by
    obtain ⟨a, s1, hx, hrest⟩ := hreturns.bind
    have e : f s1 = f _ := Preserves.eq hx
    have hs1 : P (f s1) := e ▸ hs
    rw [← e]
    exact (h a (hφ hx)).evolves hs1 hrest

instance ite {c : Prop} [Decidable c] [Evolves f P S x] [Evolves f P S y] :
    Evolves f P S (if c then x else y) := by
  split <;> infer_instance

instance onSome {x : α → Call ε σ Unit} [∀ a, Evolves f P S (x a)] :
    Evolves f P S (Call.onSome o x) := by
  unfold Call.onSome
  split <;> infer_instance

instance each {c : α → Call ε σ Unit} [Stable P S] [∀ a, Evolves f P S (c a)] (as : List α) :
    Evolves f P S (Call.each c as) := by
  induction as with
  | nil => exact of_preserves
  | cons a as ih => exact bind

instance discard [Evolves f P S c] : Evolves f P S (Call.discard c) := by
  infer_instance

/-- A loop whose items are known. -/
theorem collect {c : α → Call ε σ β} [Stable P S]
    (h : ∀ a ∈ as, Evolves f P S (c a)) : Evolves f P S (Call.collect c as) := by
  induction as with
  | nil => exact of_preserves (c := pure [])
  | cons a as ih =>
    have hhead := h a List.mem_cons_self
    have htail := ih fun b hb => h b (List.mem_cons_of_mem a hb)
    unfold Call.collect
    infer_instance

end Evolves

end Call
