import ElcareHub.Lib.Call

/-!
# Two calls that do the same up to a relation

`Mirrors R c d` relates two programs on one state type: whenever `c` returns from `s`, then `d`
returns the same value from every `t` related to `s`, and the two leave related states. With `R` the
equality of everything but a log, it says that neither what is in the log nor what is written to it
makes a difference: `c` and `d` may log differently and still mirror each other.

Like a frame (`Preserves`), the relation is read off the parts of a program: it is a class, one
instance a combinator. Only reads and writes need an argument, that `R` hides nothing they look at.
-/

namespace Call

variable {ε σ α β : Type}

/-- Every run of `c` is matched by a run of `d` from any related state. -/
class Mirrors (R : σ → σ → Prop) (c d : Call ε σ α) : Prop where
  run : ∀ {s t : σ} {a : α} {s' : σ}, R s t → Returns c s a s' → ∃ t', Returns d t a t' ∧ R s' t'

namespace Mirrors

variable {R : σ → σ → Prop}

instance pure (a : α) : Mirrors R (Pure.pure a : Call ε σ α) (Pure.pure a) where
  run hR h := by
    obtain ⟨rfl, rfl⟩ := h.pure
    exact ⟨_, returns_pure.mpr ⟨rfl, rfl⟩, hR⟩

instance bind [hxy : Mirrors R x y]
    [hfg : ∀ a, Mirrors R (f a) (g a)] : Mirrors R (x >>= f) (y >>= g) where
  run hR h := by
    obtain ⟨a, s1, hx, hf⟩ := h.bind
    obtain ⟨t1, hy, hR1⟩ := hxy.run hR hx
    obtain ⟨t2, hg, hR2⟩ := (hfg a).run hR1 hf
    exact ⟨t2, returns_bind.mpr ⟨a, t1, hy, hg⟩, hR2⟩

/-- A read that looks at nothing `R` hides. -/
theorem view (hf : ∀ s t, R s t → f t = f s) :
    Mirrors R (Call.view f : Call ε σ α) (Call.view f) where
  run {s t _ _} hR h := by
    obtain ⟨rfl, rfl⟩ := h.read
    exact ⟨t, returns_view.mpr ⟨hf s t hR, rfl⟩, hR⟩

/-- Two writes that differ only where `R` does not look. -/
theorem update (hfg : ∀ s t, R s t → R (f s) (g t)) :
    Mirrors R (Call.update f : Call ε σ Unit) (Call.update g) where
  run {s t _ _} hR h := by
    obtain rfl := h.update
    exact ⟨g t, returns_update.mpr rfl, hfg s t hR⟩

instance orAbort (o : Option α) (e : ε) :
    Mirrors R (Call.orAbort o e : Call ε σ α) (Call.orAbort o e) where
  run {_ t _ _} hR h := by
    obtain ⟨ho, rfl⟩ := h.value
    exact ⟨t, returns_orAbort.mpr ⟨ho, rfl⟩, hR⟩

instance ite [Decidable c] [Mirrors R x x'] [Mirrors R y y'] :
    Mirrors R (if c then x else y) (if c then x' else y') := by
  split <;> infer_instance

instance onSome [∀ a, Mirrors R (x a) (y a)] : Mirrors R (Call.onSome o x) (Call.onSome o y) := by
  unfold Call.onSome
  split <;> infer_instance

instance each [∀ a, Mirrors R (c a) (d a)] (as : List α) :
    Mirrors R (Call.each c as) (Call.each d as) := by
  induction as with
  | nil => exact pure ()
  | cons a as ih => exact bind

instance collect [∀ a, Mirrors R (c a) (d a)] (as : List α) :
    Mirrors R (Call.collect c as) (Call.collect d as) := by
  induction as with
  | nil => exact pure []
  | cons a as ih => exact bind

end Mirrors

end Call
