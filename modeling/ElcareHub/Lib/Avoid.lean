import ElcareHub.Lib.Call

/-!
# Errors a call cannot end with

`Avoids e c` says that no run of `c` aborts with the error `e`. Like frames, it is inferred from the
parts of a program. Where a part can abort with `e` in some states only, the program is followed up to
that part: what avoids `e` has returned when the whole aborts with `e` (`aborts_next`).
-/

namespace Call

variable {ε σ α β : Type} {e : ε} {s : σ}
variable {x : Call ε σ α} {g : α → Call ε σ β} {c : α → Call ε σ Unit} {e' : ε}

/-- No run of `c` aborts with `e`. -/
class Avoids (e : ε) (c : Call ε σ α) : Prop where
  ne : ∀ s, c s ≠ .error e

theorem bind_eq_error :
    (x >>= g) s = .error e ↔ x s = .error e ∨ ∃ a s', Returns x s a s' ∧ g a s' = .error e := by
  change andThen x g s = .error e ↔ _
  unfold andThen Returns
  cases x s with
  | error e' => simp
  | ok r =>
    obtain ⟨a, s'⟩ := r
    constructor
    · intro h
      exact .inr ⟨a, s', rfl, h⟩
    · rintro (h | ⟨_, _, hreturns, h⟩)
      · cases h
      · cases hreturns
        exact h

theorem abortIf_eq_error {c : Prop} [Decidable c] :
    (abortIf c e' : Call ε σ Unit) s = .error e ↔ c ∧ e' = e := by
  by_cases hc : c <;> simp [abortIf, hc]

theorem orAbort_eq_error : (orAbort o e' : Call ε σ α) s = .error e ↔ o = none ∧ e' = e := by
  cases o <;> simp [orAbort]

theorem zoom_eq_error {get : σ → τ} {c : Call ε τ α} :
    zoom get put c s = .error e ↔ c (get s) = .error e := by
  unfold zoom
  cases c (get s) <;> simp

/-- A part that avoids `e` has returned when the rest aborts with `e`. -/
theorem aborts_next [Avoids e x] (h : (x >>= g) s = .error e) :
    ∃ a s', Returns x s a s' ∧ g a s' = .error e :=
  (bind_eq_error.mp h).resolve_left (Avoids.ne s)

namespace Avoids

instance pure (a : α) : Avoids e (Pure.pure a : Call ε σ α) where
  ne _ h := by cases h

instance view (f : σ → α) : Avoids e (Call.view f) where
  ne _ h := by cases h

instance update (f : σ → σ) : Avoids e (Call.update f) where
  ne _ h := by cases h

instance (a : α) : Avoids e (Call.orAbort (some a) e' : Call ε σ α) where
  ne _ h := by cases h

/-- A missing value is reported by another error. -/
theorem orAbort (he : e' ≠ e) (o : Option α) : Avoids e (Call.orAbort o e' : Call ε σ α) where
  ne _ h := by
    cases o with
    | none => exact he (Except.error.inj h)
    | some a => cases h

instance bind [Avoids e x] [∀ a, Avoids e (g a)] : Avoids e (x >>= g) where
  ne _ h := by
    obtain ⟨a, s', -, hrest⟩ := aborts_next h
    exact ne s' hrest

instance ite {c : Prop} [Decidable c] [Avoids e x] [Avoids e y] :
    Avoids e (if c then x else y) := by
  split <;> infer_instance

instance each [∀ a, Avoids e (c a)] (as : List α) : Avoids e (Call.each c as) := by
  induction as with
  | nil => exact pure ()
  | cons a as ih => exact bind

theorem each_of_mem (hc : ∀ a ∈ as, Avoids e (c a)) : Avoids e (Call.each c as) := by
  induction as with
  | nil => exact pure ()
  | cons a as ih =>
    have ha := hc a List.mem_cons_self
    have has := ih fun b hb => hc b (List.mem_cons_of_mem _ hb)
    exact bind

end Avoids

end Call
