import ElcareHub.Lib.Call

/-!
# Footprints: which components of the state a call may write

A state is seen through a family `f : (i : ι) → σ → V i` of components. A *footprint* is a list of
components, and `Within f S c` says that a run of `c` leaves every component outside `S` as it was.

A footprint is inferred from the parts of a program: a sequence stays within `S` when both parts do,
and a primitive write stays within every list that names the component it writes (`Lists`, found by
walking down the list). What is read only stays within every footprint, the empty one included.

For one component outside the footprint this is a frame (`Within.preserves`), so that one statement
per program gives the frames of all the components it has no business with; for an observation of
several components it is a frame when the observation ignores the whole footprint (`Ignores`).
-/

namespace Call

/-- `i` is one of the members of `S`; a class, so that membership in a list that is written out is
found by inference. -/
class Lists {ι : Type} (S : List ι) (i : ι) : Prop where
  mem : i ∈ S

instance Lists.head (i : ι) (S : List ι) : Lists (i :: S) i := ⟨List.mem_cons_self⟩

instance Lists.tail (i j : ι) (S : List ι) [h : Lists S i] : Lists (j :: S) i :=
  ⟨List.mem_cons_of_mem j h.mem⟩

instance Lists.left (i : ι) (S T : List ι) [h : Lists S i] : Lists (S ++ T) i :=
  ⟨List.mem_append_left T h.mem⟩

instance Lists.right (i : ι) (S T : List ι) [h : Lists T i] : Lists (S ++ T) i :=
  ⟨List.mem_append_right S h.mem⟩

variable {ε σ α β ι : Type} {V : ι → Type} {c x : Call ε σ α}
  {f : (i : ι) → σ → V i} {S : List ι}

/-- Whenever `c` returns, the components outside `S` are what they were. -/
class Within (f : (i : ι) → σ → V i) (S : List ι) (c : Call ε σ α) : Prop where
  preserves : ∀ i, i ∉ S → Preserves (f i) c

namespace Within

/-- What writes no component stays within every footprint. -/
instance (priority := low) of_preserves [∀ i, Preserves (f i) c] : Within f S c where
  preserves _ _ := inferInstance

instance bind [Within f S x] [∀ a, Within f S (g a)] : Within f S (x >>= g) where
  preserves i hi :=
    have := preserves (f := f) (c := x) i hi
    have (a : α) := preserves (f := f) (c := g a) i hi
    inferInstance

theorem next [Within f S x] (h : ∀ a, Within f S (g a)) : Within f S (x >>= g) :=
  bind

/-- A write stays within every list that names the component it changes. -/
theorem update (i : ι) [Lists S i] (hg : ∀ j s, j ≠ i → f j (g s) = f j s) :
    Within f S (Call.update g : Call ε σ Unit) where
  preserves j hj := .update fun s => hg j s fun hji => hj (hji ▸ Lists.mem)

/-- A computation that changes one component stays within every list that names it. -/
theorem attempt (i : ι) [Lists S i] (hg : ∀ j s a s', g s = .ok (a, s') → j ≠ i → f j s' = f j s) :
    Within f S (Call.attempt g : Call ε σ α) where
  preserves j hj := ⟨fun h => hg j _ _ _ h fun hji => hj (hji ▸ Lists.mem)⟩

instance ite {c : Prop} [Decidable c] [Within f S x] [Within f S y] :
    Within f S (if c then x else y) := by
  split <;> infer_instance

instance onSome {x : α → Call ε σ Unit} [∀ a, Within f S (x a)] : Within f S (Call.onSome o x) := by
  unfold Call.onSome
  split <;> infer_instance

instance each {c : α → Call ε σ Unit} [∀ a, Within f S (c a)] (as : List α) :
    Within f S (Call.each c as) := by
  induction as with
  | nil => exact of_preserves
  | cons a as ih => exact bind

instance collect {c : α → Call ε σ β} [∀ a, Within f S (c a)] (as : List α) :
    Within f S (Call.collect c as) := by
  induction as with
  | nil => exact of_preserves (c := pure [])
  | cons a as ih => exact bind

instance discard [Within f S c] : Within f S (Call.discard c) := by
  infer_instance

/-- The frame of a component outside the footprint. -/
theorem get_eq [h : Within f S c] {i : ι} (hreturns : Returns c s a s')
    (hi : i ∉ S) : f i s' = f i s :=
  (h.preserves i hi).eq hreturns

end Within

/-- The observation `g` does not notice what is written to the components in `S`. -/
class Ignores {σ τ : Type} (g : σ → τ) {ι : outParam Type} {V : outParam (ι → Type)}
    (f : outParam ((i : ι) → σ → V i)) (S : outParam (List ι)) : Prop where
  eq_of_outside : ∀ {s s' : σ}, (∀ i, i ∉ S → f i s' = f i s) → g s' = g s

/-- What stays within components that an observation ignores is not noticed by it. -/
instance (priority := low) Ignores.preserves [Ignores g f S]
    [h : Within f S c] : Preserves g c where
  eq hreturns := eq_of_outside fun i hi => (h.preserves i hi).eq hreturns

end Call
