import ElcareHub.Lib.Evolve

/-!
# Registers

A register holds records under consecutive numbers. A record is entered under the next number and
edited afterwards, never dropped and never entered again. What may be entered and how a record may be
edited depends on the terms that stand beside the records, which no change touches.

The rules are for all changes of a register: `Register.forall_get` for what holds of every record,
`Register.kept` for how far a record can be from what it was, `Register.origin` for where a record comes
from. A program evolves a register (`Evolves`) when each of its writes does; what it writes under is the
number the record itself carries, which is the number it is held under (`Register.Keyed`).
-/

open Relation (ReflTransGen)

structure Register (τ ρ : Type) where
  terms : τ
  count : Nat
  get : Nat → Option ρ

namespace Register

open Function

variable {τ ρ : Type} {New : τ → Nat → ρ → Prop} {Edit : τ → ρ → ρ → Prop} {r r' : Register τ ρ}
  {n : Nat} {x x' : ρ}
variable {Edit' : τ → ρ → ρ → Prop} {S : ρ → ρ → Prop}

/-- One change of a register: a record is entered, or edited. -/
inductive Change (New : τ → Nat → ρ → Prop) (Edit : τ → ρ → ρ → Prop) (r : Register τ ρ) :
    Register τ ρ → Prop
  | enter (x : ρ) (hnew : New r.terms (r.count + 1) x) :
      Change New Edit r { r with
        count := r.count + 1, get := update r.get (r.count + 1) (some x) }
  | edit (n : Nat) (x x' : ρ) (hx : r.get n = some x) (hedit : Edit r.terms x x') :
      Change New Edit r { r with get := update r.get n (some x') }

namespace Change

theorem count_le (h : Change New Edit r r') : r.count ≤ r'.count := by
  cases h with
  | enter => exact Nat.le_succ _
  | edit => exact Nat.le_refl _

theorem mono (h : Change New Edit r r') (hedit : ∀ t x x', Edit t x x' → Edit' t x x') :
    Change New Edit' r r' := by
  cases h with
  | enter x hnew => exact .enter x hnew
  | edit n x x' hx he => exact .edit n x x' hx (hedit _ x x' he)

/-- A record held after a change was held before it, as it is or before an edit, or it is new. -/
theorem held (h : Change New Edit r r') (hx' : r'.get n = some x') :
    r.get n = some x' ∨ (∃ x, r.get n = some x ∧ Edit r.terms x x') ∨
      (n = r'.count ∧ New r.terms n x') := by
  cases h with
  | enter y hnew =>
    change update r.get (r.count + 1) (some y) n = some x' at hx'
    rw [update_apply] at hx'
    split at hx'
    · rename_i hn
      cases hx'
      exact .inr (.inr ⟨hn, hn ▸ hnew⟩)
    · exact .inl hx'
  | edit m y y' hy hedit =>
    change update r.get m (some y') n = some x' at hx'
    rw [update_apply] at hx'
    split at hx'
    · rename_i hn
      cases hx'
      exact .inr (.inl ⟨y, hn ▸ hy, hedit⟩)
    · exact .inl hx'

end Change

/-! ### Records and their numbers -/

/-- New records carry the number they are entered under, and edits leave it alone. -/
class Numbered (id : ρ → Nat) (New : τ → Nat → ρ → Prop) (Edit : τ → ρ → ρ → Prop) : Prop where
  new : ∀ {t n x}, New t n x → id x = n
  edit : ∀ {t x x'}, Edit t x x' → id x' = id x

/-- Edits that are made under a guard are edits. -/
instance Numbered.guarded {id : ρ → Nat} {Guard : ρ → ρ → Prop} [Numbered id New Edit] :
    Numbered id New fun t x x' => Edit t x x' ∧ Guard x x' where
  new h := Numbered.new Edit h
  edit h := Numbered.edit New h.1

/-- Records are held under the numbers they carry, and these have been given out. -/
structure Keyed (id : ρ → Nat) (r : Register τ ρ) : Prop where
  id_eq : ∀ {n x}, r.get n = some x → id x = n
  le_count : ∀ {n x}, r.get n = some x → n ≤ r.count

variable {id : ρ → Nat}

instance [Numbered id New Edit] : Call.Stable (Keyed id) (Change New Edit) where
  step {r r'} hr h := by
    have hle := h.count_le
    refine ⟨fun {n x} hx => ?_, fun {n x} hx => ?_⟩ <;>
      rcases h.held hx with hx | ⟨y, hy, hedit⟩ | ⟨hn, hnew⟩
    · exact hr.id_eq hx
    · exact (Numbered.edit New hedit).trans (hr.id_eq hy)
    · exact Numbered.new Edit hnew
    · exact Nat.le_trans (hr.le_count hx) hle
    · exact Nat.le_trans (hr.le_count hy) hle
    · exact Nat.le_of_eq hn

/-! ### Rules for all changes -/

theorem changes_terms_eq (h : ReflTransGen (Change New Edit) r r') : r'.terms = r.terms := by
  induction h with
  | refl => rfl
  | tail _ hchange ih => cases hchange <;> exact ih

/-- Changes by fewer edits are changes. -/
theorem changes_mono (h : ReflTransGen (Change New Edit) r r')
    (hedit : ∀ t x x', Edit t x x' → Edit' t x x') : ReflTransGen (Change New Edit') r r' := by
  induction h with
  | refl => exact .refl
  | tail _ hchange ih => exact ih.tail (hchange.mono hedit)

/-- What holds of new records and is kept by edits holds of all records. -/
theorem forall_get {I : ρ → Prop} (h : ReflTransGen (Change New Edit) r r')
    (hnew : ∀ n x, New r.terms n x → I x) (hedit : ∀ x x', Edit r.terms x x' → I x → I x')
    (hI : ∀ n x, r.get n = some x → I x) : ∀ n x, r'.get n = some x → I x := by
  induction h with
  | refl => exact hI
  | @tail r1 r2 hfront hchange ih =>
    intro n x' hx'
    have hterms := changes_terms_eq hfront
    rcases hchange.held hx' with hx | ⟨x, hx, he⟩ | ⟨-, hn⟩
    · exact ih n x' hx
    · exact hedit x x' (hterms ▸ he) (ih n x hx)
    · exact hnew n x' (hterms ▸ hn)

/-- A record that is held was held before the changes or has been entered by one of them, and is where
edits can have brought it. -/
theorem origin (hrefl : ∀ x, S x x) (htrans : ∀ x y z, S x y → S y z → S x z)
    (hS : ∀ t x x', Edit t x x' → S x x') (h : ReflTransGen (Change New Edit) r r')
    (hx' : r'.get n = some x') : ∃ x, S x x' ∧ (r.get n = some x ∨ New r.terms n x) := by
  -- the last change is looked at first: an edit leads to an earlier record, an entry ends the search
  induction h generalizing x' with
  | refl => exact ⟨x', hrefl x', .inl hx'⟩
  | @tail r1 r2 hfront hchange ih =>
    rcases hchange.held hx' with hx | ⟨x, hx, hedit⟩ | ⟨-, hnew⟩
    · exact ih hx
    · obtain ⟨y, hy, hsource⟩ := ih hx
      exact ⟨y, htrans y x x' hy (hS _ _ _ hedit), hsource⟩
    · rw [changes_terms_eq hfront] at hnew
      exact ⟨x', hrefl x', .inr hnew⟩

/-- A record is never dropped, and stays in every order that edits respect. -/
theorem kept [Numbered id New Edit] (hrefl : ∀ x, S x x) (htrans : ∀ x y z, S x y → S y z → S x z)
    (hS : ∀ t x x', Edit t x x' → S x x') (hkeyed : r.Keyed id)
    (h : ReflTransGen (Change New Edit) r r') (hx : r.get n = some x) :
    ∃ x', r'.get n = some x' ∧ S x x' := by
  induction h with
  | refl => exact ⟨x, hx, hrefl x⟩
  | @tail r1 r2 hfront hchange ih =>
    obtain ⟨y, hy, hxy⟩ := ih
    cases hchange with
    | enter z =>
      -- the new number is beyond all numbers in use
      have hn : n ≠ r1.count + 1 := by
        have hle := (Call.Stable.steps hkeyed hfront).le_count hy
        omega
      exact ⟨y, (update_of_ne hn ..).trans hy, hxy⟩
    | edit m z z' hz hedit =>
      by_cases hn : n = m
      · subst hn
        obtain rfl : y = z := Option.mem_unique hy hz
        exact ⟨z', update_self .., htrans _ _ _ hxy (hS _ _ _ hedit)⟩
      · exact ⟨y, (update_of_ne hn ..).trans hy, hxy⟩

/-! ### Programs that write a register -/

variable {ε σ : Type} {f : σ → Register τ ρ}

/-- Saving an edited record under the number it carries edits the register. -/
theorem evolves_save [Numbered id New Edit]
    (hg : ∀ s, f (g s) = { f s with get := update (f s).get (id x') (some x') })
    (hP : ∀ r, P r → r.Keyed id ∧ r.get n = some x ∧ Edit r.terms x x') :
    Call.Evolves f P (Change New Edit) (Call.update g : Call ε σ Unit) := by
  refine .update fun s hs => ?_
  obtain ⟨hkeyed, hx, hedit⟩ := hP (f s) hs
  have hid : id x' = n := (Numbered.edit New hedit).trans (hkeyed.id_eq hx)
  rw [hg, hid]
  exact .edit n x x' hx hedit

end Register
