import Mathlib.Algebra.BigOperators.Group.List.Basic
import Mathlib.Algebra.Order.Group.Int

/-!
# Totals over a log

`tally p val es` adds up `val` over the entries of the log `es` that satisfy `p`. The lemmas say how
a total moves when the log grows; a statement about accounts is a statement about tallies.
-/

namespace Tally

variable {ε M : Type} [AddMonoid M]

/-- The sum of `val` over the entries of `es` that satisfy `p`. -/
def tally (p : ε → Bool) (val : ε → M) (es : List ε) : M := ((es.filter p).map val).sum

variable {p q : ε → Bool} {val : ε → M} {e : ε} {es fs : List ε}

@[simp]
theorem tally_nil : tally p val [] = 0 := rfl

theorem tally_cons : tally p val (e :: es) = (if p e then val e else 0) + tally p val es := by
  cases h : p e <;> simp [tally, h]

theorem tally_append : tally p val (es ++ fs) = tally p val es + tally p val fs := by
  simp [tally]

/-- A total over entries none of which count is zero. -/
theorem tally_eq_zero (h : ∀ e ∈ es, p e = false) : tally p val es = 0 := by
  have hnil : es.filter p = [] := List.filter_eq_nil_iff.mpr fun e he => by simp [h e he]
  simp [tally, hnil]

end Tally
