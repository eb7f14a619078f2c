import Mathlib.Logic.Function.Basic

/-!
# Tables

A table holds at most one row under every number.
-/

namespace Table

variable {α : Type}

/-- Put `a` under `k`. -/
def put (t : Nat → Option α) (k : Nat) (a : α) : Nat → Option α := Function.update t k (some a)

variable {t : Nat → Option α} {k j : Nat} {a : α}

@[simp]
theorem put_self : put t k a k = some a := Function.update_self ..

end Table
