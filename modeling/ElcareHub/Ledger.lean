import Mathlib.Algebra.Group.Int.Defs
import Mathlib.Algebra.Group.Nat.Defs
import Mathlib.Logic.Function.Basic

/-!
# The ledger the contracts run on

What every contract of the repository sees of the host: addresses, the ledger a call runs in, the
ranges of machine integers, and the balances of the payment tokens. Unsigned machine integers
(`u32`, `u64`, `u128`) are `Nat` and `i128` amounts are `Int`; the places where a contract's
arithmetic can leave the machine range abort in the functions that compute there.
-/

namespace ElcareHub

/-- The address of an account or a contract. -/
structure Address where
  num : Nat
  deriving DecidableEq

/-- A host symbol. -/
abbrev Symbol := String

/-! ### Calls -/

/-- What one call sees of the ledger it runs in: time, sequence number, who has authorised it, and
which token movements the token contracts refuse (frozen balances, missing authorisations, …). -/
structure Env where
  timestamp : Nat
  sequence : Nat
  auth : Address → Bool
  tokenRefuses : (token src dst : Address) → (amount : Int) → Bool

/-- The ledger at `timestamp`, for a call that `who` has signed; no token refuses a movement. -/
def Env.signedBy (who : Address) (timestamp : Nat) : Env where
  timestamp := timestamp
  sequence := 1
  auth a := decide (a = who)
  tokenRefuses _ _ _ _ := false

/-! ### Machine integers -/

/-- The largest values of the machine integers the contracts compute with. -/
def u32Max : Nat := 2 ^ 32 - 1
def u64Max : Nat := 2 ^ 64 - 1
def u128Max : Nat := 2 ^ 128 - 1
def i128Max : Int := 2 ^ 127 - 1
def i128Min : Int := -2 ^ 127

/-- `checked_add`, `checked_sub`, `checked_mul` and `checked_div` on `i128`. -/
def checkedI128 (x : Int) : Option Int := if i128Min ≤ x ∧ x ≤ i128Max then some x else none

/-- `saturating_add` on `u64`. -/
def saturatingAddU64 (a b : Nat) : Nat := min (a + b) u64Max

/-- `saturating_add` on `u32`. -/
def saturatingAddU32 (a b : Nat) : Nat := min (a + b) u32Max

/-! ### Token balances -/

/-- The balances after `amount` units of `token` moved from `src` to `dst`. -/
def moveBalance (b : Address × Address → Int) (token src dst : Address) (amount : Int) :
    Address × Address → Int :=
  let b' := Function.update b (token, src) (b (token, src) - amount)
  Function.update b' (token, dst) (b' (token, dst) + amount)

/-- The token contract refuses to move `amount`: a negative amount, or more than `src` holds. -/
def TransferRefused (env : Env) (b : Address × Address → Int) (token src dst : Address)
    (amount : Int) : Prop :=
  amount < 0 ∨ b (token, src) < amount ∨ env.tokenRefuses token src dst amount

instance (env : Env) (b : Address × Address → Int) (token src dst : Address) (amount : Int) :
    Decidable (TransferRefused env b token src dst amount) :=
  inferInstanceAs (Decidable (_ ∨ _ ∨ _))

end ElcareHub
