import Mathlib.Algebra.BigOperators.Finprod
import Mathlib.Algebra.Order.BigOperators.Group.Finset
import Mathlib.Logic.Function.Basic

/-!
# Books of a multi-token ledger

A *book* says how many units of each token every account holds, and keeps beside the accounts a supply
counter for each token. It is changed by *entries*: so many units of a token go from one account to
another, where "no account" as the source means that they are issued and as the destination that they
are retired.

* `Posts` is what an entry does, stated without subtraction and without a modulus: what an account
  had and receives is what it has and gives. An entry that is posted is therefore exact.
* `Circulates b i` says that the accounts of `b` together hold the supply of token `i`. Posting keeps
  it (`Posts.circulates`): the accounts receive together what is issued and give what is retired.
* `Sound limit b` adds that no supply exceeds `limit`, and with it no account does
  (`Sound.balance_le`). It is the invariant of whole journals (`Sound.posting`).
-/

namespace MultiToken

open Function

variable {α ι : Type}
variable {i : ι} {n : ℕ}

structure Book (α ι : Type) where
  balance : α × ι → ℕ
  supply : ι → ℕ

/-- `units` of `token` go from `src` to `dst`. -/
structure Entry (α ι : Type) where
  src : Option α
  dst : Option α
  token : ι
  units : ℕ

/-- The accounts hold together what the counter says; in particular, finitely many hold anything. -/
def Circulates (b : Book α ι) (i : ι) : Prop :=
  (Function.support fun a => b.balance (a, i)).Finite ∧ ∑ᶠ a, b.balance (a, i) = b.supply i

structure Sound (limit : ℕ) (b : Book α ι) : Prop where
  circulates : ∀ i, Circulates b i
  supply_le : ∀ i, b.supply i ≤ limit

/-- An account holds no more than there is. -/
theorem Circulates.balance_le (h : Circulates b i) (a : α) : b.balance (a, i) ≤ b.supply i := by
  rw [← h.2]
  exact single_le_finsum a h.1 fun _ => Nat.zero_le _

theorem Sound.balance_le (h : Sound limit b) (a : α) (i : ι) : b.balance (a, i) ≤ limit :=
  (h.circulates i).balance_le a |>.trans (h.supply_le i)

/-- An empty book is sound. -/
theorem Sound.empty (limit : ℕ) : Sound limit (⟨fun _ => 0, fun _ => 0⟩ : Book α ι) where
  circulates i := ⟨by simp, by simp⟩
  supply_le _ := Nat.zero_le limit

/-! ### What an entry moves -/

variable [DecidableEq α] [DecidableEq ι]

/-- What `e` moves of token `i` at an end `o` that is the account `a`. -/
def Entry.at (e : Entry α ι) (o : Option α) (a : α) (i : ι) : ℕ :=
  if o = some a ∧ e.token = i then e.units else 0

/-- What `e` moves of token `i` at an end `o` that is an account. -/
def Entry.held (e : Entry α ι) (o : Option α) (i : ι) : ℕ :=
  if o.isSome ∧ e.token = i then e.units else 0

omit [DecidableEq α] [DecidableEq ι] in
theorem support_subset_of_add_eq {g' : α → ℕ} (h : ∀ a, f' a + g' a = f a + g a) :
    Function.support f' ⊆ Function.support f ∪ Function.support g := by
  intro a ha
  by_contra hout
  simp only [Set.mem_union, Function.mem_support] at hout
  have hsum := h a
  exact ha (by omega)

theorem Entry.support_at (e : Entry α ι) (o : Option α) (i : ι) :
    (Function.support fun a => e.at o a i).Finite := by
  -- only the account `o` itself counts
  refine (Set.Finite.of_finite_image ?_ (Option.some_injective α).injOn)
  refine (Set.finite_singleton o).subset ?_
  rintro _ ⟨a, ha, rfl⟩
  have hend : o = some a ∧ e.token = i := by
    by_contra hno
    exact ha (if_neg hno)
  exact hend.1.symm

/-- Over all accounts, what is moved at an end is counted once. -/
theorem Entry.finsum_at (e : Entry α ι) (o : Option α) (i : ι) : ∑ᶠ a, e.at o a i = e.held o i := by
  cases o with
  | none => simp [Entry.at, Entry.held]
  | some a =>
    have hother : ∀ b, b ≠ a → e.at (some a) b i = 0 := by
      intro b hb
      exact if_neg fun hend => hb (Option.some.inj hend.1).symm
    rw [finsum_eq_single _ a hother]
    simp [Entry.at, Entry.held]

/-- `e` takes `b` to `b'`. Units that are issued leave the supply within the limit. -/
structure Posts (limit : ℕ) (e : Entry α ι) (b b' : Book α ι) : Prop where
  balance : ∀ a i, b'.balance (a, i) + e.at e.src a i = b.balance (a, i) + e.at e.dst a i
  supply : ∀ i, b'.supply i + e.held e.src i = b.supply i + e.held e.dst i
  fits : e.src = none → b'.supply e.token ≤ limit

variable {limit : ℕ} {e : Entry α ι} {b b' : Book α ι}

theorem Posts.circulates (h : Posts limit e b b') (hb : Circulates b i) : Circulates b' i := by
  have hsrc := e.support_at e.src i
  have hdst := e.support_at e.dst i
  have hfinite : (Function.support fun a => b'.balance (a, i)).Finite :=
    (hb.1.union hdst).subset (support_subset_of_add_eq fun a => h.balance a i)
  refine ⟨hfinite, ?_⟩
  have htotal : ∑ᶠ a, b'.balance (a, i) + e.held e.src i = b.supply i + e.held e.dst i := by
    calc ∑ᶠ a, b'.balance (a, i) + e.held e.src i
        = ∑ᶠ a, (b'.balance (a, i) + e.at e.src a i) := by
          rw [finsum_add_distrib hfinite hsrc, e.finsum_at]
      _ = ∑ᶠ a, (b.balance (a, i) + e.at e.dst a i) := finsum_congr fun a => h.balance a i
      _ = b.supply i + e.held e.dst i := by
          rw [finsum_add_distrib hb.1 hdst, e.finsum_at, hb.2]
  have hsupply := h.supply i
  omega

/-- Only an issue raises a supply, and it is within the limit. -/
theorem Posts.supply_le (h : Posts limit e b b') (hb : ∀ i, b.supply i ≤ limit) (i : ι) :
    b'.supply i ≤ limit := by
  have hsupply := h.supply i
  have hbefore := hb i
  unfold Entry.held at hsupply
  by_cases hi : e.token = i
  · cases hsrc : e.src with
    | none =>
      rw [← hi]
      exact h.fits hsrc
    | some a =>
      rw [if_pos ⟨by simp [hsrc], hi⟩] at hsupply
      split_ifs at hsupply <;> omega
  · rw [if_neg fun hend => hi hend.2, if_neg fun hend => hi hend.2] at hsupply
    omega

/-! ### Journals -/

/-- The entries of a journal are posted one after the other. -/
def Posting (limit : ℕ) : List (Entry α ι) → Book α ι → Book α ι → Prop
  | [], b, b' => b = b'
  | e :: es, b, b' => ∃ b1, Posts limit e b b1 ∧ Posting limit es b1 b'

theorem posting_singleton (h : Posts limit e b b') : Posting limit [e] b b' := ⟨b', h, rfl⟩

/-- **Posting keeps a book sound.** -/
theorem Sound.posting (hb : Sound limit b) (h : Posting limit es b b') : Sound limit b' := by
  induction es generalizing b with
  | nil => exact h ▸ hb
  | cons e es ih =>
    obtain ⟨b1, hpost, hrest⟩ := h
    exact ih ⟨fun i => hpost.circulates (hb.circulates i), hpost.supply_le hb.supply_le⟩ hrest

/-! ### The three kinds of entries -/

/-- Units are issued to `a`. -/
def issue (a : α) (i : ι) (n : ℕ) : Entry α ι := ⟨none, some a, i, n⟩

/-- Units go from one account to another, which may be the same. -/
def move (src dst : α) (i : ι) (n : ℕ) : Entry α ι := ⟨some src, some dst, i, n⟩

/-- Units of `a` are retired. -/
def retire (a : α) (i : ι) (n : ℕ) : Entry α ι := ⟨some a, none, i, n⟩

/-- A counter to which something is added at one place. -/
theorem update_add_apply [DecidableEq κ] (f : κ → ℕ) (k j : κ) (n : ℕ) :
    update f k (f k + n) j = f j + (if k = j then n else 0) := by
  by_cases hj : k = j
  · rw [hj, Function.update_self, if_pos rfl]
  · rw [Function.update_of_ne (Ne.symm hj), if_neg hj, Nat.add_zero]

/-- A counter from which something that it has is taken at one place. -/
theorem update_sub_apply [DecidableEq κ] (f : κ → ℕ) (h : n ≤ f k) (j : κ) :
    update f k (f k - n) j + (if k = j then n else 0) = f j := by
  by_cases hj : k = j
  · rw [← hj, Function.update_self, if_pos rfl]
    omega
  · rw [Function.update_of_ne (Ne.symm hj), if_neg hj, Nat.add_zero]

theorem posts_issue (hfits : b.supply i + n ≤ limit) : Posts limit (issue a i n) b
      ⟨update b.balance (a, i) (b.balance (a, i) + n), update b.supply i (b.supply i + n)⟩ where
  balance a' j := by
    dsimp only
    rw [update_add_apply]
    simp [issue, Entry.at]
  supply j := by
    dsimp only
    rw [update_add_apply]
    simp [issue, Entry.held]
  fits _ := by simpa [issue] using hfits

/-- Units are taken from one account and added to the other as it is then. -/
theorem posts_move (henough : n ≤ b.balance (src, i)) : Posts limit (move src dst i n) b
      ⟨update (update b.balance (src, i) (b.balance (src, i) - n)) (dst, i)
        (update b.balance (src, i) (b.balance (src, i) - n) (dst, i) + n), b.supply⟩ where
  balance a j := by
    have htaken := update_sub_apply b.balance henough (a, j)
    dsimp only
    rw [update_add_apply]
    simp only [move, Entry.at, Option.some.injEq, Prod.mk.injEq] at htaken ⊢
    omega
  supply j := by simp [move, Entry.held]
  fits h := by simp [move] at h

/-- An account has what it retires, and there is no less than it has. -/
theorem posts_retire (henough : n ≤ b.balance (a, i)) (hb : Circulates b i) :
    Posts limit (retire a i n) b ⟨update b.balance (a, i) (b.balance (a, i) - n),
        update b.supply i (b.supply i - n)⟩ where
  balance a' j := by
    have htaken := update_sub_apply b.balance henough (a', j)
    simp only [retire, Entry.at] at htaken ⊢
    simpa using htaken
  supply j := by
    have htaken := update_sub_apply b.supply (henough.trans (hb.balance_le a)) j
    simpa [retire, Entry.held] using htaken
  fits h := by simp [retire] at h

end MultiToken
