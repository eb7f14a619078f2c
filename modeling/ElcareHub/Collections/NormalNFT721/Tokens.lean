import ElcareHub.Collections.NormalNFT721

/-!
# What an invocation can do to the tokens

`Tokens` is the part of the state that says who owns and may move what, `Tokens.Move` the moves the
contract makes on it, each with the right it is made by. `op_moves` shows that every entry point makes
one move, so that an invariant of the tokens is shown move by move and the entry points are not
unfolded again.
-/

namespace ElcareHub.NormalNFT721

open Call hiding update
open Collection Function

set_option synthInstance.maxSize 100000000

variable {i : Nat} {a spender src dst recipient : Address} {uri : String} {uris : List String}
  {expiresAt : Option Nat}
variable {owner operator newCreator : Address} {op : Op}

/-! ### Tokens and moves -/

structure Tokens where
  initialized : Bool
  creator : Option Address
  approvedForAll : Address × Address → Bool
  approvedForAllExpiry : Address × Address → Option Nat
  owner : Nat → Option Address
  approved : Nat → Option Address
  approvedExpiry : Nat → Option Nat
  balanceOf : Address → Nat
  nextTokenId : Nat
  totalSupply : Nat

abbrev State.tokens (s : State) : Tokens where
  initialized := s.base.initialized
  creator := s.base.creator
  approvedForAll := s.base.approvedForAll
  approvedForAllExpiry := s.base.approvedForAllExpiry
  owner := s.owner
  approved := s.approved
  approvedExpiry := s.approvedExpiry
  balanceOf := s.balanceOf
  nextTokenId := s.nextTokenId
  totalSupply := s.totalSupply

namespace Tokens

/-- `operator` may act for `owner`. -/
def Operates (t : Tokens) (sequence : Nat) (owner operator : Address) : Prop :=
  t.approvedForAll (owner, operator) = true ∧
    lapsed sequence (t.approvedForAllExpiry (owner, operator)) = false

/-- `spender` may move token `i`, on its own approval or as an operator of `owner`. -/
def MayMove (t : Tokens) (sequence : Nat) (owner spender : Address) (i : Nat) : Prop :=
  (t.approved i = some spender ∧ lapsed sequence (t.approvedExpiry i) = false) ∨
    t.Operates sequence owner spender

def clearApproval (t : Tokens) (i : Nat) : Tokens :=
  { t with
    approved := update t.approved i none
    approvedExpiry := update t.approvedExpiry i none }

def setOwner (t : Tokens) (i : Nat) (owner : Option Address) : Tokens :=
  { t with owner := update t.owner i owner }

def setBalance (t : Tokens) (account : Address) (n : Nat) : Tokens :=
  { t with balanceOf := update t.balanceOf account n }

def setCounters (t : Tokens) (nextTokenId totalSupply : Nat) : Tokens :=
  { t with nextTokenId, totalSupply }

/-- The `n` tokens from `first` on go to `recipient`. -/
def give (t : Tokens) (first n : Nat) (recipient : Address) : Tokens :=
  { t with owner := fun i => if first ≤ i ∧ i < first + n then some recipient else t.owner i }

/-- The next `n` tokens are minted to `recipient`. -/
def mint (t : Tokens) (recipient : Address) (n : Nat) : Tokens :=
  ((t.give t.nextTokenId n recipient).setBalance recipient (t.balanceOf recipient + n)).setCounters
    (t.nextTokenId + n) (t.totalSupply + n)

def transfer (t : Tokens) (src dst : Address) (i : Nat) : Tokens :=
  let t' := (t.clearApproval i).setBalance src (t.balanceOf src - 1)
  (t'.setBalance dst (t'.balanceOf dst + 1)).setOwner i (some dst)

def burn (t : Tokens) (owner : Address) (i : Nat) : Tokens :=
  (((t.setBalance owner (t.balanceOf owner - 1)).setOwner i none).clearApproval i).setCounters
    t.nextTokenId (t.totalSupply - 1)

theorem give_zero (t : Tokens) (first : Nat) (recipient : Address) :
    t.give first 0 recipient = t := by
  have howner : (fun i => if first ≤ i ∧ i < first + 0 then some recipient else t.owner i) =
      t.owner := funext fun i => if_neg (by omega)
  rw [give, howner]

/-- The first token is handed out, then the others. -/
theorem give_succ (t : Tokens) (first n : Nat) (recipient : Address) :
    (t.setOwner first (some recipient)).give (first + 1) n recipient =
      t.give first (n + 1) recipient := by
  have howner (i : Nat) :
      (if first + 1 ≤ i ∧ i < first + 1 + n then some recipient
        else update t.owner first (some recipient) i) =
      if first ≤ i ∧ i < first + (n + 1) then some recipient else t.owner i := by
    by_cases hi : i = first
    · rw [hi, if_neg (by omega), update_self, if_pos (by omega)]
    · rw [update_of_ne hi]
      exact if_congr (by omega) rfl rfl
  simp only [give, setOwner, howner]

/-- One invocation made in `env`. -/
inductive Move (env : Env) (t : Tokens) : Tokens → Prop
  | skip : Move env t t
  | setUp (creator : Address) (hfresh : t.initialized = false) :
      Move env t
        { t with initialized := true, creator := some creator, nextTokenId := 0, totalSupply := 0 }
  | succession (creator : Address) (hcreator : t.creator.isSome) :
      Move env t { t with creator := some creator }
  | mint (recipient : Address) (n : Nat) (hcreator : t.creator.isSome) :
      Move env t (t.mint recipient n)
  | transfer (src dst : Address) (i : Nat) (howner : t.owner i = some src)
      (hright : env.auth src = true ∨
        ∃ spender, env.auth spender = true ∧ t.MayMove env.sequence src spender i) :
      Move env t (t.transfer src dst i)
  | burn (owner spender : Address) (i : Nat) (howner : t.owner i = some owner)
      (hauth : env.auth spender = true) (hright : t.MayMove env.sequence owner spender i) :
      Move env t (t.burn owner i)
  | approve (owner spender approved : Address) (i : Nat) (expiresAt : Option Nat)
      (howner : t.owner i = some owner) (hauth : env.auth spender = true)
      (hright : spender = owner ∨ t.Operates env.sequence owner spender) :
      Move env t
        { t with
          approved := update t.approved i (some approved)
          approvedExpiry := update t.approvedExpiry i expiresAt }
  | revoke (owner : Address) (i : Nat) (howner : t.owner i = some owner)
      (hauth : env.auth owner = true) : Move env t (t.clearApproval i)
  | operator (owner operator : Address) (approved : Bool) (expiresAt : Option Nat)
      (hauth : env.auth owner = true) :
      Move env t
        { t with
          approvedForAll := update t.approvedForAll (owner, operator) approved
          approvedForAllExpiry :=
            update t.approvedForAllExpiry (owner, operator) expiresAt }

end Tokens

/-! ### Calls that leave the tokens alone -/

/-- The part of the shared storage that the tokens include. -/
abbrev rights (b : Base) :
    Bool × Option Address × (Address × Address → Bool) × (Address × Address → Option Nat) :=
  (b.initialized, b.creator, b.approvedForAll, b.approvedForAllExpiry)

section Frames

variable {τ : Type} {env : Env}

instance {α : Type} (c : Call (Fault Error) Base α) [Preserves rights c] :
    Preserves State.tokens (onBase c) :=
  .zoom rights fun s b hrights => by
    simp only [rights, Prod.mk.injEq] at hrights
    simp [State.tokens, hrights]

end Frames

/-! ### The parts of the entry points -/

section Parts

variable {env : Env} {s s' : State} {u : Unit}

theorem returns_requireOwner : Returns (requireOwner i) s a s' ↔ s.owner i = some a ∧ s = s' := by
  simp

/-- A call of the creator finds one. -/
theorem returns_onlyCreator (h : Returns (onlyCreator env) s a s') :
    s.tokens.creator.isSome ∧ s'.tokens = s.tokens := by
  refine ⟨?_, Preserves.eq h⟩
  obtain ⟨b, hb, -⟩ := h.zoom
  exact Option.isSome_iff_exists.mpr ⟨a, (Collection.returns_onlyCreator.mp hb).1⟩

theorem operates_iff :
    s.tokens.Operates n owner operator ↔ s.base.isApprovedForAll n owner operator = true := by
  simp [Tokens.Operates, Base.isApprovedForAll]

theorem returns_checkApproved (h : Returns (checkApproved env spender src i) s u s') :
    s.tokens.MayMove env.sequence src spender i ∧ s = s' := by
  simp only [returns_bind, returns_abortIf] at h
  obtain ⟨t, s1, ⟨rfl, rfl⟩, hright, rfl⟩ := h
  refine ⟨?_, rfl⟩
  by_cases hmine : s.isApproved env.sequence spender i = true
  · simp only [State.isApproved, Bool.and_eq_true, decide_eq_true_eq, Bool.not_eq_true'] at hmine
    exact .inl hmine
  · have hoperator : s.base.isApprovedForAll env.sequence src spender = true := by
      simpa using fun h => hright ⟨by simpa using hmine, h⟩
    exact .inr (operates_iff.mpr hoperator)

theorem clearApproval_tokens (h : Returns (clearApproval i) s u s') :
    s'.tokens = s.tokens.clearApproval i := by
  rw [← h.update]
  rfl

theorem setOwner_tokens {a : Option Address} (h : Returns (setOwner i a) s u s') :
    s'.tokens = s.tokens.setOwner i a := by
  rw [← h.update]
  rfl

theorem setBalance_tokens {n : Nat} (h : Returns (setBalance a n) s u s') :
    s'.tokens = s.tokens.setBalance a n := by
  rw [← h.update]
  rfl

/-- A balance that is read is that of the tokens. -/
theorem returns_balance {n : Nat} {t : Tokens} (e : s.tokens = t)
    (h : Returns (view fun s => s.balanceOf a : Tx Nat) s n s') :
    n = t.balanceOf a ∧ s'.tokens = t := by
  obtain ⟨rfl, rfl⟩ := h.read
  exact ⟨congrFun (congrArg Tokens.balanceOf e) a, e⟩

theorem transferToken_tokens (h : Returns (transferToken src dst i) s u s') :
    s.tokens.owner i = some src ∧ s'.tokens = s.tokens.transfer src dst i := by
  obtain ⟨s1, hclear, h⟩ := h.seq
  have e1 := clearApproval_tokens hclear
  obtain ⟨a, s2, hfound, h⟩ := h.bind
  obtain ⟨howner, rfl⟩ := returns_requireOwner.mp hfound
  obtain ⟨hsrc, h⟩ := h.check
  obtain rfl : a = src := by simpa using hsrc
  obtain ⟨bal, s2, hbal, h⟩ := h.bind
  obtain ⟨rfl, e2⟩ := returns_balance e1 hbal
  obtain ⟨s3, hset, h⟩ := h.seq
  have e3 := setBalance_tokens hset
  obtain ⟨bal', s4, hbal', h⟩ := h.bind
  obtain ⟨rfl, e4⟩ := returns_balance e3 hbal'
  obtain ⟨-, h⟩ := returns_addUpTo_bind.mp h
  obtain ⟨s6, hset', h⟩ := h.seq
  have e6 := setBalance_tokens hset'
  obtain ⟨s7, hown, h⟩ := h.seq
  refine ⟨(congrFun (congrArg Tokens.owner e1) i).symm.trans howner, ?_⟩
  rw [h.last (setOwner_tokens hown), e6, e4, e2]
  rfl

theorem doMint_tokens (h : Returns (doMint recipient s.nextTokenId uri) s u s') :
    s'.tokens = s.tokens.mint recipient 1 := by
  obtain ⟨s1, hown, h⟩ := h.seq
  have e1 := setOwner_tokens hown
  obtain ⟨_, s2, e2, h⟩ := h.skip e1
  obtain ⟨bal, s3, hbal, h⟩ := h.bind
  obtain ⟨rfl, e3⟩ := returns_balance e2 hbal
  obtain ⟨-, h⟩ := returns_addUpTo_bind.mp h
  obtain ⟨s5, hset, h⟩ := h.seq
  have e5 := (setBalance_tokens hset).trans (congrArg (Tokens.setBalance · _ _) e3)
  simp only [returns_bind, returns_update] at h
  obtain ⟨next, s6, ⟨rfl, rfl⟩, m, s7, hnext, -, s8, rfl, supply, s9, ⟨rfl, rfl⟩, k, s10, hsupply,
    rfl⟩ := h
  obtain ⟨rfl, rfl⟩ := returns_addUpTo hnext
  obtain ⟨rfl, rfl⟩ := returns_addUpTo hsupply
  have hcount : (s5.tokens.setCounters (s5.tokens.nextTokenId + 1) (s5.tokens.totalSupply + 1)) =
      s.tokens.mint recipient 1 := by
    rw [e5, Tokens.mint, ← Tokens.give_succ, Tokens.give_zero]
    rfl
  exact hcount

/-- The loop of `batch_mint` gives the next tokens to the recipient and counts them. -/
theorem batchMintLoop_tokens (h : Returns (batchMintLoop recipient n uris) s m s') :
    m = ⟨n.nextTokenId + uris.length, n.totalSupply + uris.length, n.balance + uris.length⟩ ∧
      s'.tokens = s.tokens.give n.nextTokenId uris.length recipient := by
  induction uris generalizing n s with
  | nil =>
    obtain ⟨rfl, rfl⟩ := h.pure
    exact ⟨rfl, (Tokens.give_zero ..).symm⟩
  | cons uri uris ih =>
    obtain ⟨s1, hown, h⟩ := h.seq
    obtain ⟨_, s2, e2, h⟩ := h.skip (setOwner_tokens hown)
    simp only [returns_bind] at h
    obtain ⟨a, s3, ha, b, s4, hb, c, s5, hc, h⟩ := h
    obtain ⟨rfl, rfl⟩ := returns_addUpTo ha
    obtain ⟨rfl, rfl⟩ := returns_addUpTo hb
    obtain ⟨rfl, rfl⟩ := returns_addUpTo hc
    obtain ⟨rfl, htokens⟩ := ih h
    refine ⟨by simp only [List.length_cons, BatchCounters.mk.injEq]; omega, ?_⟩
    rw [htokens, e2, Tokens.give_succ, List.length_cons]

end Parts

/-! ### Entry points -/

section Ops

variable {env : Env} {s s' : State} {u : Unit}

theorem initializeCollection_tokens
    (h : Returns (initializeCollection creator name symbol maxSupply bps receiver) s u s') :
    s.tokens.initialized = false ∧ s'.maxSupply = some maxSupply ∧ s'.tokens =
        { s.tokens with
          initialized := true
          creator := some creator
          nextTokenId := 0
          totalSupply := 0 } := by
  simp only [returns_bind, returns_abortIf, returns_update] at h
  obtain ⟨init, s1, ⟨rfl, rfl⟩, -, s2, ⟨hfresh, rfl⟩, -, s3, ⟨-, s4, ⟨-, rfl⟩, -, rfl⟩, -, s5,
    ⟨-, s6, ⟨-, rfl⟩, -, rfl⟩, -, s7, ⟨-, rfl⟩, -, s8, ⟨-, rfl⟩, -, s9, ⟨b, rfl, rfl⟩, rfl⟩ := h
  exact ⟨show s.base.initialized = false by simpa using hfresh, rfl, rfl⟩

/-- `mint` gives out one token, within the maximum supply. -/
theorem mint_tokens (h : Returns (mint env recipient uri) s i s') :
    s.tokens.creator.isSome ∧ s.nextTokenId + 1 ≤ s.maxSupply.getD u64Max ∧
      s'.tokens = s.tokens.mint recipient 1 := by
  obtain ⟨creator, s1, hcreator, h⟩ := h.bind
  obtain ⟨hsome, -⟩ := returns_onlyCreator hcreator
  obtain rfl : s = s1 := hcreator.zoom_eq fun _ => rfl
  obtain ⟨_, h⟩ := h.pass
  obtain ⟨_, h⟩ := h.pass
  replace h := h.view.view
  obtain ⟨hcap, h⟩ := h.check
  obtain ⟨s1, hmint, h⟩ := h.seq
  refine ⟨hsome, by omega, ?_⟩
  rw [h.last (doMint_tokens hmint)]

/-- `batch_mint` gives out a token per URI, within the maximum supply. -/
theorem batchMint_tokens (h : Returns (batchMint env recipient uris) s u s') :
    s.tokens.creator.isSome ∧ s.nextTokenId + uris.length ≤ s.maxSupply.getD u64Max ∧
      s'.tokens = s.tokens.mint recipient uris.length := by
  obtain ⟨creator, s1, hcreator, h⟩ := h.bind
  obtain ⟨hsome, -⟩ := returns_onlyCreator hcreator
  obtain rfl : s = s1 := hcreator.zoom_eq fun _ => rfl
  obtain ⟨_, _, _, h⟩ := h.pass₃
  obtain ⟨_, h⟩ := h.pass
  replace h := h.view.view.view
  obtain ⟨-, h⟩ := returns_addUpTo_bind.mp h
  obtain ⟨hcap, h⟩ := h.check
  replace h := h.view
  obtain ⟨n, s1, hloop, h⟩ := h.bind
  obtain ⟨rfl, e6⟩ := batchMintLoop_tokens hloop
  replace h := h.write
  obtain ⟨s3, hset, h⟩ := h.seq
  have hmint : s3.tokens = s.tokens.mint recipient uris.length := by
    rw [setBalance_tokens hset]
    change (s1.tokens.setCounters _ _).setBalance _ _ = _
    rw [e6]
    rfl
  refine ⟨hsome, by omega, ?_⟩
  exact h.last hmint

/-- `transfer_from` moves a token of `src` that the spender may move. -/
theorem transferFrom_tokens (h : Returns (transferFrom env spender src dst i) s u s') :
    env.auth spender = true ∧ s.tokens.owner i = some src ∧
      s.tokens.MayMove env.sequence src spender i ∧ s'.tokens = s.tokens.transfer src dst i := by
  obtain ⟨hauth, h⟩ := h.check
  obtain ⟨_, s1, e, h⟩ := h.skip (f := State.tokens) rfl
  obtain ⟨s2, happroved, h⟩ := h.seq
  obtain ⟨hright, rfl⟩ := returns_checkApproved happroved
  obtain ⟨s2, hclear, h⟩ := h.seq
  have e2 := clearApproval_tokens hclear
  obtain ⟨howner, htokens⟩ := transferToken_tokens h
  rw [e] at hright
  rw [e2, e] at howner
  refine ⟨by simpa using hauth, howner, hright, ?_⟩
  -- the approval is cleared twice
  rw [htokens, e2, e]
  simp [Tokens.transfer, Tokens.clearApproval]

/-- `transfer` moves a token of `src`, who has signed. -/
theorem transfer_tokens (h : Returns (transfer env src dst i) s u s') :
    env.auth src = true ∧ s.tokens.owner i = some src ∧ s'.tokens = s.tokens.transfer src dst i := by
  obtain ⟨hauth, h⟩ := h.check
  obtain ⟨_, s1, e, h⟩ := h.skip (f := State.tokens) rfl
  obtain ⟨howner, htokens⟩ := transferToken_tokens h
  rw [e] at howner htokens
  exact ⟨by simpa using hauth, howner, htokens⟩

/-- `approve` is for the owner and its operators. -/
theorem approve_tokens
    (h : Returns (approve env spender approved i expiresAt) s u s') :
    ∃ owner, s.tokens.owner i = some owner ∧ env.auth spender = true ∧
      (spender = owner ∨ s.tokens.Operates env.sequence owner spender) ∧ s'.tokens =
          { s.tokens with
            approved := update s.tokens.approved i (some approved)
            approvedExpiry := update s.tokens.approvedExpiry i expiresAt } := by
  obtain ⟨hauth, h⟩ := h.check
  obtain ⟨owner, s1, hfound, h⟩ := h.bind
  obtain ⟨howner, rfl⟩ := returns_requireOwner.mp hfound
  obtain ⟨hcheck, h⟩ := h.check
  obtain ⟨_, s1, e, h⟩ := h.skip (f := State.tokens) rfl
  obtain ⟨s2, hset, h⟩ := h.seq
  obtain ⟨_, s3, e3, h⟩ := h.skip (f := State.tokens) rfl
  have hright : spender = owner ∨ s.tokens.Operates env.sequence owner spender := by
    by_cases howns : spender = owner
    · exact .inl howns
    · have hoperator : s.base.isApprovedForAll env.sequence owner spender = true := by
        simpa using fun h => hcheck ⟨howns, h⟩
      exact .inr (operates_iff.mpr hoperator)
  refine ⟨owner, howner, by simpa using hauth, hright, ?_⟩
  rw [h.last e3, ← hset.update, ← e]

/-- `set_approval_for_all` is for the owner. -/
theorem setApprovalForAll_tokens
    (h : Returns (setApprovalForAll env owner operator approved expiresAt) s u s') :
    env.auth owner = true ∧ s'.tokens =
        { s.tokens with
          approvedForAll := update s.tokens.approvedForAll (owner, operator) approved
          approvedForAllExpiry := update s.tokens.approvedForAllExpiry (owner, operator)
            (if approved then expiresAt else none) } := by
  obtain ⟨b, hbase, rfl⟩ := h.zoom
  obtain ⟨hauth, hbase⟩ := hbase.check
  obtain ⟨-, hbase⟩ := hbase.check
  obtain ⟨b1, hset, hbase⟩ := hbase.seq
  have hrights : rights b = rights b1 := Preserves.eq hbase
  obtain rfl := hset.update
  simp only [Prod.mk.injEq] at hrights
  obtain ⟨h1, h2, h3, h4⟩ := hrights
  refine ⟨by simpa using hauth, ?_⟩
  simp only [State.tokens, h1, h2, h3, h4]

theorem revokeAllApprovals_tokens (h : Returns (revokeAllApprovals env i) s u s') :
    ∃ owner, s.tokens.owner i = some owner ∧ env.auth owner = true ∧
      s'.tokens = s.tokens.clearApproval i := by
  obtain ⟨owner, s1, hfound, h⟩ := h.bind
  obtain ⟨howner, rfl⟩ := returns_requireOwner.mp hfound
  obtain ⟨hauth, h⟩ := h.check
  obtain ⟨_, s1, e, h⟩ := h.skip (f := State.tokens) rfl
  obtain ⟨s2, hclear, h⟩ := h.seq
  refine ⟨owner, howner, by simpa using hauth, ?_⟩
  rw [h.last (clearApproval_tokens hclear), e]

/-- `burn` destroys a token that the spender may move. -/
theorem burn_tokens (h : Returns (burn env spender i) s u s') :
    ∃ owner, s.tokens.owner i = some owner ∧ env.auth spender = true ∧
      s.tokens.MayMove env.sequence owner spender i ∧ s'.tokens = s.tokens.burn owner i := by
  obtain ⟨hauth, h⟩ := h.check
  obtain ⟨_, s1, e, h⟩ := h.skip rfl
  obtain ⟨owner, s2, hfound, h⟩ := h.bind
  obtain ⟨howner, rfl⟩ := returns_requireOwner.mp hfound
  obtain ⟨s2, happroved, h⟩ := h.seq
  obtain ⟨hright, rfl⟩ := returns_checkApproved happroved
  obtain ⟨bal, s2, hbal, h⟩ := h.bind
  obtain ⟨rfl, e2⟩ := returns_balance e hbal
  obtain ⟨s3, hset, h⟩ := h.seq
  have e3 := setBalance_tokens hset
  obtain ⟨s4, hown, h⟩ := h.seq
  have e4 := setOwner_tokens hown
  obtain ⟨_, s5, e5, h⟩ := h.skip e4
  obtain ⟨s6, hclear, h⟩ := h.seq
  have e6 := clearApproval_tokens hclear
  obtain ⟨s7, hsupply, h⟩ := h.seq
  have e7 : s7.tokens = s6.tokens.setCounters s6.tokens.nextTokenId (s6.tokens.totalSupply - 1) := by
    rw [← hsupply.update]
    rfl
  rw [e] at hright
  refine ⟨owner, (congrFun (congrArg Tokens.owner e) i).symm.trans howner, by simpa using hauth,
    hright, ?_⟩
  rw [h.last e7, e6, e5, e3, e2]
  rfl

/-- The creator hands the collection over. -/
theorem onBase_succession
    (hc : ∀ {b u b'}, Returns c b u b' → b.creator.isSome ∧
      ∃ creator, rights b' = (b.initialized, some creator, b.approvedForAll, b.approvedForAllExpiry))
    (h : Returns (onBase c) s u s') :
    s.tokens.creator.isSome ∧ ∃ creator, s'.tokens = { s.tokens with creator := some creator } := by
  obtain ⟨b, hbase, rfl⟩ := h.zoom
  obtain ⟨hsome, creator, hrights⟩ := hc hbase
  simp only [Prod.mk.injEq] at hrights
  obtain ⟨h1, h2, h3, h4⟩ := hrights
  refine ⟨hsome, creator, ?_⟩
  simp only [State.tokens, h1, h2, h3, h4]

theorem transferOwnership_tokens (h : Returns (transferOwnership env newCreator) s u s') :
    s.tokens.creator.isSome ∧ ∃ creator, s'.tokens = { s.tokens with creator := some creator } := by
  refine onBase_succession (fun {b _ b'} h => ?_) h
  obtain ⟨⟨current, hc, -⟩, rfl⟩ := returns_transferOwnership.mp h
  exact ⟨Option.isSome_iff_exists.mpr ⟨current, hc⟩, newCreator, rfl⟩

theorem acceptCreator_tokens (h : Returns (acceptCreator env newCreator) s u s') :
    s.tokens.creator.isSome ∧ ∃ creator, s'.tokens = { s.tokens with creator := some creator } := by
  refine onBase_succession (fun {b _ b'} h => ?_) h
  obtain ⟨-, -, -, current, hc, rfl⟩ := returns_acceptCreator h
  exact ⟨Option.isSome_iff_exists.mpr ⟨current, hc⟩, newCreator, rfl⟩

/-! ### Entry points that do not concern the tokens -/

/-- The entry points that do not concern the tokens. -/
def Op.quiet : Op → Bool
  | .proposeCreator .. | .cancelCreatorProposal | .updateRoyalty .. | .setDefaultRoyalty ..
  | .setTokenRoyalty .. | .pause | .unpause | .setBaseUri _ | .freezeMetadata | .freezeToken ..
  | .setTokenUri .. | .migrate => true
  | _ => false

theorem op_quiet (hop : op.quiet = true) (h : Returns (op.exec env) s u s') :
    s'.tokens = s.tokens := by
  -- the frame of such an entry point is found by inference
  have hframe : Preserves State.tokens (op.exec env) := by
    cases op <;> first | cases hop; done | (unfold Op.exec; infer_instance)
  exact hframe.eq h

/-! ### Every entry point makes one move -/

/-- **Every invocation makes one move.** -/
theorem op_moves (h : Returns (op.exec env) s u s') : s.tokens.Move env s'.tokens := by
  cases op with
  | initializeCollection creator =>
    obtain ⟨hfresh, -, htokens⟩ := initializeCollection_tokens h
    rw [htokens]
    exact .setUp creator hfresh
  | mint recipient =>
    obtain ⟨i, h⟩ := h.discard
    obtain ⟨hsome, -, htokens⟩ := mint_tokens h
    rw [htokens]
    exact .mint recipient 1 hsome
  | batchMint recipient uris =>
    obtain ⟨hsome, -, htokens⟩ := batchMint_tokens h
    rw [htokens]
    exact .mint recipient uris.length hsome
  | transfer src dst i =>
    obtain ⟨hauth, howner, htokens⟩ := transfer_tokens h
    rw [htokens]
    exact .transfer src dst i howner (.inl hauth)
  | transferFrom spender src dst i =>
    obtain ⟨hauth, howner, hright, htokens⟩ := transferFrom_tokens h
    rw [htokens]
    exact .transfer src dst i howner (.inr ⟨spender, hauth, hright⟩)
  | approve spender approved i expiresAt =>
    obtain ⟨owner, howner, hauth, hright, htokens⟩ := approve_tokens h
    rw [htokens]
    exact .approve owner spender approved i expiresAt howner hauth hright
  | setApprovalForAll owner operator approved =>
    obtain ⟨hauth, htokens⟩ := setApprovalForAll_tokens h
    rw [htokens]
    exact .operator owner operator approved _ hauth
  | revokeAllApprovals i =>
    obtain ⟨owner, howner, hauth, htokens⟩ := revokeAllApprovals_tokens h
    rw [htokens]
    exact .revoke owner i howner hauth
  | burn spender i =>
    obtain ⟨owner, howner, hauth, hright, htokens⟩ := burn_tokens h
    rw [htokens]
    exact .burn owner spender i howner hauth hright
  | transferOwnership =>
    obtain ⟨hsome, creator, htokens⟩ := transferOwnership_tokens h
    rw [htokens]
    exact .succession creator hsome
  | acceptCreator =>
    obtain ⟨hsome, creator, htokens⟩ := acceptCreator_tokens h
    rw [htokens]
    exact .succession creator hsome
  | _ =>
    rw [op_quiet rfl h]
    exact .skip

/-- A step makes one move; a failed invocation none. -/
theorem step_moves (env : Env) (s : State) (op : Op) : s.tokens.Move env (step env s op).tokens := by
  unfold step
  split
  · rename_i u s' h
    exact op_moves h
  · exact .skip

end Ops

end ElcareHub.NormalNFT721
