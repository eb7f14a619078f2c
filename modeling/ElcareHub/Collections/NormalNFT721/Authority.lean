import ElcareHub.Collections.NormalNFT721.Holding

/-!
# Who may move a token of NormalNFT721

A token leaves its owner by `transfer`, `transfer_from` and `burn` only. The right to make such a call
is read from storage: the approval of the token and the operators of its owner. This file traces both
back to the calls that granted them.

An approval that is stored for a token has been granted by `approve`, by the owner the token has now or an
operator of that owner, and the token has not been moved since (`approval_granted`): every move clears
the approval, also one that returns the token to its owner, and a token is minted without one. An
operator has been made by its owner, by the latest `set_approval_for_all` for the two that was accepted
(`operator_granted`).
-/

namespace ElcareHub.NormalNFT721

open Collection Call Function

variable {t : Tokens}
variable {t' : Tokens} {j : Nat} {calls : List (Env × Op)}

/-! ### Calls -/

/-- The calls that move token `i`. -/
def Op.Moves (i : Nat) : Op → Prop
  | .transfer _ _ j | .transferFrom _ _ _ j | .burn _ j => j = i
  | _ => False

/-- The call returns. -/
def Accepted (s : State) (call : Env × Op) : Prop := ∃ s', Returns (call.2.exec call.1) s () s'

/-- `a`, the owner of token `i`, or an operator of `a`, approves `approved` for the token. -/
def Approves (a approved : Address) (i : Nat) (expiresAt : Option Nat) (s : State)
    (call : Env × Op) : Prop :=
  Accepted s call ∧ s.owner i = some a ∧ ∃ spender, call.2 = .approve spender approved i expiresAt ∧
    call.1.auth spender = true ∧
      (spender = a ∨ s.base.isApprovedForAll call.1.sequence a spender = true)

/-- Token `i` stays where it is. -/
def LeavesInPlace (i : Nat) (s : State) (call : Env × Op) : Prop :=
  Accepted s call → ¬ call.2.Moves i

/-- `a` makes `operator` its operator. -/
def MakesOperator (a operator : Address) (expiresAt : Option Nat) (s : State) (call : Env × Op) :
    Prop :=
  Accepted s call ∧ call.2 = .setApprovalForAll a operator true expiresAt ∧ call.1.auth a = true

/-- What `a` has said about `operator` still stands. -/
def LeavesOperator (a operator : Address) (s : State) (call : Env × Op) : Prop :=
  Accepted s call → ∀ approved expiresAt, call.2 ≠ .setApprovalForAll a operator approved expiresAt

/-! ### What a call can do to a token -/

/-- Token `i` keeps its owner, if it has one, and its approval, if that is not cleared. -/
structure Tokens.Stays (t t' : Tokens) (i : Nat) : Prop where
  owner : t'.owner i = t.owner i ∨ t.owner i = none
  approval : t'.approved i = none ∨
    (t'.approved i = t.approved i ∧ t'.approvedExpiry i = t.approvedExpiry i)

/-- What a call that leads to the tokens `t'` can have done to token `i`. -/
inductive Outcome (env : Env) (s : State) (op : Op) (i : Nat) (t' : Tokens) : Prop
  | moved (hop : op.Moves i) (hcleared : t'.approved i = none)
  | approved (owner x : Address) (e : Option Nat) (h : Approves owner x i e s (env, op))
      (happroved : t'.approved i = some x) (hexpiry : t'.approvedExpiry i = e)
      (howner : t'.owner i = some owner)
  | stays (hop : ¬ op.Moves i) (h : s.tokens.Stays t' i)

section Calls

variable {env : Env} {s s' : State} {op : Op} {i : Nat} {a : Address}

theorem Tokens.Stays.of_eq (howner : t'.owner i = t.owner i)
    (happroved : t'.approved i = t.approved i)
    (hexpiry : t'.approvedExpiry i = t.approvedExpiry i) : t.Stays t' i :=
  ⟨.inl howner, .inr ⟨happroved, hexpiry⟩⟩

/-- A mint touches tokens without an owner only. -/
theorem Tokens.WellFormed.stays_mint (h : t.WellFormed) (recipient : Address) (n i : Nat) :
    t.Stays (t.mint recipient n) i := by
  refine ⟨?_, .inr ⟨rfl, rfl⟩⟩
  cases howner : t.owner i with
  | none => exact .inr rfl
  | some a =>
    have hi := h.below howner
    exact .inl ((if_neg (by omega)).trans howner)

theorem Tokens.stays_transfer (hne : i ≠ j) : t.Stays (t.transfer src dst j) i :=
  .of_eq (update_of_ne hne _ _) (update_of_ne hne _ _)
    (update_of_ne hne _ _)

theorem Tokens.stays_burn {owner : Address} (hne : i ≠ j) : t.Stays (t.burn owner j) i :=
  .of_eq (update_of_ne hne _ _) (update_of_ne hne _ _)
    (update_of_ne hne _ _)

/-- **Calls.** A call moves the token, or approves somebody for it, or leaves it in place. -/
theorem op_outcome (i : Nat) (hs : s.tokens.WellFormed) (h : Returns (op.exec env) s () s') :
    Outcome env s op i s'.tokens := by
  have haccepted : Accepted s (env, op) := ⟨s', h⟩
  cases op with
  | initializeCollection =>
    obtain ⟨hfresh, -, htokens⟩ := initializeCollection_tokens h
    rw [htokens]
    exact .stays id (.of_eq rfl rfl rfl)
  | mint recipient uri =>
    obtain ⟨j, h⟩ := h.discard
    obtain ⟨-, -, htokens⟩ := mint_tokens h
    rw [htokens]
    exact .stays id (hs.stays_mint recipient 1 i)
  | batchMint recipient uris =>
    obtain ⟨-, -, htokens⟩ := batchMint_tokens h
    rw [htokens]
    exact .stays id (hs.stays_mint recipient uris.length i)
  | transfer src dst j =>
    obtain ⟨-, -, htokens⟩ := transfer_tokens h
    rw [htokens]
    by_cases hij : j = i
    · exact .moved hij (hij ▸ update_self ..)
    · exact .stays hij (Tokens.stays_transfer (Ne.symm hij))
  | transferFrom spender src dst j =>
    obtain ⟨-, -, -, htokens⟩ := transferFrom_tokens h
    rw [htokens]
    by_cases hij : j = i
    · exact .moved hij (hij ▸ update_self ..)
    · exact .stays hij (Tokens.stays_transfer (Ne.symm hij))
  | burn spender j =>
    obtain ⟨owner, -, -, -, htokens⟩ := burn_tokens h
    rw [htokens]
    by_cases hij : j = i
    · exact .moved hij (hij ▸ update_self ..)
    · exact .stays hij (Tokens.stays_burn (Ne.symm hij))
  | approve spender approved j expiresAt =>
    obtain ⟨owner, howner, hauth, hright, htokens⟩ := approve_tokens h
    rw [htokens]
    by_cases hij : i = j
    · subst hij
      refine .approved owner approved expiresAt ⟨haccepted, howner, spender, rfl, hauth, ?_⟩
        (update_self ..) (update_self ..) howner
      exact hright.imp id operates_iff.mp
    · exact .stays id (.of_eq rfl (update_of_ne hij _ _) (update_of_ne hij _ _))
  | revokeAllApprovals j =>
    obtain ⟨owner, -, -, htokens⟩ := revokeAllApprovals_tokens h
    rw [htokens]
    by_cases hij : i = j
    · exact .stays id ⟨.inl rfl, .inl (hij ▸ update_self ..)⟩
    · exact .stays id (.of_eq rfl (update_of_ne hij _ _) (update_of_ne hij _ _))
  | setApprovalForAll =>
    obtain ⟨-, htokens⟩ := setApprovalForAll_tokens h
    rw [htokens]
    exact .stays id (.of_eq rfl rfl rfl)
  | transferOwnership =>
    obtain ⟨-, creator, htokens⟩ := transferOwnership_tokens h
    rw [htokens]
    exact .stays id (.of_eq rfl rfl rfl)
  | acceptCreator =>
    obtain ⟨-, creator, htokens⟩ := acceptCreator_tokens h
    rw [htokens]
    exact .stays id (.of_eq rfl rfl rfl)
  | _ =>
    rw [op_quiet rfl h]
    exact .stays id (.of_eq rfl rfl rfl)

/-- Who moves a token has signed as its owner, or may move it. -/
theorem op_right (hop : op.Moves i) (howner : s.owner i = some a)
    (h : Returns (op.exec env) s () s') : env.auth a = true ∨
      ∃ spender, env.auth spender = true ∧ s.tokens.MayMove env.sequence a spender i := by
  cases op with
  | transfer src dst j =>
    obtain ⟨hauth, hsrc, -⟩ := transfer_tokens h
    obtain rfl : j = i := hop
    obtain rfl : src = a := Option.mem_unique hsrc howner
    exact .inl hauth
  | transferFrom spender src dst j =>
    obtain ⟨hauth, hsrc, hright, -⟩ := transferFrom_tokens h
    obtain rfl : j = i := hop
    obtain rfl : src = a := Option.mem_unique hsrc howner
    exact .inr ⟨spender, hauth, hright⟩
  | burn spender j =>
    obtain ⟨owner, hsrc, hauth, hright, -⟩ := burn_tokens h
    obtain rfl : j = i := hop
    obtain rfl : owner = a := Option.mem_unique hsrc howner
    exact .inr ⟨spender, hauth, hright⟩
  | _ => exact hop.elim

/-- The operators and until when they are. -/
def Tokens.operators (t : Tokens) : (Address × Address → Bool) × (Address × Address → Option Nat) :=
  (t.approvedForAll, t.approvedForAllExpiry)

/-- Only `set_approval_for_all` writes the operators. -/
theorem op_operators (hop : ∀ o p b e, op ≠ .setApprovalForAll o p b e)
    (h : Returns (op.exec env) s () s') : s'.tokens.operators = s.tokens.operators := by
  cases op with
  | setApprovalForAll o p b e => exact (hop o p b e rfl).elim
  | initializeCollection =>
    obtain ⟨-, -, htokens⟩ := initializeCollection_tokens h
    rw [htokens]
    rfl
  | mint =>
    obtain ⟨j, h⟩ := h.discard
    obtain ⟨-, -, htokens⟩ := mint_tokens h
    rw [htokens]
    rfl
  | batchMint =>
    obtain ⟨-, -, htokens⟩ := batchMint_tokens h
    rw [htokens]
    rfl
  | transfer =>
    obtain ⟨-, -, htokens⟩ := transfer_tokens h
    rw [htokens]
    rfl
  | transferFrom =>
    obtain ⟨-, -, -, htokens⟩ := transferFrom_tokens h
    rw [htokens]
    rfl
  | burn =>
    obtain ⟨owner, -, -, -, htokens⟩ := burn_tokens h
    rw [htokens]
    rfl
  | approve =>
    obtain ⟨owner, -, -, -, htokens⟩ := approve_tokens h
    rw [htokens]
    rfl
  | revokeAllApprovals =>
    obtain ⟨owner, -, -, htokens⟩ := revokeAllApprovals_tokens h
    rw [htokens]
    rfl
  | transferOwnership =>
    obtain ⟨-, creator, htokens⟩ := transferOwnership_tokens h
    rw [htokens]
    rfl
  | acceptCreator =>
    obtain ⟨-, creator, htokens⟩ := acceptCreator_tokens h
    rw [htokens]
    rfl
  | _ => rw [op_quiet rfl h]

end Calls

/-! ### Steps -/

/-- A step is what its call returns, or nothing. -/
theorem step_call (s : State) (call : Env × Op) :
    Returns (call.2.exec call.1) s () (step call.1 s call.2) ∨
      (¬ Accepted s call ∧ step call.1 s call.2 = s) := by
  unfold step
  split
  · rename_i u s' h
    exact .inl h
  · rename_i e h
    refine .inr ⟨?_, rfl⟩
    rintro ⟨s', hs'⟩
    rw [Returns, h] at hs'
    cases hs'

/-- Tokens are numbered, and a token without an owner has no approval. -/
structure State.Tidy (s : State) : Prop where
  wellFormed : s.tokens.WellFormed
  unapproved : ∀ i, s.owner i = none → s.approved i = none

variable {s : State} {call : Env × Op} {i : Nat} {a x : Address} {e : Option Nat}

/-- An approval of an owned token that is left in place was there before. -/
theorem State.Tidy.approval_before (hs : s.Tidy) (h : s.tokens.Stays t' i)
    (happroved : t'.approved i = some x) : t'.owner i = s.owner i ∧ t'.approved i = s.approved i ∧
      t'.approvedExpiry i = s.approvedExpiry i := by
  obtain hcleared | ⟨hsame, hexpiry⟩ := h.approval
  · rw [hcleared] at happroved
    cases happroved
  refine ⟨h.owner.resolve_right fun hnone => ?_, hsame, hexpiry⟩
  have hnothing : s.tokens.approved i = none := hs.unapproved i hnone
  rw [hsame, hnothing] at happroved
  cases happroved

theorem step_tidy (call : Env × Op) (hs : s.Tidy) : (step call.1 s call.2).Tidy := by
  refine ⟨(step_moves call.1 s call.2).wellFormed hs.wellFormed, fun i hnone => ?_⟩
  obtain h | ⟨-, hsame⟩ := step_call s call
  · cases op_outcome i hs.wellFormed h with
    | moved hop hcleared => exact hcleared
    | approved owner x e h happroved hexpiry howner =>
      cases (hnone.symm.trans howner : none = some owner)
    | stays hop h =>
      by_contra hsome
      obtain ⟨x, hx⟩ := Option.ne_none_iff_exists'.mp hsome
      obtain ⟨howner, happroved, -⟩ := hs.approval_before h hx
      exact hsome (happroved.trans (hs.unapproved i (howner.symm.trans hnone)))
  · rw [hsame] at hnone ⊢
    exact hs.unapproved i hnone

theorem tidy_run (calls : List (Env × Op)) : (run .fresh calls).Tidy :=
  Run.invariant ⟨.fresh, fun _ _ => rfl⟩ fun _ call hs => step_tidy call hs

/-- A step after which `x` is approved for a token of `a` grants this, or leaves it in place. -/
theorem step_approval (hs : s.Tidy)
    (h : let s' := step call.1 s call.2
      s'.owner i = some a ∧ s'.approved i = some x ∧ s'.approvedExpiry i = e) :
    Approves a x i e s call ∨ ((s.owner i = some a ∧ s.approved i = some x ∧ s.approvedExpiry i = e) ∧
        LeavesInPlace i s call) := by
  obtain ⟨howner, happroved, hexpiry⟩ := h
  obtain hcall | ⟨hrefused, hsame⟩ := step_call s call
  · cases op_outcome i hs.wellFormed hcall with
    | moved hop hcleared =>
      cases (hcleared.symm.trans happroved : none = some x)
    | approved owner x' e' h happroved' hexpiry' howner' =>
      obtain rfl : a = owner := Option.mem_unique howner howner'
      obtain rfl : x = x' := Option.mem_unique happroved happroved'
      obtain rfl : e = e' := hexpiry.symm.trans hexpiry'
      exact .inl h
    | stays hop h =>
      obtain ⟨h1, h2, h3⟩ := hs.approval_before h happroved
      exact .inr ⟨⟨h1.symm.trans howner, h2.symm.trans happroved, h3.symm.trans hexpiry⟩,
        fun _ => hop⟩
  · rw [hsame] at howner happroved hexpiry
    exact .inr ⟨⟨howner, happroved, hexpiry⟩, fun h => (hrefused h).elim⟩

/-- A step after which `x` is an operator of `a` makes it one, or leaves it one. -/
theorem step_operator
    (h : let s' := step call.1 s call.2
      s'.base.approvedForAll (a, x) = true ∧ s'.base.approvedForAllExpiry (a, x) = e) :
    MakesOperator a x e s call ∨
      ((s.base.approvedForAll (a, x) = true ∧ s.base.approvedForAllExpiry (a, x) = e) ∧
        LeavesOperator a x s call) := by
  obtain ⟨happroved, hexpiry⟩ := h
  obtain hcall | ⟨hrefused, hsame⟩ := step_call s call
  · by_cases hop : ∃ o p b e', call.2 = .setApprovalForAll o p b e'
    · obtain ⟨o, p, b, e', hop⟩ := hop
      have haccepted : Accepted s call := ⟨_, hcall⟩
      rw [hop] at hcall happroved hexpiry
      obtain ⟨hauth, htokens⟩ := setApprovalForAll_tokens hcall
      change (step call.1 s (.setApprovalForAll o p b e')).tokens.approvedForAll (a, x) = true
        at happroved
      change (step call.1 s (.setApprovalForAll o p b e')).tokens.approvedForAllExpiry (a, x) = e
        at hexpiry
      rw [htokens] at happroved hexpiry
      by_cases hsame : (a, x) = (o, p)
      · obtain ⟨rfl, rfl⟩ := Prod.mk.inj hsame
        have hb : b = true := by simpa using happroved
        subst hb
        have he : e' = e := by simpa using hexpiry
        exact .inl ⟨haccepted, he ▸ hop, hauth⟩
      · refine .inr ⟨⟨?_, ?_⟩, fun _ b' e'' hop' => ?_⟩
        · exact (update_of_ne hsame _ _).symm.trans happroved
        · exact (update_of_ne hsame _ _).symm.trans hexpiry
        · rw [hop] at hop'
          cases hop'
          exact hsame rfl
    · have hoperators := op_operators (fun o p b e' heq => hop ⟨o, p, b, e', heq⟩) hcall
      obtain ⟨h1, h2⟩ := Prod.mk.inj hoperators
      exact .inr ⟨⟨(congrFun h1 _).symm.trans happroved, (congrFun h2 _).symm.trans hexpiry⟩,
        fun _ b e' heq => hop ⟨a, x, b, e', heq⟩⟩
  · rw [hsame] at happroved hexpiry
    exact .inr ⟨⟨happroved, hexpiry⟩, fun h => (hrefused h).elim⟩

/-! ### Runs -/

/-- **Approvals.** The approval stored for a token has been granted by its owner or an operator of its
owner, and the token has not been moved since. -/
theorem approval_granted (howner : (run .fresh calls).owner i = some a)
    (happroved : (run .fresh calls).approved i = some x) :
    Run.Since (fun s call => step call.1 s call.2)
      (Approves a x i ((run .fresh calls).approvedExpiry i)) (LeavesInPlace i) .fresh calls :=
  Run.since_of_exec tidy_run (fun h => by cases h.1) (fun _ _ hs h => step_approval hs h)
    ⟨howner, happroved, rfl⟩

/-- **Operators.** An operator has been made by its owner, who has not spoken of it since. -/
theorem operator_granted (happroved : (run .fresh calls).base.approvedForAll (a, x) = true) :
    Run.Since (fun s call => step call.1 s call.2)
      (MakesOperator a x ((run .fresh calls).base.approvedForAllExpiry (a, x))) (LeavesOperator a x)
      .fresh calls :=
  Run.since_of_exec (K := fun _ => True) (fun _ => trivial) (fun h => by cases h.1)
    (fun _ _ _ h => step_operator h) ⟨happroved, rfl⟩

/-- **Transfer authority.** After any run, the owner of a token changes in a call to `transfer`,
`transfer_from` or `burn` of this token only, and such a call has been signed by the owner; or by
somebody approved for the token, by its owner or an operator of its owner, since the owner received it,
and whose approval has not expired; or by an operator the owner has made, and whose approval has not
expired. -/
theorem transfer_authority (calls : List (Env × Op)) (call : Env × Op) (i : Nat) (a : Address)
    (howner : (run .fresh calls).owner i = some a) (haccepted : Accepted (run .fresh calls) call)
    (hmoves : call.2.Moves i ∨ (run .fresh (calls ++ [call])).owner i ≠ some a) :
    call.2.Moves i ∧ (call.1.auth a = true ∨
      (∃ spender expiresAt, call.1.auth spender = true ∧ lapsed call.1.sequence expiresAt = false ∧
        Run.Since (fun s call => step call.1 s call.2) (Approves a spender i expiresAt)
          (LeavesInPlace i) .fresh calls) ∨
      ∃ operator expiresAt, call.1.auth operator = true ∧ lapsed call.1.sequence expiresAt = false ∧
          Run.Since (fun s call => step call.1 s call.2) (MakesOperator a operator expiresAt)
            (LeavesOperator a operator) .fresh calls) := by
  obtain ⟨s', hcall⟩ := haccepted
  have hlast : run .fresh (calls ++ [call]) = s' := by
    rw [run, Run.exec_append]
    obtain h | ⟨hrefused, -⟩ := step_call (run .fresh calls) call
    · exact (Prod.mk.inj (Except.ok.inj (h.symm.trans hcall))).2
    · exact (hrefused ⟨s', hcall⟩).elim
  rw [hlast] at hmoves
  have hop : call.2.Moves i := by
    refine hmoves.elim id fun hchanged => ?_
    cases op_outcome i (tidy_run calls).wellFormed hcall with
    | moved hop hcleared => exact hop
    | approved owner x e h happroved hexpiry howner' =>
      obtain rfl : a = owner := Option.some.inj (howner.symm.trans h.2.1)
      exact (hchanged howner').elim
    | stays hop h =>
      obtain hsame | hnone := h.owner
      · exact (hchanged (hsame.trans howner)).elim
      · cases (hnone.symm.trans howner : none = some a)
  refine ⟨hop, ?_⟩
  obtain hauth | ⟨spender, hauth, ⟨happroved, hlive⟩ | ⟨happroved, hlive⟩⟩ := op_right hop howner hcall
  · exact .inl hauth
  · exact .inr (.inl ⟨spender, _, hauth, hlive, approval_granted howner happroved⟩)
  · exact .inr (.inr ⟨spender, _, hauth, hlive, operator_granted happroved⟩)

/-- A token is minted to an owner who approves a spender for it. -/
def spenderApproved : List (Env × Op) :=
  [(.signedBy ⟨1⟩ 100, .initializeCollection ⟨1⟩ "Collection" "SYM" 10 500 ⟨1⟩),
    (.signedBy ⟨1⟩ 100, .mint ⟨2⟩ "ipfs"), (.signedBy ⟨2⟩ 100, .approve ⟨2⟩ ⟨3⟩ 0 none)]

theorem transfer_authority_spenderApproved :
    let step := fun s (call : Env × Op) => step call.1 s call.2
    (∃ spender expiresAt, (Env.signedBy ⟨3⟩ 100).auth spender = true ∧
      lapsed 1 expiresAt = false ∧ Run.Since step (Approves ⟨2⟩ spender 0 expiresAt)
        (LeavesInPlace 0) .fresh spenderApproved) ∨
    ∃ operator expiresAt, (Env.signedBy ⟨3⟩ 100).auth operator = true ∧
      lapsed 1 expiresAt = false ∧ Run.Since step (MakesOperator ⟨2⟩ operator expiresAt)
        (LeavesOperator ⟨2⟩ operator) .fresh spenderApproved := by
  have haccepted : Accepted (run .fresh spenderApproved)
      (.signedBy ⟨3⟩ 100, .transferFrom ⟨3⟩ ⟨2⟩ ⟨4⟩ 0) := by
    obtain ⟨u, s', h, -⟩ := exists_returns (c := transferFrom (.signedBy ⟨3⟩ 100) ⟨3⟩ ⟨2⟩ ⟨4⟩ 0)
      (s := run .fresh spenderApproved) (p := fun _ _ => true) (by decide +kernel)
    exact ⟨s', h⟩
  exact (transfer_authority spenderApproved _ 0 ⟨2⟩ (by decide +kernel) haccepted
    (.inl rfl)).2.resolve_left (by decide)

end ElcareHub.NormalNFT721
