import ElcareHub.Collections.LazyMint721.Tokens
import ElcareHub.Lib.Holdings

/-!
# Ownership integrity of LazyMint721

A redemption writes the owner of the token its voucher names and adds one to the counters; it does
not look whether the token has an owner. Replays are caught by nonce, and one batch by token id, so what
is left is a second voucher, with a nonce of its own, for a token that has been redeemed: it takes the
token from its owner, and both counters run ahead of the ownership map from then on
(`Tokens.Redeems.overcounts`).

In a run without such a redemption (`FreshIds`) the map and the counters agree, and no redemption
touches a token that has an owner.
-/

namespace ElcareHub.LazyMint721

open Collection Call Holdings Function

variable {i : Nat} {v : MintVoucher}

/-! ### Mints -/

namespace Tokens

/-- The counters agree with the ownership map. -/
abbrev Counts (t : Tokens) : Prop := Counted t.owner t.balanceOf t.totalSupply

variable {t t' : Tokens} {vs : List MintVoucher} {buyer : Address}

/-- Tokens that no voucher names keep their owner. -/
theorem owner_foldl_mint (hi : ∀ v ∈ vs, v.tokenId ≠ i) :
    (vs.foldl (mint buyer) t).owner i = t.owner i := by
  induction vs generalizing t with
  | nil => rfl
  | cons v vs ih =>
    obtain ⟨hv, hvs⟩ := List.forall_mem_cons.mp hi
    rw [List.foldl_cons, ih hvs]
    exact update_of_ne hv.symm _ _

/-- A token that has an owner still has one, be it another. -/
theorem isSome_owner_mint (hi : (t.owner i).isSome) : ((t.mint buyer v).owner i).isSome := by
  change (Function.update t.owner v.tokenId (some buyer) i).isSome
  by_cases hv : i = v.tokenId
  · rw [hv, update_self, Option.isSome_some]
  · rwa [update_of_ne hv]

/-- The mint of an unowned token is counted. -/
theorem Counts.mint (h : t.Counts) (hv : t.owner v.tokenId = none) : (t.mint buyer v).Counts := h.give hv buyer

/-- The mints of a batch: what one mints, the next finds unowned, the token ids being distinct. -/
theorem Counts.foldl_mint (h : t.Counts) (hvs : ∀ v ∈ vs, t.owner v.tokenId = none)
    (hids : (vs.map MintVoucher.tokenId).Nodup) : (vs.foldl (Tokens.mint buyer) t).Counts := by
  induction vs generalizing t with
  | nil => exact h
  | cons v vs ih =>
    obtain ⟨hv, hrest⟩ := List.forall_mem_cons.mp hvs
    obtain ⟨hnew, hids⟩ := List.nodup_cons.mp hids
    refine ih (h.mint hv) (fun v' hv' => ?_) hids
    have hne : v'.tokenId ≠ v.tokenId := fun e => hnew (e ▸ List.mem_map_of_mem hv')
    exact (update_of_ne hne _ _).trans (hrest v' hv')

/-! ### When the counters run ahead -/

/-- More tokens have been counted than are owned. -/
abbrev Overcounts (t : Tokens) : Prop := (owned t.owner).encard < t.totalSupply

theorem Overcounts.foldl_mint (h : t.Overcounts) : (vs.foldl (Tokens.mint buyer) t).Overcounts := by
  induction vs generalizing t with
  | nil => exact h
  | cons v vs ih => exact ih (owned_lt_give_of_lt h v.tokenId buyer)

/-- At best, every mint adds a token. -/
theorem Counts.overcounts_mint (h : t.Counts) (hv : (t.owner v.tokenId).isSome) :
    (t.mint buyer v).Overcounts := by
  change (owned (Function.update t.owner v.tokenId (some buyer))).encard < (t.totalSupply + 1 : ℕ)
  rw [owned_update_some, Set.insert_eq_of_mem (mem_owned.mpr hv), h.supply]
  exact_mod_cast Nat.lt_succ_self _

/-- **A second voucher for an owned token.** A redemption that names a token with an owner leaves
the counters ahead of the ownership map. -/
theorem Redeems.overcounts (h : Redeems vs t t') (ht : t.Counts) (hv : v ∈ vs)
    (howned : (t.owner v.tokenId).isSome) : t'.Overcounts := by
  obtain ⟨buyer, rfl⟩ := h.mints
  clear h
  induction vs generalizing t with
  | nil => cases hv
  | cons w vs ih =>
    by_cases hw : (t.owner w.tokenId).isSome
    · exact (ht.overcounts_mint hw).foldl_mint
    · have hmem : v ∈ vs := (List.mem_cons.mp hv).resolve_left fun e => hw (e ▸ howned)
      exact ih (ht.mint (by simpa using hw)) hmem (isSome_owner_mint howned)

/-! ### Moves -/

/-- The counters are right, and before the collection is set up there is nothing to count. -/
structure Sound (t : Tokens) : Prop where
  counts : t.Counts
  setUp : t.register.installed = true → t.register.initialized = true
  empty : t.register.initialized = false → ∀ i, t.owner i = none

theorem register_foldl_mint (vs : List MintVoucher) (buyer : Address) (t : Tokens) :
    (vs.foldl (mint buyer) t).register.initialized = t.register.initialized ∧
      (vs.foldl (mint buyer) t).register.installed = t.register.installed := by
  induction vs generalizing t with
  | nil => exact ⟨rfl, rfl⟩
  | cons v vs ih => exact ih _

/-- **A move keeps the counters right**, if no live voucher it presents names an owned token. -/
theorem Move.sound (hm : t.Move vs t') (h : t.Sound)
    (hfresh : (∀ v ∈ vs, t.register.Live v.nonce) → ∀ v ∈ vs, t.owner v.tokenId = none) :
    t'.Sound := by
  cases hm with
  | skip => exact h
  | setUp hnew =>
    have hnone := h.empty hnew
    refine ⟨⟨h.counts.balance, ?_⟩, fun _ => rfl, fun hinit => by cases hinit⟩
    rw [Set.encard_eq_zero.mpr (Set.eq_empty_of_forall_notMem fun i hi => ?_)]
    · rfl
    · simp [hnone i] at hi
  | redeem hr =>
    obtain ⟨buyer, rfl⟩ := hr.mints
    obtain ⟨hinit, hinst⟩ := register_foldl_mint vs buyer t
    have hset := h.setUp hr.installed
    refine ⟨h.counts.foldl_mint (hfresh hr.live) hr.ids, fun _ => hinit.trans hset, fun hfalse => ?_⟩
    rw [hinit, hset] at hfalse
    cases hfalse
  | revoke nonces hunused => exact ⟨h.counts, h.setUp, h.empty⟩
  | transfer src dst i howner =>
    refine ⟨h.counts.move howner dst, h.setUp, fun hinit => ?_⟩
    rw [h.empty hinit i] at howner
    cases howner

/-- A redemption that names no owned token leaves owned tokens alone. -/
theorem Redeems.owner_eq (h : Redeems vs t t')
    (hfresh : ∀ v ∈ vs, t.owner v.tokenId = none) (hi : t.owner i = some a) :
    t'.owner i = some a := by
  obtain ⟨buyer, rfl⟩ := h.mints
  rw [owner_foldl_mint fun v hv e => ?_, hi]
  have hnone := hfresh v hv
  rw [e, hi] at hnone
  cases hnone

end Tokens

/-! ### Runs -/

/-- The vouchers an invocation presents, if they are all live, name tokens without an owner. -/
def FreshIds (s : State) (call : Env × Op) : Prop :=
  (∀ v ∈ call.2.vouchers, s.lazyBase.register.Live v.nonce) →
    ∀ v ∈ call.2.vouchers, s.owner v.tokenId = none

variable {dep : Deployment} {balances : Address × Address → Int} {calls : List (Env × Op)}

theorem sound_fresh (balances : Address × Address → Int) : (State.fresh balances).tokens.Sound :=
  ⟨.none, fun hinstalled => (Bool.false_ne_true hinstalled).elim, fun _ _ => rfl⟩

theorem sound_run (h : Run.Along (step dep) FreshIds (.fresh balances) calls) :
    (run dep (.fresh balances) calls).tokens.Sound :=
  h.invariant (I := fun s => s.tokens.Sound) (sound_fresh balances)
    fun s call hs hfresh => (step_moves dep s call).sound hs hfresh

/-- **Ownership integrity.** In a run in which no live voucher names a token with an owner, every state
reached counts the tokens of each account and the tokens there are correctly, and a redemption leaves
the owner of every owned token in place. -/
theorem ownership_integrity (dep : Deployment) (balances : Address × Address → Int)
    (calls : List (Env × Op)) (h : Run.Along (step dep) FreshIds (.fresh balances) calls) :
    let s := run dep (.fresh balances) calls
    (∀ a, {i | s.owner i = some a}.encard = s.balanceOf a) ∧
      {i | (s.owner i).isSome}.encard = s.totalSupply ∧
        ∀ call, FreshIds s call → call.2.isRedemption = true → ∀ i a, s.owner i = some a →
          (step dep s call).owner i = some a := by
  intro s
  have hsound : s.tokens.Sound := sound_run h
  refine ⟨hsound.counts.balance, hsound.counts.supply, fun call hfresh hop i a hi => ?_⟩
  obtain hsame | hredeems := step_redemption dep s hop
  · rw [hsame]
    exact hi
  · exact hredeems.owner_eq (hfresh hredeems.live) hi

/-! ### Two vouchers for one token -/

/-- Two buyers redeem a token each, and the first sends its token to the second. -/
def twoBuyers : List (Env × Op) :=
  onSale ++ [redeemBy ⟨20⟩ (freeVoucher 5 0), redeemBy ⟨21⟩ (freeVoucher 6 1),
    (.signedBy ⟨20⟩ 100, .transfer ⟨20⟩ ⟨21⟩ 0)]

theorem ownership_integrity_twoBuyers :
    let s := run collection (.fresh fun _ => 0) twoBuyers
    s.balanceOf ⟨21⟩ = 2 ∧ {i | s.owner i = some ⟨21⟩}.encard = s.balanceOf ⟨21⟩ := by
  refine ⟨by decide +kernel, (ownership_integrity collection _ twoBuyers ?_).1 ⟨21⟩⟩
  simp only [twoBuyers, onSale, redeemBy, List.cons_append, List.nil_append, Run.along_cons,
    Run.along_nil, FreshIds, Op.vouchers, List.forall_mem_singleton, List.not_mem_nil,
    false_imp_iff, implies_true, true_and, and_true]
  exact ⟨fun _ => by decide +kernel, fun _ => by decide +kernel⟩

/-- A second buyer redeems another voucher for the token the first one has. The token changes hands,
the first buyer is still counted as its owner, and one token makes a supply of two. -/
theorem second_voucher_takes_token :
    let s := run collection (.fresh fun _ => 0) (onSale ++ [redeemBy ⟨20⟩ (freeVoucher 5 0)])
    let s' := step collection s (redeemBy ⟨21⟩ (freeVoucher 6 0))
    s.owner 0 = some ⟨20⟩ ∧ s'.owner 0 = some ⟨21⟩ ∧ s'.balanceOf ⟨20⟩ = 1 ∧
      s'.totalSupply = 2 ∧ {i | (s'.owner i).isSome}.encard ≠ s'.totalSupply := by
  intro s s'
  have hfirst : s.owner 0 = some ⟨20⟩ := by decide +kernel
  have hsecond : s'.owner 0 = some ⟨21⟩ := by decide +kernel
  have hstep := step_redemption (c := redeemBy ⟨21⟩ (freeVoucher 6 0)) collection s rfl
  have hsound : s.tokens.Sound := by
    refine sound_run ?_
    simp only [onSale, redeemBy, List.cons_append, List.nil_append, Run.along_cons,
      Run.along_nil, FreshIds, Op.vouchers, List.forall_mem_singleton, List.not_mem_nil,
      false_imp_iff, implies_true, true_and, and_true]
    exact fun _ => by decide +kernel
  refine ⟨hfirst, hsecond, by decide +kernel, by decide +kernel, ?_⟩
  obtain hsame | hredeems := hstep
  · rw [show s' = s from hsame, hfirst] at hsecond
    cases hsecond
  · have hover := hredeems.overcounts hsound.counts (List.mem_singleton_self _)
      (Option.isSome_iff_exists.mpr ⟨_, hfirst⟩)
    exact hover.ne

end ElcareHub.LazyMint721
