import ElcareHub.Collections.Vouchers

/-!
# The voucher register

`Register` is what the shared voucher code remembers about vouchers: which nonces are used and which
are revoked, and, read off the events, which redemptions there have been. It also knows whether the
collection has been initialised, since no voucher can be checked before that. The frames below say
which parts of the shared code leave the register alone; the rest of the module says what revocation
does to it, and what a voucher that passes its checks shows about it.
-/

namespace ElcareHub.Collection

open Call

variable {nonce : Nat} {nonces : List Nat}
variable {a b newCreator creator : Address} {n i : Nat} {amount : Int}

/-! ### The register -/

/-- A redemption: who redeemed, the token minted, the nonce of the voucher and the amount. -/
structure Redemption where
  buyer : Address
  tokenId : Nat
  nonce : Nat
  amount : Nat
  deriving DecidableEq

/-- The redemption an event reports. -/
def Event.redemption : Event → Option Redemption
  | .redeemed _ buyer tokenId nonce amount => some ⟨buyer, tokenId, nonce, amount⟩
  | _ => none

structure Register where
  initialized : Bool
  /-- there is a creator -/
  installed : Bool
  used : Nat → Bool
  revoked : Nat → Bool
  redemptions : List Redemption

abbrev LazyBase.register (l : LazyBase) : Register where
  initialized := l.base.initialized
  installed := l.base.creator.isSome
  used := l.usedVoucher
  revoked := l.revokedVoucher
  redemptions := l.base.events.filterMap Event.redemption

namespace Register

/-- The nonce can still be redeemed. -/
def Live (r : Register) (nonce : Nat) : Prop := r.used nonce = false ∧ r.revoked nonce = false

/-- A voucher is redeemed. -/
def redeem (r : Register) (x : Redemption) : Register :=
  { r with used := Function.update r.used x.nonce true, redemptions := r.redemptions ++ [x] }

def revoke (r : Register) (nonces : List Nat) : Register :=
  { r with revoked := fun n => decide (n ∈ nonces) || r.revoked n }

theorem revoke_cons (r : Register) (n : Nat) (nonces : List Nat) :
    (r.revoke [n]).revoke nonces = r.revoke (n :: nonces) := by
  have hrevoked (m : Nat) :
      (decide (m ∈ nonces) || (decide (m ∈ [n]) || r.revoked m)) =
        (decide (m ∈ n :: nonces) || r.revoked m) := by
    by_cases hm : m = n <;> simp [hm]
  simp only [revoke, hrevoked]

end Register

/-! ### Calls that leave the register alone -/

/-- The part of the storage all collections share that the register includes. -/
abbrev Base.log (b : Base) : Bool × Bool × List Redemption :=
  (b.initialized, b.creator.isSome, b.events.filterMap Event.redemption)

/-- An event that reports no redemption. -/
class Event.Other (e : Event) : Prop where
  eq : e.redemption = none

instance : Event.Other (.migrated version) := ⟨rfl⟩
instance : Event.Other (.voucherRevoked a n) := ⟨rfl⟩
instance : Event.Other (.transfer a b i n) := ⟨rfl⟩
instance : Event.Other (.transferBatch a b c is ns) := ⟨rfl⟩
instance : Event.Other (.approvalForAll a b v) := ⟨rfl⟩
instance : Event.Other (.burn a i n) := ⟨rfl⟩
instance : Event.Other (.editionRegistered i n) := ⟨rfl⟩

section Common

variable {ε τ : Type} {env : Env} {err : Errors ε}

instance (e : Event) [he : e.Other] : Preserves Base.log (publish e : Call (Fault ε) Base Unit) :=
  .update fun b => by simp [Base.log, he.eq]

/-- A new creator takes the place of an old one. -/
instance : Preserves Base.log (transferOwnership env err newCreator) where
  eq h := by
    obtain ⟨⟨current, hcreator, -⟩, rfl⟩ := returns_transferOwnership.mp h
    simp [hcreator]

instance : Preserves Base.log (acceptCreator env err newCreator) where
  eq h := by
    obtain ⟨-, -, -, current, hcreator, rfl⟩ := returns_acceptCreator h
    simp [hcreator, Event.redemption]

instance (expiresAt : Nat) : Preserves Base.log (proposeCreator env err newCreator expiresAt) where
  eq h := by
    obtain ⟨current, -, -, -, rfl⟩ := returns_proposeCreator h
    simp [Event.redemption]

instance : Preserves Base.log (cancelCreatorProposal env err) where
  eq h := by
    obtain ⟨current, pending, -, -, -, rfl⟩ := returns_cancelCreatorProposal h
    simp [Event.redemption]

end Common

section Frames

variable {ε τ : Type} {dep : Deployment} {env : Env} {err : LazyErrors ε} {f : LazyBase → τ}

instance (c : Call (Fault ε) Base α) [Preserves Base.log c] :
    Preserves LazyBase.register (onCommon c) :=
  .zoom Base.log fun l b hlog => by
    simp only [Base.log, Prod.mk.injEq] at hlog
    simp [LazyBase.register, hlog]

instance : Preserves f (onlyLazyCreator env err) where
  eq h := by
    obtain ⟨b, hb, rfl⟩ := h.zoom
    obtain ⟨-, -, rfl⟩ := returns_onlyCreator.mp hb
    rfl

instance (token src dst : Address) : Preserves LazyBase.register
      (transferTokens env token src dst amount : Call (Fault ε) LazyBase Unit) where
  eq h := by
    rw [transferTokens, returns_attempt] at h
    split at h
    · cases h
    · cases h
      rfl

instance (currency : Address) (totals : Totals) :
    Preserves f (addTotal currency amount totals : Call (Fault ε) LazyBase Totals) := by
  induction totals with
  | nil =>
    unfold addTotal
    infer_instance
  | cons t rest ih =>
    unfold addTotal
    infer_instance

instance (feeBps : Nat) (fees creators : Totals) (prices : List (Address × Int)) :
    Preserves f (aggregate feeBps fees creators prices :
      Call (Fault ε) LazyBase (Totals × Totals)) := by
  induction prices generalizing fees creators with
  | nil => exact .pure _
  | cons p rest ih =>
    unfold aggregate
    infer_instance

end Frames

/-! ### Checks and revocation -/

section Vouchers

variable {ε : Type} {dep : Deployment} {env : Env} {err : LazyErrors ε} {l l' : LazyBase} {u : Unit}

/-- A voucher that passes the first checks is live. -/
theorem returns_checkVoucherLive
    (h : Returns (checkVoucherLive env err nonce validUntil uri) l u l') :
    l.register.Live nonce ∧ l = l' := by
  simp only [returns_bind, returns_abortIf] at h
  obtain ⟨-, l1, ⟨-, rfl⟩, -, l2, ⟨-, l3, ⟨-, rfl⟩, -, rfl⟩, used, l4, ⟨rfl, rfl⟩, -, l5,
    ⟨hused, rfl⟩, revoked, l6, ⟨rfl, rfl⟩, hrevoked, rfl⟩ := h
  exact ⟨⟨eq_false_of_ne_true hused, eq_false_of_ne_true hrevoked⟩, rfl⟩

theorem returns_requireUnused (h : Returns (requireUnused err nonce) l u l') :
    l.register.used nonce = false ∧ l = l' := by
  simp only [returns_bind, returns_abortIf] at h
  obtain ⟨used, l1, ⟨rfl, rfl⟩, hused, rfl⟩ := h
  exact ⟨eq_false_of_ne_true hused, rfl⟩

theorem markRevoked_register
    (h : Returns (markRevoked creator nonce : Call (Fault ε) LazyBase Unit) l u l') :
    l'.register = l.register.revoke [nonce] := by
  obtain ⟨l1, hset, h⟩ := h.seq
  rw [Preserves.eq (f := LazyBase.register) h, ← hset.update]
  have hrevoked : Function.update l.revokedVoucher nonce true =
      fun n => decide (n ∈ [nonce]) || l.revokedVoucher n := by
    funext n
    by_cases hn : n = nonce <;> simp [hn]
  simp only [hrevoked]
  rfl

/-- The second loop of `revoke_vouchers`. -/
theorem each_markRevoked_register
    (h : Returns (each (markRevoked creator) nonces : Call (Fault ε) LazyBase Unit) l u l') :
    l'.register = l.register.revoke nonces := by
  refine h.each_induction (R := fun ns l l' => l'.register = l.register.revoke ns)
    (fun l => by simp [Register.revoke]) ?_
  intro n ns l l1 l2 hn hns
  rw [hns, markRevoked_register hn, Register.revoke_cons]

/-- The first loop of `revoke_vouchers`. -/
theorem each_requireUnused (h : Returns (each (requireUnused err) nonces) l u l') :
    (∀ n ∈ nonces, l.register.used n = false) ∧ l = l' := by
  refine h.each_induction (R := fun ns l l' => (∀ n ∈ ns, l.register.used n = false) ∧ l = l')
    (fun l => ⟨by simp, rfl⟩) ?_
  intro n ns l l1 l2 hn hns
  obtain ⟨hunused, rfl⟩ := returns_requireUnused hn
  exact ⟨List.forall_mem_cons.mpr ⟨hunused, hns.1⟩, hns.2⟩

/-- **Revocation** marks nonces none of which is used. -/
theorem revokeVouchers_register (h : Returns (revokeVouchers env err nonces) l u l') :
    (∀ n ∈ nonces, l.register.used n = false) ∧ l'.register = l.register.revoke nonces := by
  obtain ⟨creator, l1, e, h⟩ := h.skip (f := LazyBase.register) rfl
  obtain ⟨l2, hcheck, h⟩ := h.seq
  obtain ⟨hunused, rfl⟩ := each_requireUnused hcheck
  exact ⟨e ▸ hunused, e ▸ each_markRevoked_register h⟩

theorem revokeVoucher_register (h : Returns (revokeVoucher env err nonce) l u l') :
    (∀ n ∈ [nonce], l.register.used n = false) ∧ l'.register = l.register.revoke [nonce] := by
  obtain ⟨creator, l1, e, h⟩ := h.skip (f := LazyBase.register) rfl
  obtain ⟨l2, hcheck, h⟩ := h.seq
  obtain ⟨hunused, rfl⟩ := returns_requireUnused hcheck
  exact ⟨List.forall_mem_singleton.mpr (e ▸ hunused), e ▸ markRevoked_register h⟩

end Vouchers

end ElcareHub.Collection
