import ElcareHub.Lib.Call
import ElcareHub.Ledger

/-!
# What the collection contracts share

The collection contracts carry the same code for the creator and its two-step succession, for
operator approvals, for the royalty setting, for the migration marker and for the validation of their
metadata (`metadata.rs` is one file, copied). It is modelled once, on the part `Base` of a
collection's storage; each contract runs it on that part of its own state with its own error codes.

Entries of persistent storage that a key may lack are options; flags that default to `false` are
Booleans. Lifetimes of storage entries are not modelled.
-/

namespace ElcareHub.Collection

open Call

/-! ### Invocations -/

/-- How an invocation ends early: with an error it returns, for a missing authorisation, by a trap
(overflow, `unwrap` on nothing, a signature that does not verify), or because a token contract
refuses a transfer. -/
inductive Fault (ε : Type)
  | contract (e : ε)
  | unauthenticated (who : Address)
  | trap (message : String)
  | token (token : Address)
  deriving DecidableEq

/-- The events of the collections. -/
inductive Event
  | mint (creator recipient : Address) (tokenId amount : Nat)
  | transfer (src dst : Address) (tokenId amount : Nat)
  | transferBatch (spender src dst : Address) (tokenIds amounts : List Nat)
  | approvalSet (owner approved : Address) (tokenId : Nat) (expiresAt : Option Nat)
  | approve (owner approved : Address) (tokenId : Nat)
  | approvalForAllSet (owner operator : Address) (approved : Bool) (expiresAt : Option Nat)
  | approvalForAll (owner operator : Address) (approved : Bool)
  | approvalRevoked (owner : Address) (tokenId : Nat)
  | burn (owner : Address) (tokenId amount : Nat)
  | creatorProposed (current newCreator : Address) (expiresAt : Nat)
  | creatorAccepted (oldCreator newCreator : Address)
  | creatorProposalCancelled (current pending : Address)
  | metadataUpdated (creator : Address) (tokenId : Option Nat) (oldUri : Option String)
      (uri : String)
  | metadataFrozen (creator : Address)
  | tokenFrozen (tokenId : Nat)
  | redeemed (creator buyer : Address) (tokenId nonce amount : Nat)
  | voucherRevoked (creator : Address) (nonce : Nat)
  | editionRegistered (tokenId maxSupply : Nat)
  | migrated (version : String)

section Primitives

variable {ε σ α : Type}

/-- `return Err(e)`. -/
abbrev fail (e : ε) : Call (Fault ε) σ α := Call.abort (.contract e)

/-- `if c { return Err(e) }`. -/
abbrev failIf (c : Prop) [Decidable c] (e : ε) : Call (Fault ε) σ Unit :=
  abortIf c (.contract e)

/-- `ok_or(e)?`. -/
abbrev orFail (o : Option α) (e : ε) : Call (Fault ε) σ α := orAbort o (.contract e)

abbrev unwrap (o : Option α) : Call (Fault ε) σ α :=
  orAbort o (.trap "called `Option::unwrap()` on a `None` value")

abbrev requireAuth (env : Env) (who : Address) : Call (Fault ε) σ Unit :=
  abortIf (env.auth who = false) (.unauthenticated who)

/-- Unchecked `+` on unsigned integers up to `max`, which traps on overflow. -/
def addUpTo (max a b : Nat) : Call (Fault ε) σ Nat :=
  orAbort (if a + b ≤ max then some (a + b) else none) (.trap "attempt to add with overflow")

theorem returns_addUpTo {max : Nat}
    (h : Returns (addUpTo max a b : Call (Fault ε) σ Nat) s n s') : a + b = n ∧ s = s' := by
  simp only [addUpTo, returns_orAbort, Option.ite_none_right_eq_some, Option.some.injEq] at h
  exact ⟨h.1.2, h.2⟩

theorem returns_addUpTo_bind {max : Nat}
    : Returns (addUpTo max a b >>= g) s x s' ↔ a + b ≤ max ∧ Returns (g (a + b)) s x s' := by
  rw [addUpTo, returns_orAbort_bind]
  by_cases h : a + b ≤ max <;> simp [h]

instance (max a b : Nat) : Preserves f (addUpTo max a b : Call (Fault ε) σ Nat) := by
  unfold addUpTo
  infer_instance

end Primitives

/-! ### Metadata -/

/-- `MAX_NAME_LEN`, `MAX_SYMBOL_LEN`, `MAX_URI_BYTES`, `MAX_SUPPLY_LIMIT`, `MAX_ROYALTY_BPS`. -/
def maxNameLen : Nat := 64
def maxSymbolLen : Nat := 16
def maxUriLen : Nat := 2048
def maxSupplyLimit : Nat := 1000000000
def maxBps : Nat := 10000

section Metadata

variable {ε σ : Type}

/-- A text of between one and `max` bytes: `validate_name`, `validate_symbol`, `validate_uri`. -/
abbrev validateText (text : String) (max : Nat) (empty tooLong : ε) : Call (Fault ε) σ Unit := do
  failIf (text.utf8ByteSize = 0) empty
  failIf (text.utf8ByteSize > max) tooLong

abbrev validateMaxSupply (maxSupply : Nat) (e : ε) : Call (Fault ε) σ Unit :=
  failIf (maxSupply = 0 ∨ maxSupply > maxSupplyLimit) e

abbrev validateRoyaltyBps (bps : Nat) (e : ε) : Call (Fault ε) σ Unit := failIf (bps > maxBps) e

end Metadata

/-- The loop of `u64_to_string`: the digits of `n`, last first, at most `room` of them. -/
def decimalDigits : (room n : Nat) → List Char
  | 0, _ => []
  | room + 1, n => if n = 0 then [] else Char.ofNat (48 + n % 10) :: decimalDigits room (n / 10)

/-- `u64_to_string`; the largest `u64` has 20 digits. -/
def u64ToString (n : Nat) : String :=
  if n = 0 then "0" else String.ofList (decimalDigits 20 n).reverse

/-! ### The shared part of the storage -/

structure Base where
  initialized : Bool
  creator : Option Address
  originalCreator : Option Address
  pendingCreator : Option Address
  pendingCreatorExpiry : Option Nat
  royaltyReceiver : Option Address
  royaltyBps : Option Nat
  /-- by owner and operator -/
  approvedForAll : Address × Address → Bool
  approvedForAllExpiry : Address × Address → Option Nat
  contractVersion : Option String
  migrationDone : String → Bool
  events : List Event

/-- Nothing stored yet. -/
def Base.fresh : Base where
  initialized := false
  creator := none
  originalCreator := none
  pendingCreator := none
  pendingCreatorExpiry := none
  royaltyReceiver := none
  royaltyBps := none
  approvedForAll _ := false
  approvedForAllExpiry _ := none
  contractVersion := none
  migrationDone _ := false
  events := []

/-- The codes a contract gives to the errors of the shared code. -/
structure Errors (ε : Type) where
  alreadyInitialized : ε
  notInitialized : ε
  approvalExpired : ε
  noPendingCreator : ε
  notPendingCreator : ε
  proposalExpired : ε
  invalidBps : ε
  alreadyMigrated : ε

/-- An approval with this expiry has lapsed at `sequence`. -/
def lapsed (sequence : Nat) (expiry : Option Nat) : Bool :=
  expiry.any fun exp => decide (exp ≤ sequence)

def Base.isApprovedForAll (b : Base) (sequence : Nat) (owner operator : Address) : Bool :=
  b.approvedForAll (owner, operator) && !lapsed sequence (b.approvedForAllExpiry (owner, operator))

section Shared

variable {ε : Type} (env : Env) (err : Errors ε)

abbrev publish (e : Event) : Call (Fault ε) Base Unit :=
  update fun b => { b with events := b.events ++ [e] }

def onlyCreator : Call (Fault ε) Base Address := do
  let stored ← view Base.creator
  let creator ← orFail stored err.notInitialized
  requireAuth env creator
  pure creator

/-- The writes all `initialize` entry points share. -/
def initializeBase (creator : Address) (royaltyBps : Nat) (royaltyReceiver : Address) :
    Call (Fault ε) Base Unit :=
  update fun b =>
    { b with
      initialized := true
      creator := some creator
      originalCreator := some creator
      royaltyBps := some royaltyBps
      royaltyReceiver := some royaltyReceiver }

def transferOwnership (newCreator : Address) : Call (Fault ε) Base Unit := do
  let _ ← onlyCreator env err
  update fun b => { b with creator := some newCreator }

abbrev proposeCreator (newCreator : Address) (expiresAt : Nat) : Call (Fault ε) Base Unit := do
  let current ← onlyCreator env err
  failIf (env.sequence ≥ expiresAt) err.approvalExpired
  update fun b =>
    { b with pendingCreator := some newCreator, pendingCreatorExpiry := some expiresAt }
  publish (.creatorProposed current newCreator expiresAt)

def acceptCreator (newCreator : Address) : Call (Fault ε) Base Unit := do
  requireAuth env newCreator
  let stored ← view Base.pendingCreator
  let pending ← orFail stored err.noPendingCreator
  failIf (newCreator ≠ pending) err.notPendingCreator
  let expiry ← view fun b => b.pendingCreatorExpiry.getD 0
  failIf (env.sequence ≥ expiry) err.proposalExpired
  let stored ← view Base.creator
  let oldCreator ← orFail stored err.notInitialized
  update fun b =>
    { b with creator := some newCreator, pendingCreator := none, pendingCreatorExpiry := none }
  publish (.creatorAccepted oldCreator newCreator)

abbrev cancelCreatorProposal : Call (Fault ε) Base Unit := do
  let current ← onlyCreator env err
  let stored ← view Base.pendingCreator
  let pending ← orFail stored err.noPendingCreator
  update fun b => { b with pendingCreator := none, pendingCreatorExpiry := none }
  publish (.creatorProposalCancelled current pending)

/-- `update_royalty`, and `set_default_royalty` where a contract has it. -/
abbrev updateRoyalty (receiver : Address) (bps : Nat) : Call (Fault ε) Base Unit := do
  let _ ← onlyCreator env err
  failIf (bps > maxBps) err.invalidBps
  update fun b => { b with royaltyReceiver := some receiver, royaltyBps := some bps }

/-- `set_approval_for_all`; the contracts differ in the events they publish. -/
abbrev setApprovalForAll (owner operator : Address) (approved : Bool) (expiresAt : Option Nat)
    (events : List Event) : Call (Fault ε) Base Unit := do
  requireAuth env owner
  failIf (approved = true ∧ lapsed env.sequence expiresAt = true) err.approvalExpired
  update fun b =>
    { b with
      approvedForAll := Function.update b.approvedForAll (owner, operator) approved
      approvedForAllExpiry := Function.update b.approvedForAllExpiry (owner, operator)
        (if approved then expiresAt else none) }
  each publish events

/-- `migrate` to version `1.0.0`: only the marker is written. -/
abbrev migrate : Call (Fault ε) Base Unit := do
  let _ ← onlyCreator env err
  let done ← view fun b => b.migrationDone "1.0.0"
  failIf (done = true) err.alreadyMigrated
  update fun b =>
    { b with
      migrationDone := Function.update b.migrationDone "1.0.0" true
      contractVersion := some "1.0.0" }
  publish (.migrated "1.0.0")

abbrev royaltyInfo : Call (Fault ε) Base (Address × Nat) := do
  let stored ← view Base.royaltyReceiver
  let receiver ← unwrap stored
  let bps ← view fun b => b.royaltyBps.getD 0
  pure (receiver, bps)

/-! ### Checks write nothing -/

section Checks

variable {σ τ : Type} {f : σ → τ} {env err}

instance {f : Base → τ} : Preserves f (onlyCreator env err) := by
  unfold onlyCreator
  infer_instance

end Checks

/-! ### What the creator's entry points return -/

variable {env err} {b b' : Base} {u : Unit} {a newCreator : Address}

theorem returns_onlyCreator :
    Returns (onlyCreator env err) b a b' ↔ b.creator = some a ∧ env.auth a = true ∧ b = b' := by
  simp only [onlyCreator, returns_bind, returns_view, returns_orAbort, returns_abortIf, returns_pure]
  constructor
  · rintro ⟨stored, b1, ⟨rfl, rfl⟩, c, b2, ⟨hc, rfl⟩, -, b3, ⟨hauth, rfl⟩, rfl, rfl⟩
    exact ⟨hc, by simpa using hauth, rfl⟩
  · rintro ⟨hc, hauth, rfl⟩
    exact ⟨_, _, ⟨rfl, rfl⟩, a, _, ⟨hc, rfl⟩, (), _, ⟨by simpa using hauth, rfl⟩, rfl, rfl⟩

theorem returns_transferOwnership :
    Returns (transferOwnership env err newCreator) b u b' ↔
      (∃ current, b.creator = some current ∧ env.auth current = true) ∧
        { b with creator := some newCreator } = b' := by
  simp only [transferOwnership, returns_bind, returns_onlyCreator, returns_update]
  constructor
  · rintro ⟨current, b1, ⟨hc, hauth, rfl⟩, rfl⟩
    exact ⟨⟨current, hc, hauth⟩, rfl⟩
  · rintro ⟨⟨current, hc, hauth⟩, rfl⟩
    exact ⟨current, b, ⟨hc, hauth, rfl⟩, rfl⟩

theorem returns_proposeCreator
    (h : Returns (proposeCreator env err newCreator expiresAt) b u b') :
    ∃ current, b.creator = some current ∧ env.auth current = true ∧ env.sequence < expiresAt ∧
      b' = { b with
        pendingCreator := some newCreator
        pendingCreatorExpiry := some expiresAt
        events := b.events ++ [.creatorProposed current newCreator expiresAt] } := by
  simp only [returns_bind, returns_onlyCreator, returns_abortIf, returns_update] at h
  obtain ⟨current, b1, ⟨hc, hauth, rfl⟩, -, b2, ⟨hexpiry, rfl⟩, -, b3, rfl, rfl⟩ := h
  exact ⟨current, hc, hauth, by omega, rfl⟩

theorem returns_acceptCreator (h : Returns (acceptCreator env err newCreator) b u b') :
    env.auth newCreator = true ∧ b.pendingCreator = some newCreator ∧
      env.sequence < b.pendingCreatorExpiry.getD 0 ∧ ∃ current, b.creator = some current ∧
        b' = { b with
          creator := some newCreator
          pendingCreator := none
          pendingCreatorExpiry := none
          events := b.events ++ [.creatorAccepted current newCreator] } := by
  simp only [acceptCreator, returns_bind, returns_orAbort, returns_abortIf, returns_update] at h
  obtain ⟨-, b1, ⟨hauth, rfl⟩, p, b2, ⟨rfl, rfl⟩, pending, b3, ⟨hpending, rfl⟩, -, b4,
    ⟨hsame, rfl⟩, e, b5, ⟨rfl, rfl⟩, -, b6, ⟨hexpiry, rfl⟩, c, b7, ⟨rfl, rfl⟩, current, b8,
    ⟨hc, rfl⟩, -, b9, rfl, rfl⟩ := h
  obtain rfl : newCreator = pending := by simpa using hsame
  exact ⟨by simpa using hauth, hpending, by simpa using hexpiry, current, hc, rfl⟩

theorem returns_cancelCreatorProposal (h : Returns (cancelCreatorProposal env err) b u b') :
    ∃ current pending, b.creator = some current ∧ env.auth current = true ∧
      b.pendingCreator = some pending ∧ b' = { b with
          pendingCreator := none
          pendingCreatorExpiry := none
          events := b.events ++ [.creatorProposalCancelled current pending] } := by
  simp only [returns_bind, returns_onlyCreator, returns_orAbort, returns_update] at h
  obtain ⟨current, b1, ⟨hc, hauth, rfl⟩, stored, b2, ⟨rfl, rfl⟩, pending, b3, ⟨hpending, rfl⟩, -, b4,
    rfl, rfl⟩ := h
  exact ⟨current, pending, hc, hauth, hpending, rfl⟩

end Shared

end ElcareHub.Collection
