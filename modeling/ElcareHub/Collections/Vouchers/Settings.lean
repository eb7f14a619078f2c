import ElcareHub.Collections.LazyMint721
import ElcareHub.Collections.LazyMint1155
import ElcareHub.Collections.Vouchers.Register
import ElcareHub.Collections.Succession

/-!
# The settings of a lazy collection

`Settings` is the part of a lazy collection's storage that belongs to its creator: the creator's seat
and the proposal for it, the royalty, the key vouchers are signed with, and the two settings of the
sale. Selling, trading, revoking vouchers and migrating write beside it. What writes it is shared by
both contracts (`Control`) and asks for the signature of the creator, with one exception: a proposed
creator takes the seat by signing itself (`control_moves`).
-/

/-! ### The shared part -/

set_option synthInstance.maxSize 100000000

namespace ElcareHub.Collection

open Call

variable {creator receiver : Address} {bps : Nat}

/-- The settings all collections have. -/
structure Office where
  seat : Seat
  pendingExpiry : Option Nat
  royaltyReceiver : Option Address
  royaltyBps : Option Nat

abbrev Base.office (b : Base) : Office :=
  ⟨b.seat, b.pendingCreatorExpiry, b.royaltyReceiver, b.royaltyBps⟩

structure Settings where
  office : Office
  creatorPubkey : Option Bytes
  merkleRoot : Option Bytes
  isPublicPhase : Bool

abbrev LazyBase.settings (l : LazyBase) : Settings :=
  ⟨l.base.office, l.creatorPubkey, l.merkleRoot, l.isPublicPhase⟩

section Frames

variable {ε : Type} {env : Env} {err : Errors ε} {lerr : LazyErrors ε}

instance (c : Call (Fault ε) Base α) [Preserves Base.office c] :
    Preserves LazyBase.settings (onCommon c) :=
  .zoom Base.office fun l _ =>
    congrArg fun o : Office => (⟨o, l.creatorPubkey, l.merkleRoot, l.isPublicPhase⟩ : Settings)

instance (token src dst : Address) (amount : Int) : Preserves LazyBase.settings
      (transferTokens env token src dst amount : Call (Fault ε) LazyBase Unit) where
  eq h := by
    rw [transferTokens, returns_attempt] at h
    split at h
    · cases h
    · cases h
      rfl

end Frames

/-! ### What writes the settings -/

/-- The entry points that write the settings, in both contracts. -/
inductive Control
  | seat (o : SeatOp)
  | updateCreatorPubkey (newPubkey : Bytes)
  | updateRoyalty (receiver : Address) (bps : Nat)
  | setMerkleRoot (root : Bytes)
  | setPublicPhase

def Control.exec {ε : Type} (env : Env) (err : LazyErrors ε) : Control → Call (Fault ε) LazyBase Unit
  | .seat o => onCommon (o.exec env err.toErrors)
  | .updateCreatorPubkey k => Collection.updateCreatorPubkey env err k
  | .updateRoyalty r b => onCommon (Collection.updateRoyalty env err.toErrors r b)
  | .setMerkleRoot r => Collection.setMerkleRoot env err r
  | .setPublicPhase => Collection.setPublicPhase env err

/-- The seat taken up by the proposed creator. -/
def Settings.accept (t : Settings) (newCreator : Address) : Settings :=
  { t with
    office :=
      { t.office with
        seat := { t.office.seat with creator := some newCreator, pending := none }
        pendingExpiry := none } }

/-- The present creator has signed the invocation. -/
def Signed (env : Env) (creator : Option Address) : Prop :=
  ∃ a, creator = some a ∧ env.auth a = true

/-- What an entry point that writes the settings does to them: anything, signed by the creator; or the
seat goes to the one whom a proposal names that has not expired. -/
inductive Settings.Move (env : Env) (t : Settings) : Control → Settings → Prop
  | signed {k : Control} {t' : Settings} (hsigned : Signed env t.office.seat.creator)
      (hinit : t'.office.seat.initialized = t.office.seat.initialized) : Settings.Move env t k t'
  | accept {newCreator current : Address} {e : Nat} (hcreator : t.office.seat.creator = some current)
      (hpending : t.office.seat.pending = some newCreator) (hexpiry : t.office.pendingExpiry = some e)
      (hlive : env.sequence < e) :
      Settings.Move env t (.seat (.acceptCreator newCreator)) (t.accept newCreator)

section Moves

variable {ε : Type} {env : Env} {err : LazyErrors ε} {l l' : LazyBase} {u : Unit}

/-- What is signed by the creator, is. -/
theorem signed_of_onlyLazyCreator (h : Returns (onlyLazyCreator env err >>= g) l b l') :
    Signed env l.base.creator ∧ ∃ a, Returns (g a) l b l' := by
  obtain ⟨a, l1, hcheck, h⟩ := h.bind
  obtain ⟨b1, hb, rfl⟩ := hcheck.zoom
  obtain ⟨hcreator, hauth, rfl⟩ := returns_onlyCreator.mp hb
  exact ⟨⟨a, hcreator, hauth⟩, a, h⟩

/-- **Steps.** -/
theorem control_moves (h : Returns (k.exec env err) l u l') : l.settings.Move env k l'.settings := by
  cases k with
  | seat o =>
    obtain ⟨b, hb, rfl⟩ := h.zoom
    cases o with
    | transferOwnership newCreator =>
      obtain ⟨hsigned, rfl⟩ := returns_transferOwnership.mp hb
      exact .signed hsigned rfl
    | proposeCreator newCreator expiresAt =>
      obtain ⟨a, hcreator, hauth, -, rfl⟩ := returns_proposeCreator hb
      exact .signed ⟨a, hcreator, hauth⟩ rfl
    | acceptCreator newCreator =>
      obtain ⟨-, hpending, hlive, current, hcreator, rfl⟩ := returns_acceptCreator hb
      -- a missing expiry reads as 0, which no ledger is before
      cases hexpiry : l.base.pendingCreatorExpiry with
      | none =>
        rw [hexpiry] at hlive
        exact absurd hlive (Nat.not_lt_zero _)
      | some e =>
        rw [hexpiry] at hlive
        exact .accept hcreator hpending hexpiry hlive
    | cancelCreatorProposal =>
      obtain ⟨a, pending, hcreator, hauth, -, rfl⟩ := returns_cancelCreatorProposal hb
      exact .signed ⟨a, hcreator, hauth⟩ rfl
  | updateRoyalty receiver bps =>
    obtain ⟨b, hb, rfl⟩ := h.zoom
    obtain ⟨a, b1, hcheck, hb⟩ := hb.bind
    obtain ⟨hcreator, hauth, rfl⟩ := returns_onlyCreator.mp hcheck
    obtain ⟨-, hb⟩ := hb.check
    obtain rfl := hb.update
    exact .signed ⟨a, hcreator, hauth⟩ rfl
  | updateCreatorPubkey newPubkey =>
    obtain ⟨hsigned, a, h⟩ := signed_of_onlyLazyCreator h
    obtain rfl := h.update
    exact .signed hsigned rfl
  | setMerkleRoot root =>
    obtain ⟨hsigned, a, h⟩ := signed_of_onlyLazyCreator h
    obtain rfl := h.update
    exact .signed hsigned rfl
  | setPublicPhase =>
    obtain ⟨hsigned, a, h⟩ := signed_of_onlyLazyCreator h
    obtain rfl := h.update
    exact .signed hsigned rfl

/-- Those that do not concern the seat leave it alone. -/
theorem control_seat {k : Control} (hk : ∀ o, k ≠ .seat o) (h : Returns (k.exec env err) l u l') :
    l'.base.seat = l.base.seat := by
  suffices Preserves (fun l : LazyBase => l.base.seat) (k.exec env err) from this.eq h
  cases k with
  | seat o => exact (hk o rfl).elim
  | updateRoyalty receiver bps => exact .zoom Base.seat fun _ _ => id
  | _ =>
    unfold Control.exec
    infer_instance

end Moves

/-- `initialize` fills the seat. -/
theorem seat_initializeBase
    (h : Returns (initializeBase creator bps receiver : Call (Fault ε) Base Unit) b u b') :
    b'.seat = { b.seat with initialized := true, creator := some creator } := by
  rw [← h.update]

theorem seat_initializeLazy
    (h : Returns (initializeLazy creator pubkey bps receiver feeReceiver feeBps passphrase :
      Call (Fault ε) LazyBase Unit) l u l') :
    l'.base.seat = { l.base.seat with initialized := true, creator := some creator } := by
  obtain ⟨l1, hset, h⟩ := h.seq
  obtain ⟨b, hb, rfl⟩ := hset.zoom
  obtain rfl := h.update
  exact seat_initializeBase hb

end ElcareHub.Collection

/-! ### LazyMint721 -/

namespace ElcareHub.LazyMint721

open Collection Call

abbrev State.settings (s : State) : Settings := s.lazyBase.settings

variable {dep : Deployment} {env : Env} {s s' : State} {u : Unit}

section Frames

instance (c : Call (Fault Error) LazyBase α)
    [Preserves LazyBase.settings c] : Preserves State.settings (onLazy c) :=
  .zoom LazyBase.settings fun _ _ => id

instance (buyer : Address) (pubkey : Bytes) (max next : Nat)
    (seen : List Nat) (used : Nat) (items : List BatchVoucherItem) :
    Preserves State.settings (validateItems dep env buyer pubkey max next seen used items) := by
  induction items generalizing seen used with
  | nil => exact .pure ()
  | cons item items ih =>
    unfold validateItems
    infer_instance

instance (creator buyer : Address) (next : Nat) (items : List BatchVoucherItem) :
    Preserves State.settings (mintItems creator buyer next items) := by
  induction items generalizing next with
  | nil => exact .pure []
  | cons item items ih =>
    unfold mintItems
    infer_instance

end Frames

def Op.isInitialize : Op → Bool
  | .initializeCollection .. => true
  | _ => false

/-- The entry points that write the settings of an initialised collection. -/
def Op.control : Op → Option Control
  | .transferOwnership c => some (.seat (.transferOwnership c))
  | .proposeCreator c e => some (.seat (.proposeCreator c e))
  | .acceptCreator c => some (.seat (.acceptCreator c))
  | .cancelCreatorProposal => some (.seat .cancelCreatorProposal)
  | .updateCreatorPubkey k => some (.updateCreatorPubkey k)
  | .updateRoyalty r b => some (.updateRoyalty r b)
  | .setMerkleRoot r => some (.setMerkleRoot r)
  | .setPublicPhase => some .setPublicPhase
  | _ => none

theorem control_exec {op : Op} (hop : op.control = some k) :
    op.exec dep env = onLazy (k.exec env errors) := by
  cases op <;> cases hop <;> rfl

/-- Every other entry point leaves the settings alone. -/
theorem op_settings {op : Op} (hop : op.control = none) (hinit : op.isInitialize = false) :
    Preserves State.settings (op.exec dep env) := by
  cases op with
  | initializeCollection => cases hinit
  | transferOwnership | proposeCreator | acceptCreator | cancelCreatorProposal | updateCreatorPubkey
  | updateRoyalty | setMerkleRoot | setPublicPhase => cases hop
  | _ =>
    unfold Op.exec
    infer_instance

/-- Nobody has the seat before, and the one named has it then. -/
theorem initialize_seat {op : Op} (hop : op.isInitialize = true) (h : Returns (op.exec dep env) s u s') :
    s.lazyBase.base.initialized = false ∧ ∃ creator, s'.lazyBase.base.seat =
      { s.lazyBase.base.seat with initialized := true, creator := some creator } := by
  cases op with
  | initializeCollection creator =>
    obtain ⟨hfresh, h⟩ := h.check
    obtain ⟨_, _, _, _, s4, e, h⟩ := h.skip₄ (f := id) rfl
    obtain ⟨s5, hset, h⟩ := h.seq
    obtain ⟨l, hl, rfl⟩ := hset.zoom
    obtain rfl := h.update
    have hseat := seat_initializeLazy hl
    rw [show s4 = s from e] at hseat
    exact ⟨by simpa using hfresh, creator, hseat⟩
  | _ => cases hop

end ElcareHub.LazyMint721

/-! ### LazyMint1155 -/

namespace ElcareHub.LazyMint1155

open Collection Call

abbrev State.settings (s : State) : Settings := s.lazyBase.settings

variable {dep : Deployment} {env : Env} {s s' : State} {u : Unit}

section Frames

instance (c : Call (Fault Error) LazyBase α)
    [Preserves LazyBase.settings c] : Preserves State.settings (onLazy c) :=
  .zoom LazyBase.settings fun _ _ => id

instance (buyer : Address) (pubkey : Bytes) (seen : List Nat) (items : List BatchVoucherItem1155) :
    Preserves State.settings (validateItems dep env buyer pubkey seen items) := by
  induction items generalizing seen with
  | nil => exact .pure ()
  | cons item items ih =>
    unfold validateItems
    infer_instance

end Frames

def Op.isInitialize : Op → Bool
  | .initializeCollection .. => true
  | _ => false

/-- The entry points that write the settings of an initialised collection. -/
def Op.control : Op → Option Control
  | .transferOwnership c => some (.seat (.transferOwnership c))
  | .proposeCreator c e => some (.seat (.proposeCreator c e))
  | .acceptCreator c => some (.seat (.acceptCreator c))
  | .cancelCreatorProposal => some (.seat .cancelCreatorProposal)
  | .updateCreatorPubkey k => some (.updateCreatorPubkey k)
  | .updateRoyalty r b => some (.updateRoyalty r b)
  | .setMerkleRoot r => some (.setMerkleRoot r)
  | .setPublicPhase => some .setPublicPhase
  | _ => none

theorem control_exec {op : Op} (hop : op.control = some k) :
    op.exec dep env = onLazy (k.exec env errors) := by
  cases op <;> cases hop <;> rfl

/-- Every other entry point leaves the settings alone. -/
theorem op_settings {op : Op} (hop : op.control = none) (hinit : op.isInitialize = false) :
    Preserves State.settings (op.exec dep env) := by
  cases op with
  | initializeCollection => cases hinit
  | transferOwnership | proposeCreator | acceptCreator | cancelCreatorProposal | updateCreatorPubkey
  | updateRoyalty | setMerkleRoot | setPublicPhase => cases hop
  | _ =>
    unfold Op.exec
    infer_instance

/-- Nobody has the seat before, and the one named has it then. -/
theorem initialize_seat {op : Op} (hop : op.isInitialize = true) (h : Returns (op.exec dep env) s u s') :
    s.lazyBase.base.initialized = false ∧ ∃ creator, s'.lazyBase.base.seat =
      { s.lazyBase.base.seat with initialized := true, creator := some creator } := by
  cases op with
  | initializeCollection creator =>
    obtain ⟨hfresh, h⟩ := h.check
    obtain ⟨_, _, s2, e, h⟩ := h.skip₂ (f := id) rfl
    obtain ⟨s3, hset, h⟩ := h.seq
    obtain ⟨l, hl, rfl⟩ := hset.zoom
    obtain rfl := h.update
    have hseat := seat_initializeLazy hl
    rw [show s2 = s from e] at hseat
    exact ⟨by simpa using hfresh, creator, hseat⟩
  | _ => cases hop

end ElcareHub.LazyMint1155
