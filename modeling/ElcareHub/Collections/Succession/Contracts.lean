import ElcareHub.Collections.NormalNFT721.Tokens
import ElcareHub.Collections.NormalNFT1155
import ElcareHub.Collections.Vouchers.Settings

/-!
# Creator succession in the four collections

Each of the four contracts is a `Contract`: its entry points other than those of the creator's seat
write beside the shared part of the storage, or parts of it that the seat does not include. The general
results then speak of all four, and so does the run that shows what they exclude.
-/

/-! ### NormalNFT721 -/

set_option synthInstance.maxSize 100000000

namespace ElcareHub.NormalNFT721

open Collection Call

variable {op : Op}

abbrev State.seat (s : State) : Seat := s.base.seat

section Frames

variable {env : Env} {s s' : State}

instance (c : Call (Fault Error) Base α) [Preserves Base.seat c] : Preserves State.seat (onBase c) :=
  .zoom Base.seat fun _ _ => id

instance (recipient : Address) (n : BatchCounters) (uris : List String) :
    Preserves State.seat (batchMintLoop recipient n uris) := by
  induction uris generalizing n with
  | nil => exact .pure n
  | cons uri uris ih =>
    unfold batchMintLoop
    infer_instance

end Frames

/-- The entry points that concern the creator's seat. -/
def Op.seatOp : Op → Option SeatOp
  | .transferOwnership c => some (.transferOwnership c)
  | .proposeCreator c e => some (.proposeCreator c e)
  | .acceptCreator c => some (.acceptCreator c)
  | .cancelCreatorProposal => some .cancelCreatorProposal
  | _ => none

theorem initializeCollection_seat
    (h : Returns (initializeCollection creator name symbol maxSupply bps receiver) s u s') :
    s.base.initialized = false ∧
      s'.seat = { s.seat with initialized := true, creator := some creator } := by
  obtain ⟨hfresh, h⟩ := h.check
  obtain ⟨_, _, _, _, s4, e, h⟩ := h.skip₄ (f := State.seat) rfl
  obtain ⟨s5, hset, h⟩ := h.seq
  obtain ⟨b, hb, rfl⟩ := hset.zoom
  refine ⟨by simpa using hfresh, ?_⟩
  rw [h.last (f := State.seat) (seat_initializeBase hb), ← e]

/-- The contract. -/
def contract : Contract where
  Error := Error
  State := State
  Op := Op
  exec env op := op.exec env
  Fresh s := s = .fresh
  base := State.base
  seatOp := Op.seatOp
  fresh h := h ▸ rfl
  moves {env op o s s'} hop h := by
    have hexec : op.exec env = onBase (o.exec env errors) := by
      cases op <;> cases hop <;> rfl
    rw [hexec] at h
    obtain ⟨b, hb, rfl⟩ := h.zoom
    exact seatOp_moves hb
  -- every other entry point leaves the seat alone, but for the one that fills it first
  stays {env op s s'} hop h := by
    cases op with
    | initializeCollection c =>
      obtain ⟨hfresh, hseat⟩ := initializeCollection_seat h
      exact .inr ⟨hfresh, c, hseat⟩
    | transferOwnership | proposeCreator | acceptCreator | cancelCreatorProposal => cases hop
    | _ =>
      unfold Op.exec at h
      exact .inl (Preserves.eq (f := State.seat) h)

end ElcareHub.NormalNFT721

/-! ### NormalNFT1155 -/

namespace ElcareHub.NormalNFT1155

open Collection Call

variable {op : Op} {s s' : State}

abbrev State.seat (s : State) : Seat := s.base.seat

section Frames

variable {env : Env}

instance (c : Call (Fault Error) Base α) [Preserves Base.seat c] : Preserves State.seat (onBase c) :=
  .zoom Base.seat fun _ _ => id

instance (recipient : Address) (next : Nat) (items : List BatchItem) :
    Preserves State.seat (mintItems recipient next items) := by
  induction items generalizing next with
  | nil => exact .pure next
  | cons item items ih =>
    unfold mintItems
    infer_instance

end Frames

/-- The entry points that concern the creator's seat. -/
def Op.seatOp : Op → Option SeatOp
  | .transferOwnership c => some (.transferOwnership c)
  | .proposeCreator c e => some (.proposeCreator c e)
  | .acceptCreator c => some (.acceptCreator c)
  | .cancelCreatorProposal => some .cancelCreatorProposal
  | _ => none

theorem initializeCollection_seat
    (h : Returns (initializeCollection creator name bps receiver) s u s') :
    s.base.initialized = false ∧
      s'.seat = { s.seat with initialized := true, creator := some creator } := by
  obtain ⟨hfresh, h⟩ := h.check
  obtain ⟨_, _, _, s3, e, h⟩ := h.skip₃ (f := State.seat) rfl
  obtain ⟨s4, hset, h⟩ := h.seq
  obtain ⟨b, hb, rfl⟩ := hset.zoom
  refine ⟨by simpa using hfresh, ?_⟩
  rw [h.last (f := State.seat) (seat_initializeBase hb), ← e]

/-- The contract. -/
def contract : Contract where
  Error := Error
  State := State
  Op := Op
  exec env op := op.exec env
  Fresh s := s = .fresh
  base := State.base
  seatOp := Op.seatOp
  fresh h := h ▸ rfl
  moves {env op o s s'} hop h := by
    have hexec : op.exec env = onBase (o.exec env errors) := by
      cases op <;> cases hop <;> rfl
    rw [hexec] at h
    obtain ⟨b, hb, rfl⟩ := h.zoom
    exact seatOp_moves hb
  -- every other entry point leaves the seat alone, but for the one that fills it first
  stays {env op s s'} hop h := by
    cases op with
    | initializeCollection c =>
      obtain ⟨hfresh, hseat⟩ := initializeCollection_seat h
      exact .inr ⟨hfresh, c, hseat⟩
    | transferOwnership | proposeCreator | acceptCreator | cancelCreatorProposal => cases hop
    | _ =>
      unfold Op.exec at h
      exact .inl (Preserves.eq (f := State.seat) h)

end ElcareHub.NormalNFT1155

/-! ### LazyMint721 -/

namespace ElcareHub.LazyMint721

open Collection Call

variable {dep : Deployment} {env : Env} {op : Op}

/-- The entry points that concern the creator's seat. -/
def Op.seatOp : Op → Option SeatOp
  | .transferOwnership c => some (.transferOwnership c)
  | .proposeCreator c e => some (.proposeCreator c e)
  | .acceptCreator c => some (.acceptCreator c)
  | .cancelCreatorProposal => some .cancelCreatorProposal
  | _ => none

/-- The contract. -/
def contract (dep : Deployment) : Contract where
  Error := Error
  State := State
  Op := Op
  exec env op := op.exec dep env
  Fresh s := ∃ balances, s = .fresh balances
  base s := s.lazyBase.base
  seatOp := Op.seatOp
  fresh h := by
    obtain ⟨balances, rfl⟩ := h
    rfl
  moves {env op o s s'} hop h := by
    have hexec : op.exec dep env = onBase (o.exec env errors.toErrors) := by
      cases op <;> cases hop <;> rfl
    rw [hexec] at h
    obtain ⟨l, hl, rfl⟩ := h.zoom
    obtain ⟨b, hb, rfl⟩ := hl.zoom
    exact seatOp_moves hb
  stays {env op s s'} hop h := by
    cases hinit : op.isInitialize with
    | true => exact .inr (initialize_seat hinit h)
    | false =>
      refine .inl ?_
      cases hcontrol : op.control with
      | none => exact congrArg (fun t : Settings => t.office.seat) ((op_settings hcontrol hinit).eq h)
      | some k =>
        -- the settings of the sale and of the royalty stand beside the seat
        rw [control_exec hcontrol] at h
        obtain ⟨l, hl, rfl⟩ := h.zoom
        exact control_seat (k := k) (by cases op <;> cases hcontrol <;> cases hop <;> nofun) hl

end ElcareHub.LazyMint721

/-! ### LazyMint1155 -/

namespace ElcareHub.LazyMint1155

open Collection Call

variable {dep : Deployment} {env : Env} {op : Op}

/-- The entry points that concern the creator's seat. -/
def Op.seatOp : Op → Option SeatOp
  | .transferOwnership c => some (.transferOwnership c)
  | .proposeCreator c e => some (.proposeCreator c e)
  | .acceptCreator c => some (.acceptCreator c)
  | .cancelCreatorProposal => some .cancelCreatorProposal
  | _ => none

/-- The contract. -/
def contract (dep : Deployment) : Contract where
  Error := Error
  State := State
  Op := Op
  exec env op := op.exec dep env
  Fresh s := ∃ balances, s = .fresh balances
  base s := s.lazyBase.base
  seatOp := Op.seatOp
  fresh h := by
    obtain ⟨balances, rfl⟩ := h
    rfl
  moves {env op o s s'} hop h := by
    have hexec : op.exec dep env = onBase (o.exec env errors.toErrors) := by
      cases op <;> cases hop <;> rfl
    rw [hexec] at h
    obtain ⟨l, hl, rfl⟩ := h.zoom
    obtain ⟨b, hb, rfl⟩ := hl.zoom
    exact seatOp_moves hb
  stays {env op s s'} hop h := by
    cases hinit : op.isInitialize with
    | true => exact .inr (initialize_seat hinit h)
    | false =>
      refine .inl ?_
      cases hcontrol : op.control with
      | none => exact congrArg (fun t : Settings => t.office.seat) ((op_settings hcontrol hinit).eq h)
      | some k =>
        -- the settings of the sale and of the royalty stand beside the seat
        rw [control_exec hcontrol] at h
        obtain ⟨l, hl, rfl⟩ := h.zoom
        exact control_seat (k := k) (by cases op <;> cases hcontrol <;> cases hop <;> nofun) hl

end ElcareHub.LazyMint1155

/-! ### The four contracts -/

namespace ElcareHub.Collection

open Call

def contracts (dep dep' : Deployment) : List Contract :=
  [NormalNFT721.contract, NormalNFT1155.contract, LazyMint721.contract dep,
    LazyMint1155.contract dep']

/-- **Creator succession.** In each of the four contracts, after a run in which the collection is never
transferred to somebody else while a proposal is pending, a proposal that can be accepted has been issued
by the present creator; and whatever call takes the seat from the present creator has been signed by it,
or accepts its proposal. -/
theorem creator_succession (dep dep' : Deployment) :
    ∀ c ∈ contracts dep dep', ∀ s, c.Fresh s → ∀ calls, Run.Along c.step c.Orderly s calls →
      c.Follows s calls ∧ ∀ call a, (c.base (c.run s calls)).creator = some a →
          (c.base (c.step (c.run s calls) call)).creator ≠ some a →
          (∃ newCreator, c.seatOp call.2 = some (.transferOwnership newCreator) ∧
            call.1.auth a = true) ∨ ∃ newCreator, c.seatOp call.2 = some (.acceptCreator newCreator) ∧
            c.issuer s calls = some a :=
  fun _ _ _ hfresh _ horderly => ⟨Contract.follows_run hfresh horderly,
    fun call _ ha htaken => Contract.seat_taken hfresh horderly call ha htaken⟩

/-- A collection is handed over, and then its new creator proposes another. -/
def orderlySuccession : List (Env × NormalNFT721.Op) :=
  [(.signedBy ⟨1⟩ 100, .initializeCollection ⟨1⟩ "Collection" "SYM" 10 500 ⟨1⟩),
    (.signedBy ⟨1⟩ 100, .transferOwnership ⟨3⟩), (.signedBy ⟨3⟩ 100, .proposeCreator ⟨2⟩ 10)]

theorem creator_succession_orderly :
    NormalNFT721.contract.Follows NormalNFT721.State.fresh orderlySuccession := by
  refine (creator_succession ⟨⟨100⟩, .plain⟩ ⟨⟨101⟩, .plain⟩ NormalNFT721.contract
    List.mem_cons_self _ rfl orderlySuccession ?_).1
  refine ⟨?_, ?_, ?_, trivial⟩
  · rintro _ _ ⟨⟩
  · exact fun _ _ _ _ => .inl (by decide +kernel)
  · rintro _ _ ⟨⟩

/-- In each of the four contracts: the creator proposes a successor and then transfers the collection to
somebody else. The successor it had proposed can still take the collection from the new creator. -/
theorem former_creator_decides :
    let dep : Deployment := ⟨⟨100⟩, .plain⟩
    ¬ NormalNFT721.contract.Follows NormalNFT721.State.fresh
      [(.signedBy ⟨1⟩ 100, .initializeCollection ⟨1⟩ "Collection" "SYM" 10 500 ⟨1⟩),
        (.signedBy ⟨1⟩ 100, .proposeCreator ⟨2⟩ 10), (.signedBy ⟨1⟩ 100, .transferOwnership ⟨3⟩)] ∧
    ¬ NormalNFT1155.contract.Follows NormalNFT1155.State.fresh
      [(.signedBy ⟨1⟩ 100, .initializeCollection ⟨1⟩ "Collection" 500 ⟨1⟩),
        (.signedBy ⟨1⟩ 100, .proposeCreator ⟨2⟩ 10), (.signedBy ⟨1⟩ 100, .transferOwnership ⟨3⟩)] ∧
    ¬ (LazyMint721.contract dep).Follows (LazyMint721.State.fresh fun _ => 0)
      [(.signedBy ⟨1⟩ 100, .initializeCollection ⟨1⟩ [7] "Collection" "SYM" 10 500 ⟨1⟩ ⟨9⟩ 0 "net"),
        (.signedBy ⟨1⟩ 100, .proposeCreator ⟨2⟩ 10), (.signedBy ⟨1⟩ 100, .transferOwnership ⟨3⟩)] ∧
    ¬ (LazyMint1155.contract dep).Follows (LazyMint1155.State.fresh fun _ => 0)
      [(.signedBy ⟨1⟩ 100, .initializeCollection ⟨1⟩ [7] "Collection" 500 ⟨1⟩ ⟨9⟩ 0 "net"),
        (.signedBy ⟨1⟩ 100, .proposeCreator ⟨2⟩ 10),
        (.signedBy ⟨1⟩ 100, .transferOwnership ⟨3⟩)] := by
  refine ⟨?_, ?_, ?_, ?_⟩
  · exact Contract.not_follows (.signedBy ⟨2⟩ 100) (NormalNFT721.Op.acceptCreator ⟨2⟩) rfl
      (by decide +kernel) (by decide +kernel)
  · exact Contract.not_follows (.signedBy ⟨2⟩ 100) (NormalNFT1155.Op.acceptCreator ⟨2⟩) rfl
      (by decide +kernel) (by decide +kernel)
  · exact Contract.not_follows (.signedBy ⟨2⟩ 100) (LazyMint721.Op.acceptCreator ⟨2⟩) rfl
      (by decide +kernel) (by decide +kernel)
  · exact Contract.not_follows (.signedBy ⟨2⟩ 100) (LazyMint1155.Op.acceptCreator ⟨2⟩) rfl
      (by decide +kernel) (by decide +kernel)

end ElcareHub.Collection
