import ElcareHub.Collections.Common
import ElcareHub.Lib.Run

/-!
# Creator succession

All four collections hand the creator's seat over in two ways: at once, by `transfer_ownership`, and in
two steps, by `propose_creator` and `accept_creator`. Both write the creator; only the second way knows
of the pending proposal, and `transfer_ownership` leaves it where it is. A proposal of a creator who has
gone can therefore still be accepted, against the creator there is by then.

The argument is made once, for every `Contract` that runs the shared code on a part of its state and
otherwise leaves the seat alone. In a run in which the collection is not transferred while a proposal is
pending, the pending proposal is always one of the present creator (`Contract.issuer_run`).
-/

namespace ElcareHub.Collection

open Call

/-! ### The seat of the creator -/

/-- Who is the creator, and who has been proposed to follow. -/
structure Seat where
  initialized : Bool
  creator : Option Address
  pending : Option Address

abbrev Base.seat (b : Base) : Seat := ⟨b.initialized, b.creator, b.pendingCreator⟩

/-- The entry points of the shared code that concern the seat. -/
inductive SeatOp
  | transferOwnership (newCreator : Address)
  | proposeCreator (newCreator : Address) (expiresAt : Nat)
  | acceptCreator (newCreator : Address)
  | cancelCreatorProposal

def SeatOp.exec {ε : Type} (env : Env) (err : Errors ε) : SeatOp → Call (Fault ε) Base Unit
  | .transferOwnership c => Collection.transferOwnership env err c
  | .proposeCreator c e => Collection.proposeCreator env err c e
  | .acceptCreator c => Collection.acceptCreator env err c
  | .cancelCreatorProposal => Collection.cancelCreatorProposal env err

/-- What they do to it. -/
inductive Seat.Move (env : Env) (t : Seat) : SeatOp → Seat → Prop
  | handOver {a : Address} (newCreator : Address) (hcreator : t.creator = some a)
      (hauth : env.auth a = true) :
      Seat.Move env t (.transferOwnership newCreator) { t with creator := some newCreator }
  | propose {a : Address} (newCreator : Address) (expiresAt : Nat) (hcreator : t.creator = some a)
      (hauth : env.auth a = true) :
      Seat.Move env t (.proposeCreator newCreator expiresAt) { t with pending := some newCreator }
  | accept {a : Address} (newCreator : Address) (hcreator : t.creator = some a)
      (hpending : t.pending = some newCreator) :
      Seat.Move env t (.acceptCreator newCreator)
        { t with creator := some newCreator, pending := none }
  | cancel {a : Address} (hcreator : t.creator = some a) :
      Seat.Move env t .cancelCreatorProposal { t with pending := none }

theorem seatOp_moves {b' : Base}
    (h : Returns (o.exec env err) b u b') : b.seat.Move env o b'.seat := by
  cases o with
  | transferOwnership newCreator =>
    obtain ⟨⟨a, hcreator, hauth⟩, rfl⟩ := returns_transferOwnership.mp h
    exact .handOver newCreator hcreator hauth
  | proposeCreator newCreator expiresAt =>
    obtain ⟨a, hcreator, hauth, -, rfl⟩ := returns_proposeCreator h
    exact .propose newCreator expiresAt hcreator hauth
  | acceptCreator newCreator =>
    obtain ⟨-, hpending, -, a, hcreator, rfl⟩ := returns_acceptCreator h
    exact .accept newCreator hcreator hpending
  | cancelCreatorProposal =>
    obtain ⟨a, pending, hcreator, -, -, rfl⟩ := returns_cancelCreatorProposal h
    exact .cancel hcreator

/-! ### Contracts -/

/-- A collection contract: which of its entry points are those of the shared code, and that no other
writes the seat, but for the one that initialises the collection. -/
structure Contract where
  Error : Type
  State : Type
  Op : Type
  exec : Env → Op → Call (Fault Error) State Unit
  Fresh : State → Prop
  base : State → Base
  seatOp : Op → Option SeatOp
  fresh : ∀ {s}, Fresh s → (base s).seat = ⟨false, none, none⟩
  moves : ∀ {env op o s s'}, seatOp op = some o → Returns (exec env op) s () s' →
    (base s).seat.Move env o (base s').seat
  stays : ∀ {env op s s'}, seatOp op = none → Returns (exec env op) s () s' →
    (base s').seat = (base s).seat ∨ (base s).initialized = false ∧ ∃ creator,
        (base s').seat = { (base s).seat with initialized := true, creator := some creator }

namespace Contract

variable (c : Contract)
variable {calls : List (Env × c.Op)}

/-- The state after one invocation; one that fails is rolled back. -/
def step (s : c.State) (call : Env × c.Op) : c.State :=
  match c.exec call.1 call.2 s with
  | .ok (_, s') => s'
  | .error _ => s

/-- The state after a run. -/
abbrev run (s : c.State) (calls : List (Env × c.Op)) : c.State := Run.exec c.step s calls

/-- Who issues a proposal by this call: the creator, if the call is accepted. -/
def proposers (s : c.State) (call : Env × c.Op) : List Address :=
  match c.seatOp call.2, c.exec call.1 call.2 s with
  | some (.proposeCreator _ _), .ok _ => (c.base s).creator.toList
  | _, _ => []

/-- Who has issued the latest proposal of the run. -/
def issuer (s : c.State) (calls : List (Env × c.Op)) : Option Address :=
  (Run.transcript c.step c.proposers s calls).getLast?

/-- The call does not transfer the collection to somebody else while a proposal is pending. -/
def Orderly (s : c.State) (call : Env × c.Op) : Prop :=
  ∀ newCreator s', c.seatOp call.2 = some (.transferOwnership newCreator) →
    Returns (c.exec call.1 call.2) s () s' →
      (c.base s).pendingCreator = none ∨ (c.base s).creator = some newCreator

/-! ### Steps -/

variable {c} {s s' : c.State} {call : Env × c.Op} {log : List Address}

/-- The pending proposal is the latest there has been, and one of the present creator. -/
structure Settled (log : List Address) (t : Seat) : Prop where
  empty : t.initialized = false → t.creator = none ∧ t.pending = none
  issued : ∀ {newCreator}, t.pending = some newCreator → log.getLast? = t.creator ∧ t.creator ≠ none

theorem step_cases (s : c.State) (call : Env × c.Op) :
    Returns (c.exec call.1 call.2) s () (c.step s call) ∨
      (c.step s call = s ∧ c.proposers s call = []) := by
  unfold step proposers
  cases hexec : c.exec call.1 call.2 s with
  | ok r => exact .inl hexec
  | error e => exact .inr ⟨rfl, by split <;> simp_all⟩

/-- A call that is accepted adds to the record if it proposes a creator. -/
theorem proposers_of_returns (h : Returns (c.exec call.1 call.2) s () s') :
    c.proposers s call = match c.seatOp call.2 with
      | some (.proposeCreator _ _) => (c.base s).creator.toList
      | _ => [] := by
  unfold proposers
  rw [show c.exec call.1 call.2 s = .ok ((), s') from h]
  cases c.seatOp call.2 with
  | none => rfl
  | some o => cases o <;> rfl

/-- **Steps.** An orderly call keeps the pending proposal one of the present creator. -/
theorem settled_step (hs : Settled log (c.base s).seat) (horderly : c.Orderly s call) :
    Settled (log ++ c.proposers s call) (c.base (c.step s call)).seat := by
  obtain h | ⟨hsame, hnone⟩ := step_cases s call
  · have hlog := proposers_of_returns h
    cases hop : c.seatOp call.2 with
    | none =>
      rw [hop] at hlog
      rw [hlog, List.append_nil]
      obtain hseat | ⟨hinit, creator, hseat⟩ := c.stays hop h
      · rwa [hseat]
      · rw [hseat]
        obtain ⟨-, hpending⟩ := hs.empty hinit
        exact ⟨by simp, fun h => by cases hpending.symm.trans h⟩
    | some o =>
      rw [hop] at hlog
      rw [hlog]
      have hmove := c.moves hop h
      generalize hnew : (c.base (c.step s call)).seat = t at hmove ⊢
      have hset {a : Address} (hcreator : (c.base s).seat.creator = some a) :
          (c.base s).seat.initialized ≠ false := fun hinit => by
        rw [(hs.empty hinit).1] at hcreator
        cases hcreator
      cases hmove with
      | handOver newCreator hcreator hauth =>
        simp only [List.append_nil]
        refine ⟨fun hinit => (hset hcreator hinit).elim, fun {next} hpending => ?_⟩
        obtain hnone | hkept := horderly newCreator _ hop h
        · cases hnone.symm.trans hpending
        · refine ⟨?_, by simp⟩
          rw [← show _ = some newCreator from hkept]
          exact (hs.issued hpending).1
      | propose newCreator expiresAt hcreator hauth =>
        refine ⟨fun hinit => (hset hcreator hinit).elim, fun _ => ?_⟩
        have hcreator' : (c.base s).creator = some _ := hcreator
        exact ⟨by simp [hcreator'], by simp [hcreator']⟩
      | accept newCreator hcreator hpending =>
        exact ⟨fun hinit => (hset hcreator hinit).elim, fun h => by cases h⟩
      | cancel hcreator =>
        exact ⟨fun hinit => (hset hcreator hinit).elim, fun h => by cases h⟩
  · rw [hsame, hnone, List.append_nil]
    exact hs

/-! ### Runs -/

/-- **Runs.** After a run of orderly calls, a pending proposal has been issued by the present creator. -/
theorem settled_run (hfresh : c.Fresh s) (horderly : Run.Along c.step c.Orderly s calls) :
    Settled (Run.transcript c.step c.proposers s calls) (c.base (c.run s calls)).seat := by
  refine horderly.transcript (I := fun log s => Settled log (c.base s).seat) (K := fun _ => True)
    (fun _ => trivial) ?_ fun log s call _ horderly hs => settled_step hs horderly
  rw [c.fresh hfresh]
  exact ⟨fun _ => ⟨rfl, rfl⟩, fun h => by cases h⟩

/-- Whenever `accept_creator` would be accepted now, the proposal it consumes has been issued by the
present creator. -/
def Follows (c : Contract) (s : c.State) (calls : List (Env × c.Op)) : Prop :=
  ∀ env op newCreator s', c.seatOp op = some (.acceptCreator newCreator) →
    Returns (c.exec env op) (c.run s calls) () s' →
      ∃ creator, (c.base (c.run s calls)).creator = some creator ∧ c.issuer s calls = some creator

theorem follows_run (hfresh : c.Fresh s) (horderly : Run.Along c.step c.Orderly s calls) :
    c.Follows s calls := by
  intro env op newCreator s' hop h
  have hmove := c.moves hop h
  generalize (c.base s').seat = t at hmove
  cases hmove with
  | accept _ hcreator hpending =>
    obtain ⟨hissuer, -⟩ := (settled_run hfresh horderly).issued hpending
    exact ⟨_, hcreator, hissuer.trans hcreator⟩

/-- Where the latest proposal is not one of the present creator and can be accepted, it is. -/
theorem not_follows (env : Env) (op : c.Op)
    (hop : c.seatOp op = some (.acceptCreator newCreator))
    (haccepted : passes (c.exec env op) (c.run s calls) (fun _ _ => true) = true)
    (hne : c.issuer s calls ≠ (c.base (c.run s calls)).creator) : ¬ c.Follows s calls := by
  intro h
  obtain ⟨u, s', hreturns, -⟩ := exists_returns haccepted
  obtain ⟨creator, hcreator, hissuer⟩ := h env op newCreator s' hop hreturns
  exact hne (hissuer.trans hcreator.symm)

/-- Whatever takes the seat from the present creator has been started by the present creator: a transfer
that it has signed, or the acceptance of its proposal. -/
theorem seat_taken (hfresh : c.Fresh s) (horderly : Run.Along c.step c.Orderly s calls)
    (call : Env × c.Op) (ha : (c.base (c.run s calls)).creator = some a)
    (htaken : (c.base (c.step (c.run s calls) call)).creator ≠ some a) :
    (∃ newCreator, c.seatOp call.2 = some (.transferOwnership newCreator) ∧ call.1.auth a = true) ∨
      ∃ newCreator, c.seatOp call.2 = some (.acceptCreator newCreator) ∧
        c.issuer s calls = some a := by
  have hsettled := settled_run hfresh horderly
  obtain h | ⟨hsame, -⟩ := step_cases (c.run s calls) call
  · change (c.base (c.step (c.run s calls) call)).seat.creator ≠ some a at htaken
    cases hop : c.seatOp call.2 with
    | none =>
      obtain hseat | ⟨hinit, -⟩ := c.stays hop h
      · rw [hseat] at htaken
        exact (htaken ha).elim
      · cases (hsettled.empty hinit).1.symm.trans ha
    | some o =>
      have hmove := c.moves hop h
      generalize (c.base (c.step (c.run s calls) call)).seat = t at hmove htaken
      cases hmove with
      | handOver newCreator hcreator hauth =>
        obtain rfl : _ = a := Option.mem_unique hcreator ha
        exact .inl ⟨newCreator, rfl, hauth⟩
      | propose newCreator expiresAt hcreator hauth => exact (htaken ha).elim
      | accept newCreator hcreator hpending =>
        exact .inr ⟨newCreator, rfl, (hsettled.issued hpending).1.trans ha⟩
      | cancel hcreator => exact (htaken ha).elim
  · rw [hsame] at htaken
    exact (htaken ha).elim

end Contract

end ElcareHub.Collection
