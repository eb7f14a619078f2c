import ElcareHub.Marketplace.Refine.Offers
import ElcareHub.Marketplace.Refine.Upkeep

/-!
# The contract refines the book

Every call makes moves of the book, and only three entry points can make a move that is not
ordinary. `Op.Makes` says which, and in which states: it names the checks the entry point has passed
by then. Every invariant of the book therefore holds in every reachable state of the contract
(`Reachable.invariant`), and an invariant that one kind of move spoils holds along every run in which
no step makes such a move (`run_invariant`).
-/

namespace ElcareHub.Marketplace

open Call

variable {C : Type} {host : Host C} {env : Env} {w w' : World C}

/-! ### Calls -/

/-- The kinds of moves a call may make in the state `w`. -/
inductive Op.Makes (host : Host C) (env : Env) (w : World C) : Op → Kind → Prop
  | ordinary (op : Op) : Op.Makes host env w op .ordinary
  | abandon (k : Nat) (hdue : ExpiryDue env w k) (hopen : w.listingPendingOffers k ≠ []) :
      Op.Makes host env w (.listing (.expireListing k)) (.abandon k)
  | losingRefund (bidder : Address) (k : Nat) (hauth : env.auth bidder = true)
      (hdue : LosingBidDue w bidder k) :
      Op.Makes host env w (.auction (.refundLosingBid bidder k)) (.losingRefund k)
  | counter (artist : Address) (parent : Nat) (amount : Int) (token : Address)
      (expiresAt : Option Nat) (hdue : CounterOfferDue host env w artist parent amount token) :
      Op.Makes host env w (.offer (.counterOffer artist parent amount token expiresAt))
        (.counter (w.offerCount + 1))

/-- Ordinary moves can be made by every call. -/
theorem Moves.of_ordinary {op : Op} (h : Moves OnlyOrdinary b b') :
    Moves (op.Makes host env w) b b' :=
  h.mono fun kind hkind => by
    obtain rfl : kind = .ordinary := hkind
    exact .ordinary op

/-- **Refinement.** A call that returns has made moves of the book, of the kinds it can make. -/
theorem op_moves {op : Op} (hkeyed : w.book.Keyed) (h : Returns (op.exec host env) w () w') :
    Moves (op.Makes host env w) w.book w'.book := by
  cases op with
  | admin op => exact .of_eq (Preserves.eq (c := op.exec host env) h)
  | maintenance op =>
    exact .of_eq (maintenanceOp_book hkeyed.legacy h)
  | listing op =>
    by_cases hop : ∃ k, op = .expireListing k
    · obtain ⟨k, rfl⟩ := hop
      obtain ⟨hdue, hmoves⟩ := expireListing_moves hkeyed h
      refine hmoves.mono fun kind hkind => ?_
      rcases hkind with rfl | ⟨rfl, hopen⟩
      · exact .ordinary _
      · exact .abandon k hdue hopen
    · exact (listingOp_moves (fun k heq => hop ⟨k, heq⟩) hkeyed h).of_ordinary
  | auction op =>
    by_cases hop : ∃ bidder k, op = .refundLosingBid bidder k
    · obtain ⟨bidder, k, rfl⟩ := hop
      obtain ⟨hauth, hdue, hmove⟩ := refundLosingBid_move h
      exact .single (.losingRefund bidder k hauth hdue) hmove
    · exact (auctionOp_moves (fun b k heq => hop ⟨b, k, heq⟩) hkeyed h).of_ordinary
  | offer op =>
    by_cases hop : ∃ a i x t e, op = .counterOffer a i x t e
    · obtain ⟨a, i, x, t, e, rfl⟩ := hop
      obtain ⟨id, h⟩ := h.discard
      obtain ⟨hdue, hmoves⟩ := counterOffer_moves hkeyed h
      refine hmoves.mono fun kind hkind => ?_
      rcases hkind with rfl | rfl
      · exact .ordinary _
      · exact .counter a i x t e hdue
    · exact (offerOp_moves (fun a i x t e heq => hop ⟨a, i, x, t, e, heq⟩) hkeyed h).of_ordinary

/-! ### Steps and runs -/

/-- The kinds of moves a step may make; what others do between calls makes none. -/
def Step.Makes (host : Host C) (w : World C) : Step C → Kind → Prop
  | .call env op, kind => op.Makes host env w kind
  | .external _ _, _ => False

theorem step_moves (hkeyed : w.book.Keyed) (s : Step C) :
    Moves (s.Makes host w) w.book (step host w s).book := by
  cases s with
  | call env op =>
    rcases step_call host w env op with ⟨w', h, heq⟩ | heq
    · rw [heq]
      exact op_moves hkeyed h
    · exact .of_eq (by rw [heq])
  | external collections balances => exact .refl _

/-- The book of a newly deployed contract. -/
def Book.empty : Book where
  legacy := .empty
  listingCount := 0
  listing := fun _ => none
  auctionCount := 0
  auction := fun _ => none
  offerCount := 0
  offer := fun _ => none
  pendingOffers := fun _ => []
  counterParent := fun _ => none
  escrow := fun _ => none
  active := ⟨.empty, fun _ => none, 0⟩
  deposited := fun _ => 0
  paidOut := fun _ => 0

theorem Book.Keyed.empty : Book.empty.Keyed where
  listing h := by cases h
  auction h := by cases h
  offer h := by cases h
  counter h := by cases h
  legacy := rfl

/-- Every kind of move the step can make in this state is in `K`. -/
def Allows (host : Host C) (K : Kind → Prop) (w : World C) (s : Step C) : Prop :=
  ∀ kind, s.Makes host w kind → K kind

/-- **Runs under a condition.** What the moves of a kind in `K` keep holds after every run whose steps
can only make such moves. -/
theorem run_invariant {I : Book → Prop}
    (hrun : Run.Along (step host) (Allows host K) (.fresh balances collections) steps)
    (hempty : I .empty) (hmove : ∀ kind b b', K kind → Move kind b b' → b.Keyed → I b → I b') :
    I (run host (.fresh balances collections) steps).book := by
  refine (hrun.invariant (I := fun w => w.book.Keyed ∧ I w.book) ⟨.empty, hempty⟩ ?_).2
  rintro w s ⟨hkeyed, hi⟩ hallows
  refine ((step_moves hkeyed s).mono hallows).invariant (I := fun b => b.Keyed ∧ I b) ?_ ⟨hkeyed, hi⟩
  exact fun kind b b' hkind hm hb => ⟨hm.keyed hb.1, hmove kind b b' hkind hm hb.1 hb.2⟩

/-- **Reachable states.** What every move keeps holds in every reachable state. -/
theorem Reachable.invariant {I : Book → Prop} (hreach : Reachable host w) (hempty : I .empty)
    (hmove : ∀ kind b b', Move kind b b' → b.Keyed → I b → I b') : I w.book := by
  obtain ⟨balances, collections, steps, rfl⟩ := hreach
  exact run_invariant (Run.along_of_forall fun _ _ _ _ => trivial) hempty
    fun kind b b' _ => hmove kind b b'

theorem Reachable.keyed (hreach : Reachable host w) : w.book.Keyed :=
  hreach.invariant .empty fun _ _ _ hm _ hb => hm.keyed hb

end ElcareHub.Marketplace
