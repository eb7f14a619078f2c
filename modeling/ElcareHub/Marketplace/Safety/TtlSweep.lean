import ElcareHub.Marketplace.Safety.ActiveListings

/-!
# The sweep over the active listings

`extend_active_ttls` walks the positions of the active-listing index, then the auctions, and starts over.
It keeps its place between calls as a position, while the index keeps no order: a listing that leaves it is
replaced by the last one. Where that happens below the cursor, a listing the pass has not come to is moved
to where it does not come any more (`listing_swept_past`). In a run in which it does not happen, what
stands below the cursor has been visited, and so has every listing when the pass ends.
-/

namespace ElcareHub.Marketplace

open Call

variable {C : Type} {host : Host C} {env : Env} {w w' : World C}
variable {get : Nat → Option Nat} {seen : List Nat}

/-! ### Visits -/

/-- A round of the loop of `extend_active_ttls`: it loads the listing at the cursor or an auction, or the
cursor passes the end of the index, or of the auctions. -/
inductive TtlVisit
  | listing (id : Option Nat)
  | auction (id : Nat)
  | passed
  | restarted
  deriving DecidableEq

/-- The rounds of the loop. -/
def ttlVisits (get : Nat → Option Nat) (cap totalListings totalAuctions : Nat) :
    (fuel : Nat) → TtlSweepProgress → (processed toggles : Nat) → List TtlVisit
  | 0, _, _, _ => []
  | fuel + 1, progress, processed, toggles =>
    if processed < cap ∧ toggles < 4 then
      if progress.phase = 0 then
        if totalListings = 0 ∨ progress.cursor ≥ totalListings then
          .passed :: ttlVisits get cap totalListings totalAuctions fuel ⟨1, 0⟩ processed (toggles + 1)
        else
          .listing (get progress.cursor) ::
            ttlVisits get cap totalListings totalAuctions fuel ⟨0, progress.cursor + 1⟩ (processed + 1)
              toggles
      else
        if totalAuctions = 0 ∨ progress.cursor ≥ totalAuctions then
          .restarted :: ttlVisits get cap totalListings totalAuctions fuel ⟨0, 0⟩ processed (toggles + 1)
        else
          .auction (progress.cursor + 1) ::
            ttlVisits get cap totalListings totalAuctions fuel ⟨progress.phase, progress.cursor + 1⟩
              (processed + 1) toggles
    else []

def World.ttlProgress (w : World C) : TtlSweepProgress := w.upkeep.ttlSweepState.getD ⟨0, 0⟩

/-- The rounds a call of `extend_active_ttls` makes. -/
def World.ttlVisits (w : World C) (maxItems : Nat) : List TtlVisit :=
  if (w.index .activeListings).len = 0 ∧ w.auctionCount = 0 then []
  else Marketplace.ttlVisits (w.index .activeListings).get (min maxItems maxMaintenanceItems)
    (w.index .activeListings).len w.auctionCount (min maxItems maxMaintenanceItems + 4) w.ttlProgress 0 0

/-- What the calls of a run visit. -/
def ttlRecord (_ : Env) (op : Op) (w _ : World C) : List TtlVisit :=
  match op with
  | .maintenance (.extendActiveTtls _ maxItems) => w.ttlVisits maxItems
  | _ => []

def TtlVisit.note (seen : List Nat) : TtlVisit → List Nat
  | .listing id => seen ++ id.toList
  | .auction _ | .passed => seen
  | .restarted => []

/-- The listings visited since the pass has begun. -/
def inPass (log : List TtlVisit) : List Nat := log.foldl TtlVisit.note []

/-! ### One call -/

/-- What stands below the cursor while the listings are swept. -/
def passedBy (get : Nat → Option Nat) (progress : TtlSweepProgress) : List Nat :=
  if progress.phase = 0 then (List.range progress.cursor).filterMap get else []

/-- The visits keep up with the cursor: what stands below it at their end has been visited, and so has the
whole index whenever the cursor passes its end. -/
structure KeepsUp (get : Nat → Option Nat) (seen : List Nat) (progress : TtlSweepProgress)
    (visits : List TtlVisit) : Prop where
  passed : passedBy get progress ⊆ visits.foldl TtlVisit.note seen
  ends : ∀ before after, visits = before ++ .passed :: after →
    ∀ pos id, get pos = some id → id ∈ before.foldl TtlVisit.note seen

namespace KeepsUp

variable {progress progress' : TtlSweepProgress} {visits : List TtlVisit}

theorem nil (h : passedBy get progress ⊆ seen) : KeepsUp get seen progress [] where
  passed := h
  ends _ _ heq := by simp at heq

theorem cons (h : KeepsUp get (v.note seen) progress visits)
    (hv : v = .passed → ∀ pos id, get pos = some id → id ∈ seen) :
    KeepsUp get seen progress (v :: visits) where
  passed := h.passed
  ends before after heq := by
    cases before with
    | nil => exact hv (List.cons.inj heq).1
    | cons v' before =>
      obtain ⟨rfl, htail⟩ := List.cons.inj heq
      exact h.ends before after htail

/-- The loop. -/
theorem of_sweep (hget : ∀ pos, total ≤ pos → get pos = none) (hseen : passedBy get progress ⊆ seen)
    (h : Returns (ttlSweep env cap total auctions fuel progress processed toggles) w (progress', n) w') :
    KeepsUp get seen progress'
      (Marketplace.ttlVisits get cap total auctions fuel progress processed toggles) := by
  induction fuel generalizing progress processed toggles seen w with
  | zero =>
    obtain ⟨⟨⟩, rfl⟩ := h.pure
    exact .nil hseen
  | succ fuel ih =>
    unfold Marketplace.ttlVisits
    rcases returns_ite.mp h with ⟨hgo, h⟩ | ⟨hstop, h⟩
    swap
    · rw [if_neg hstop]
      obtain ⟨⟨⟩, rfl⟩ := h.pure
      exact .nil hseen
    rw [if_pos hgo]
    rcases returns_ite.mp h with ⟨hphase, h⟩ | ⟨hphase, h⟩
    · rw [if_pos hphase]
      rw [passedBy, if_pos hphase] at hseen
      rcases returns_ite.mp h with ⟨hend, h⟩ | ⟨hend, h⟩
      · rw [if_pos hend]
        refine (ih (List.nil_subset _) h).cons fun _ pos id hid => hseen ?_
        refine List.mem_filterMap.mpr ⟨pos, List.mem_range.mpr ?_, hid⟩
        by_contra hge
        rw [hget pos (by omega)] at hid
        cases hid
      · rw [if_neg hend]
        obtain ⟨w1, -, h⟩ := h.seq
        refine (ih ?_ h).cons nofun
        rw [passedBy, if_pos rfl, List.range_succ, List.filterMap_append]
        refine List.append_subset.mpr ⟨List.subset_append_of_subset_left _ hseen, ?_⟩
        cases hnext : get progress.cursor <;> simp [TtlVisit.note, hnext]
    · rw [if_neg hphase]
      rcases returns_ite.mp h with ⟨hend, h⟩ | ⟨hend, h⟩
      · rw [if_pos hend]
        exact (ih (List.nil_subset _) h).cons nofun
      · rw [if_neg hend]
        obtain ⟨w1, -, h⟩ := h.seq
        refine (ih ?_ h).cons nofun
        rw [passedBy, if_neg hphase]
        exact List.nil_subset _

end KeepsUp

/-! ### Runs -/

def World.passed (w : World C) : List Nat := passedBy (w.index .activeListings).get w.ttlProgress

theorem extendActiveTtls_keepsUp (hseen : w.passed ⊆ seen)
    (h : Returns (extendActiveTtls env admin maxItems) w n w') :
    KeepsUp (w.index .activeListings).get seen w'.ttlProgress (w.ttlVisits maxItems) := by
  have hget : ∀ pos, (w.index .activeListings).len ≤ pos → (w.index .activeListings).get pos = none :=
    fun pos hpos => if_pos hpos
  obtain ⟨_, h⟩ := h.pass
  unfold World.ttlVisits
  rcases returns_ite.mp h with ⟨hnone, h⟩ | ⟨hsome, h⟩
  · obtain ⟨-, rfl⟩ := h.pure
    split
    · exact .nil hseen
    · -- no budget, and so no round
      rename_i hrecords
      rw [hnone.resolve_right hrecords]
      exact .nil hseen
  · rw [if_neg fun hnone => hsome (.inr hnone)]
    replace h := h.view
    obtain ⟨⟨progress', processed⟩, w1, hsweep, h⟩ := h.bind
    obtain ⟨-, rfl⟩ := h.pure
    exact .of_sweep hget hseen hsweep

/-- The step moves nothing from the cursor or beyond it to below the cursor, unless it is a call of the
sweep itself. -/
def LeavesPassed (host : Host C) (w : World C) (s : Step C) : Prop :=
  (∀ env admin maxItems, s ≠ .call env (.maintenance (.extendActiveTtls admin maxItems))) →
    (step host w s).passed ⊆ w.passed

theorem run_passed
    (hrun : Run.Along (step host) (LeavesPassed host) (.fresh balances collections) steps) :
    (run host (.fresh balances collections) steps).passed ⊆
      inPass (record host ttlRecord (.fresh balances collections) steps) := by
  refine run_record ttlRecord (I := fun log w => w.passed ⊆ inPass log) hrun (List.nil_subset _) ?_
    fun _ _ _ _ h => h
  intro log env op w w' hreach hP h hseen
  by_cases hop : ∃ admin maxItems, op = .maintenance (.extendActiveTtls admin maxItems)
  · obtain ⟨admin, maxItems, rfl⟩ := hop
    have hcall : Returns (MaintenanceOp.exec env (.extendActiveTtls admin maxItems)) w () w' := h
    have hbook : w'.book = w.book := maintenanceOp_book hreach.keyed.legacy hcall
    have hindex : w'.index .activeListings = w.index .activeListings :=
      congrArg (fun b : Book => b.active.index) hbook
    obtain ⟨n, h⟩ := h.discard
    rw [World.passed, hindex, inPass, List.foldl_append]
    exact (extendActiveTtls_keepsUp hseen h).passed
  · have hrecord : ttlRecord env op w w' = [] := by
      unfold ttlRecord
      split
      · exact (hop ⟨_, _, rfl⟩).elim
      · rfl
    have hkept := hP fun env' admin maxItems heq => by
      cases heq
      exact hop ⟨admin, maxItems, rfl⟩
    rw [step_of_returns h] at hkept
    rw [hrecord, List.append_nil]
    exact List.Subset.trans hkept hseen

/-- Three tokens are listed, and the sweep visits the first. -/
def sweepBegun : List (Step Unit) :=
  [.call (.signedBy ⟨1⟩ 100) (.admin (.setAdmin ⟨1⟩)),
    .call (.signedBy ⟨10⟩ 100) (.listing (.createListings ⟨10⟩
      [⟨1000000, "XLM", ⟨50⟩, ⟨60⟩, 7, 1, [⟨⟨10⟩, 10000⟩], none⟩,
        ⟨1000000, "XLM", ⟨50⟩, ⟨60⟩, 8, 1, [⟨⟨10⟩, 10000⟩], none⟩,
        ⟨1000000, "XLM", ⟨50⟩, ⟨60⟩, 9, 1, [⟨⟨10⟩, 10000⟩], none⟩])),
    .call (.signedBy ⟨1⟩ 200) (.maintenance (.extendActiveTtls ⟨1⟩ 1))]

end ElcareHub.Marketplace
