import ElcareHub.Marketplace.Refine.Migration

/-!
# A migration in steps is the migration

`migrate_step` is called until it returns zero, with whatever budgets, in whatever ledgers and by
whoever holds the upgrade role at the time. The calls get to the position one run on the sum of their
budgets gets to, in a state that differs from its only in the events (`migrateSteps_run`): a step
resumes at the position the previous one stored, and runs may be cut anywhere. The steps return when
that one run does (`migrateSteps_returns`), so a trap in the middle of the migration is met by both.

The marker that is set at the end is never taken back, which is why nothing is migrated twice.
-/

namespace ElcareHub.Marketplace

open Call

set_option synthInstance.maxSize 100000000

variable {C : Type} {host : Host C} {env : Env} {w w' : World C}
variable {admin : Address} {budget n : Nat} {p q : MigrationProgress} {w0 v : World C}

/-! ### One step -/

/-- What a step leaves behind: the state of its run, with the markers of where it got to. -/
theorem migrateStep_run (h : Returns (migrateStep env admin budget) w n w') :
    ∃ q w1, Returns (migrationRun env contractVersion w budget (w.migrationProgress contractVersion))
        w q w1 ∧
      n = w.migrationWork q ∧
      w' = { w1 with upkeep := w.upkeep.migrated contractVersion q n } := by
  obtain ⟨-, hrun⟩ := returns_migrateStep.mp h
  obtain ⟨q, w1, hrun, -, -, hn, hw'⟩ := returns_runMigration.mp hrun
  have hupkeep : w1.upkeep = w.upkeep := migrationRun_frame hrun (F := .upkeep) (by decide)
  exact ⟨q, w1, hrun, hn, hupkeep ▸ hw'⟩

/-- A step does as many units as its budget allows. -/
theorem migrationRun_work (h : Returns (migrationRun env contractVersion w0 budget p) w q w') :
    w0.migrationWork q = w0.migrationWork p - min budget (w0.migrationWork p) :=
  (paced_migration.work_of_resume (by omega) h).1

/-- In another ledger and from a state with the same storage, a run goes the same way. -/
theorem migrationRun_mirror (env' : Env)
    (h : Returns (migrationRun env contractVersion w0 budget p) w q w') (hv : w.SameStorage v) :
    ∃ v', Returns (migrationRun env' contractVersion w0 budget p) v q v' ∧ w'.SameStorage v' :=
  (mirrors_resume (fun _ => mirrors_migrationRound _) _ _ _).run hv h

/-- A run on the sum of two budgets is two runs. -/
theorem migrationRun_add : Returns (migrationRun env contractVersion w0 (m + n) p) w r w' ↔
      ∃ q w1, Returns (migrationRun env contractVersion w0 m p) w q w1 ∧
        Returns (migrationRun env contractVersion w0 n q) w1 r w' := by
  rw [migrationRun, paced_migration.resume_add (f := m + 4) (g := n + 4) (by omega) (by omega)
    (by omega), returns_bind]

/-! ### A sequence of steps -/

/-- A call of `migrate_step`. -/
structure MigrationCall where
  env : Env
  admin : Address
  budget : Nat

/-- The calls one after another, and what each returns. -/
def migrateSteps (calls : List MigrationCall) : Tx C (List Nat) :=
  collect (fun c => migrateStep c.env c.admin c.budget) calls

/-- What is left after each budget of a list, when each takes as much off as it can. -/
def countdown : Nat → List Nat → List Nat
  | _, [] => []
  | left, b :: bs => (left - min b left) :: countdown (left - min b left) bs

/-- A step neither makes records nor changes who may migrate. -/
theorem migrateStep_frame (h : Returns (migrateStep env admin budget) w n w')
    (hF : F ∉ [.upkeep, .legacy, .listingPendingOffers, .activeIndex, .history, .activeListingPos,
      .events]) : w'.field F = w.field F := by
  obtain ⟨q, w1, hrun, -, rfl⟩ := migrateStep_run h
  have hfield : w1.field F = w.field F :=
    migrationRun_frame hrun fun hmem => hF (List.mem_cons_of_mem _ hmem)
  rw [← hfield]
  cases F <;> first | rfl | simp at hF

theorem migrateStep_counts (h : Returns (migrateStep env admin budget) w n w') :
    w'.listingCount = w.listingCount ∧ w'.auctionCount = w.auctionCount ∧
      w'.offerCount = w.offerCount :=
  ⟨migrateStep_frame h (F := .listingCount) (by decide),
    migrateStep_frame h (F := .auctionCount) (by decide),
    migrateStep_frame h (F := .offerCount) (by decide)⟩

/-- The job is the same after a step. -/
theorem migrateStep_job (h : Returns (migrateStep env admin budget) w n w') (env' : Env) :
    w'.migrationWork = w.migrationWork ∧
      migrationRun env' contractVersion w' = migrationRun env' contractVersion w := by
  obtain ⟨hlistings, hauctions, hoffers⟩ := migrateStep_counts h
  constructor
  · funext p
    rw [World.migrationWork, World.migrationWork, hlistings, hauctions, hoffers]
  · funext b p
    rw [migrationRun, migrationRun, hlistings, hauctions, hoffers]

theorem migrationDone_of_step (h : Returns (migrateStep env admin budget) w n w') :
    w'.upkeep.migrationDone contractVersion = true ↔ n = 0 := by
  have hpending := (returns_migrateStep.mp h).1.2
  obtain ⟨q, w1, -, -, rfl⟩ := migrateStep_run h
  by_cases hn : n = 0 <;> simp [Upkeep.migrated, hn, hpending]

/-- An unfinished step stores the position it got to. -/
theorem migrationProgress_migrated {w1 : World C} (hn : n ≠ 0) (u : Upkeep) :
    { w1 with upkeep := u.migrated contractVersion q n }.migrationProgress contractVersion = q := by
  simp [World.migrationProgress, Upkeep.migrated, hn]

/-- **Steps are one run.** Steps that all return get to where one run on all their budgets, in any
ledger, gets to; the storage is the same, and every step but the last left work to do. -/
theorem migrateSteps_run (env : Env) (hcalls : calls ≠ [])
    (h : Returns (migrateSteps calls) w rs w')
    (hwork : 0 < w.migrationWork (w.migrationProgress contractVersion)) :
    let p := w.migrationProgress contractVersion
    let budgets := calls.map (·.budget)
    rs = countdown (w.migrationWork p) budgets ∧ budgets.dropLast.sum < w.migrationWork p ∧
      ∃ q v, Returns (migrationRun env contractVersion w budgets.sum p) w q v ∧ v.SameStorage w' ∧
        rs.getLast? = some (w.migrationWork q) ∧
        w'.upkeep = w.upkeep.migrated contractVersion q (w.migrationWork q) := by
  -- Induction on the calls, from the first: its run is continued by the one run of the others.
  induction calls generalizing w rs with
  | nil => exact (hcalls rfl).elim
  | cons c calls ih =>
    obtain ⟨n, w1, hstep, rs', w2, hrest, rfl, rfl⟩ := returns_collect_cons.mp h
    obtain ⟨q1, v1, hrun, hn, hw1⟩ := migrateStep_run hstep
    obtain ⟨t1, hrun1, ht1⟩ := migrationRun_mirror env hrun (.refl w)
    have hleft := migrationRun_work hrun
    have hstorage : w1.SameStorage t1 := by
      rw [hw1]
      exact World.SameStorage.trans ⟨v1.events, v1.upkeep, rfl⟩ ht1
    cases calls with
    | nil =>
      obtain ⟨rfl, rfl⟩ := returns_collect_nil.mp hrest
      refine ⟨by simp [countdown, hn, hleft], by simpa using hwork, q1, t1, ?_, hstorage.symm,
        by simp [hn], by rw [hw1, hn]⟩
      simpa using hrun1
    | cons c' calls =>
      obtain ⟨n', w3, hstep', -⟩ := returns_collect_cons.mp hrest
      have hpending : w1.upkeep.migrationDone contractVersion = false :=
        (returns_migrateStep.mp hstep').1.2
      have hn0 : n ≠ 0 := fun h0 => by simp [(migrationDone_of_step hstep).mpr h0] at hpending
      have hprogress : w1.migrationProgress contractVersion = q1 := by
        rw [hw1]
        exact migrationProgress_migrated hn0 _
      obtain ⟨hunits, hrounds⟩ := migrateStep_job hstep env
      have hwork1 : w1.migrationWork (w1.migrationProgress contractVersion) = n := by
        rw [hunits, hprogress, hn]
      obtain ⟨hrs, hcut, q, v, hrun2, hv, hlast, hupkeep⟩ :=
        ih (by simp) hrest (by omega)
      rw [hrounds, hprogress] at hrun2
      rw [hunits] at hlast hupkeep
      obtain ⟨t, hrun3, ht⟩ := migrationRun_mirror env hrun2 hstorage
      rw [hwork1] at hrs hcut
      refine ⟨?_, ?_, q, t, ?_, ht.symm.trans hv, ?_, ?_⟩
      · rw [hrs, hn, hleft]
        rfl
      · simp only [List.map_cons, List.dropLast_cons₂, List.sum_cons] at hcut ⊢
        omega
      · exact migrationRun_add.mpr ⟨q1, t1, hrun1, hrun3⟩
      · rw [List.getLast?_cons, hlast]
        rfl
      · rw [hupkeep, hw1]
        -- the markers of a call overwrite those of an unfinished earlier one
        by_cases hdone : w.migrationWork q = 0 <;> simp [Upkeep.migrated, hn0]

/-- **One run is steps.** If one run on all their budgets returns, then the steps do: they trap nowhere
that it does not. -/
theorem migrateSteps_returns (hmay : ∀ c ∈ calls, w.MayMigrate c.env c.admin)
    (hpending : w.upkeep.migrationDone contractVersion = false)
    (hwithin : (w.migrationProgress contractVersion).Within w.listingCount w.auctionCount w.offerCount)
    (hunits : w.listingCount + w.auctionCount + w.offerCount + 1 ≤ u64Max)
    (hcut : (calls.map (·.budget)).dropLast.sum <
      w.migrationWork (w.migrationProgress contractVersion))
    (hrun : Returns (migrationRun env contractVersion w (calls.map (·.budget)).sum
      (w.migrationProgress contractVersion)) w q v) :
    ∃ rs w', Returns (migrateSteps calls) w rs w' := by
  induction calls generalizing w v with
  | nil => exact ⟨[], w, returns_collect_nil.mpr ⟨rfl, rfl⟩⟩
  | cons c calls ih =>
    rw [List.map_cons] at hrun
    obtain ⟨q1, v1, hfirst, hothers⟩ := migrationRun_add.mp hrun
    -- the first step: the first part of the run, in the ledger of the call
    obtain ⟨t1, hfirst', ht1⟩ := migrationRun_mirror c.env hfirst (.refl w)
    have hwithin1 := within_of_resume hwithin hfirst'
    have hbound : w.migrationWork q1 ≤ u64Max := (migrationWork_le q1).trans hunits
    have hstep := returns_migrateStep.mpr ⟨⟨hmay c List.mem_cons_self, hpending⟩,
      returns_runMigration.mpr ⟨q1, t1, hfirst', hwithin1, hbound, rfl, rfl⟩⟩
    generalize hw1 : { t1 with upkeep := _ } = w1 at hstep
    cases calls with
    | nil => exact ⟨[w.migrationWork q1], w1, returns_collect_cons.mpr ⟨_, _, hstep, by simp⟩⟩
    | cons c' calls =>
      simp only [List.map_cons, List.dropLast_cons₂, List.sum_cons] at hcut
      have hleft := migrationRun_work hfirst
      have hn0 : w.migrationWork q1 ≠ 0 := by omega
      have hprogress : w1.migrationProgress contractVersion = q1 := by
        rw [← hw1]
        exact migrationProgress_migrated hn0 _
      obtain ⟨hwork, hrounds⟩ := migrateStep_job hstep env
      obtain ⟨hlistings, hauctions, hoffers⟩ := migrateStep_counts hstep
      have hconfig : w1.config = w.config := migrateStep_frame hstep (F := .config) (by decide)
      have hpending1 : w1.upkeep.migrationDone contractVersion = false :=
        Bool.eq_false_iff.mpr fun hdone => hn0 ((migrationDone_of_step hstep).mp hdone)
      have hstorage : v1.SameStorage w1 := hw1 ▸ ht1.trans ⟨_, _, rfl⟩
      obtain ⟨v', hothers', -⟩ := migrationRun_mirror env hothers hstorage
      obtain ⟨rs, w', hrest⟩ := ih
        (fun d hd => by
          unfold World.MayMigrate
          rw [hconfig]
          exact hmay d (List.mem_cons_of_mem c hd))
        hpending1 (by rw [hprogress, hlistings, hauctions, hoffers]; exact hwithin1)
        (by rw [hlistings, hauctions, hoffers]; exact hunits)
        (by
          rw [hprogress, hwork]
          simp only [List.map_cons]
          omega)
        (by rw [hrounds, hprogress]; exact hothers')
      exact ⟨w.migrationWork q1 :: rs, w', returns_collect_cons.mpr
        ⟨_, _, hstep, rs, w', hrest, rfl, rfl⟩⟩

/-! ### The completion marker -/

/-- The versions the contract has been migrated to. -/
def World.migrationDone (w : World C) : String → Bool := w.upkeep.migrationDone

instance : Ignores (World.migrationDone (C := C)) World.field besideCursors where
  eq_of_outside h := congrArg Upkeep.migrationDone (h .upkeep (by decide))

/-- Other cursors. -/
instance (listings auctions : Upkeep → Address → Option Nat)
    (ttl : Upkeep → Option TtlSweepProgress) (cleanup : Upkeep → Option TerminalCleanupCursor) :
    Preserves World.migrationDone (modifyUpkeep fun u => { u with
      artistCancelCursor := listings u, artistAuctionCancelCursor := auctions u,
      ttlSweepState := ttl u, terminalCleanupCursor := cleanup u } : Tx C Unit) :=
  .update fun _ => rfl

theorem maintenanceOp_migrationDone {op : MaintenanceOp} (hop : op.IsSweep) :
    Preserves World.migrationDone (op.exec env : Tx C Unit) := by
  cases op <;> unfold MaintenanceOp.exec
  case migrate => exact hop.elim
  case migrateStep => exact hop.elim
  all_goals infer_instance

/-- Once it is set, no migration call returns. -/
theorem not_returns_migrateStep (hdone : w.migrationDone contractVersion = true) :
    ¬ Returns (migrateStep env admin budget) w n w' := by
  intro h
  have hpending : w.migrationDone contractVersion = false := (returns_migrateStep.mp h).1.2
  rw [hdone] at hpending
  cases hpending

theorem not_returns_migrate (hdone : w.migrationDone contractVersion = true) :
    ¬ Returns (migrate env admin) w u w' := by
  intro h
  obtain ⟨n, hstep⟩ := returns_migrate.mp h
  exact not_returns_migrateStep hdone hstep

theorem op_migrationDone {op : Op} (hdone : w.migrationDone contractVersion = true)
    (h : Returns (op.exec host env) w () w') : w'.migrationDone contractVersion = true := by
  have frame (hframe : w'.migrationDone = w.migrationDone) :
      w'.migrationDone contractVersion = true := hframe ▸ hdone
  cases op with
  | maintenance op =>
    by_cases hop : op.IsSweep
    · exact frame ((maintenanceOp_migrationDone hop).eq h)
    · cases op with
      | migrate => exact (not_returns_migrate hdone h).elim
      | migrateStep =>
        obtain ⟨n, hstep⟩ := h.discard
        exact (not_returns_migrateStep hdone hstep).elim
      | _ => exact (hop trivial).elim
  | _ => exact frame (op_cursors h fun _ => nofun)

/-- The marker survives every run. -/
theorem run_migrationDone (host : Host C) (hdone : w.migrationDone contractVersion = true)
    (steps : List (Step C)) : (run host w steps).migrationDone contractVersion = true :=
  along_calls (P := fun _ _ => True) (I := fun w : World C => w.migrationDone contractVersion = true)
    (Run.along_of_forall fun _ _ => trivial) hdone (fun _ _ _ _ _ h hw => op_migrationDone hw h)
    fun _ _ _ hw => hw

/-! ### Stepped against one-shot -/

/-- All budgets that cover the work make the same run. -/
theorem migrationRun_enough (hm : w.migrationWork p ≤ m) (hn : w.migrationWork p ≤ n) :
    migrationRun env contractVersion w m p = migrationRun env contractVersion w n p :=
  paced_migration.resume_enough hm hn (by omega) (by omega)

/-- A run on enough budget is one call of `migrate`. -/
theorem migrate_of_run (hmay : w.MayMigrate env admin)
    (hpending : w.upkeep.migrationDone contractVersion = false)
    (hwithin : (w.migrationProgress contractVersion).Within w.listingCount w.auctionCount w.offerCount)
    (hunits : w.migrationWork (w.migrationProgress contractVersion) ≤ u32Max)
    (hbudget : w.migrationWork (w.migrationProgress contractVersion) ≤ budget)
    (hrun : Returns (migrationRun env contractVersion w budget (w.migrationProgress contractVersion))
      w q v) :
    Returns (migrate env admin) w ()
      { v with upkeep := w.upkeep.migrated contractVersion q (w.migrationWork q) } := by
  have hleft := migrationRun_work hrun
  have hupkeep : v.upkeep = w.upkeep := migrationRun_frame hrun (F := .upkeep) (by decide)
  have hwithin' := within_of_resume hwithin hrun
  rw [migrationRun_enough hbudget hunits] at hrun
  refine returns_migrate.mpr ⟨w.migrationWork q, returns_migrateStep.mpr ⟨⟨hmay, hpending⟩,
    returns_runMigration.mpr ⟨q, v, hrun, hwithin', by omega, rfl, ?_⟩⟩⟩
  rw [hupkeep]

/-- For every state in which the migration is pending and has not begun, with fewer than `2 ^ 32` units
to process, and every sequence of calls of `migrate_step` with positive budgets:

* each call that returns takes `min budget remaining` off the remaining units, and there are no more
  calls than units;
* if the last one returned zero, then `migrate` would have returned too, and left the same state apart
  from the events; and no later call of either returns, whatever happens in between;
* if `migrate` returns, then so do the steps, down to zero. -/
theorem stepped_migration_eq_migrate (host : Host C)
    (hpending : w.upkeep.migrationDone contractVersion = false)
    (hbegin : w.upkeep.migrationCursor contractVersion = none) (hunits : w.migrationUnits < 2 ^ 32)
    (calls : List MigrationCall) (hbudgets : ∀ c ∈ calls, 0 < c.budget) :
    (∀ rs w', Returns (migrateSteps calls) w rs w' →
      rs = countdown w.migrationUnits (calls.map (·.budget)) ∧ calls.length ≤ w.migrationUnits ∧
      (rs.getLast? = some 0 → (∀ env admin, w.MayMigrate env admin →
          ∃ w₁, Returns (migrate env admin) w () w₁ ∧ w' = { w₁ with events := w'.events }) ∧
        ∀ later env admin budget n w₂, ¬ Returns (migrate env admin) (run host w' later) () w₂ ∧
          ¬ Returns (migrateStep env admin budget) (run host w' later) n w₂)) ∧
    ∀ env admin w₁, Returns (migrate env admin) w () w₁ → (∀ c ∈ calls, w.MayMigrate c.env c.admin) →
      (calls.map (·.budget)).dropLast.sum < w.migrationUnits →
      w.migrationUnits ≤ (calls.map (·.budget)).sum →
      ∃ rs w', Returns (migrateSteps calls) w rs w' ∧ rs.getLast? = some 0 := by
  have hprogress : w.migrationProgress contractVersion = ⟨0, 0⟩ := by
    simp [World.migrationProgress, hbegin]
  have hwork : w.migrationWork (w.migrationProgress contractVersion) = w.migrationUnits := by
    rw [hprogress]
    rfl
  have hpos : 0 < w.migrationUnits := Nat.succ_pos _
  have hwithin : (w.migrationProgress contractVersion).Within w.listingCount w.auctionCount
      w.offerCount := by
    rw [hprogress]
    exact Nat.zero_le _
  have hu32 : w.migrationUnits ≤ u32Max := Nat.le_of_lt_succ hunits
  refine ⟨fun rs w' h => ?_, fun env admin w₁ hmigrate hmay hcut hsum => ?_⟩
  · by_cases hcalls : calls = []
    · subst hcalls
      obtain ⟨rfl, -⟩ := returns_collect_nil.mp h
      exact ⟨rfl, Nat.zero_le _, by simp⟩
    have hsteps (env : Env) := migrateSteps_run env hcalls h (hwork ▸ hpos)
    simp only [hwork] at hsteps
    obtain ⟨hrs, hcut, -⟩ := hsteps (calls.head hcalls).env
    refine ⟨hrs, ?_, fun hlast => ⟨fun env admin hmay => ?_, fun later env admin budget n w₂ => ?_⟩⟩
    · -- every step but the last does at least one unit
      have hlength : (calls.map (·.budget)).dropLast.length ≤ (calls.map (·.budget)).dropLast.sum := by
        refine List.length_le_sum_of_one_le _ fun b hb => ?_
        obtain ⟨c, hc, rfl⟩ := List.mem_map.mp (List.dropLast_subset _ hb)
        exact hbudgets c hc
      simp only [List.length_dropLast, List.length_map] at hlength
      omega
    · obtain ⟨-, -, q, v, hrun, hv, hq, hupkeep⟩ := hsteps env
      have hq0 : w.migrationWork q = 0 := Option.mem_unique hq hlast
      have hleft := migrationRun_work hrun
      refine ⟨_, migrate_of_run hmay hpending hwithin (by omega) (by omega) hrun, ?_⟩
      obtain ⟨events, upkeep, rfl⟩ := hv
      rw [← hupkeep]
    · obtain ⟨-, -, q, v, -, -, hq, hupkeep⟩ := hsteps env
      have hq0 : w.migrationWork q = 0 := Option.mem_unique hq hlast
      have hdone : w'.migrationDone contractVersion = true := by
        rw [World.migrationDone, hupkeep, hq0]
        simp [Upkeep.migrated]
      have hlater := run_migrationDone host hdone later
      exact ⟨not_returns_migrate hlater, not_returns_migrateStep hlater⟩
  · obtain ⟨n, hstep⟩ := returns_migrate.mp hmigrate
    obtain ⟨q, v, hrun, -⟩ := migrateStep_run hstep
    rw [migrationRun_enough (n := (calls.map (·.budget)).sum) (by omega) (by omega)] at hrun
    obtain ⟨rs, w', h⟩ := migrateSteps_returns hmay hpending hwithin
      (by unfold World.migrationUnits at hu32; exact hu32.trans (by decide)) (by omega) hrun
    have hcalls : calls ≠ [] := by
      rintro rfl
      simp at hsum
      omega
    obtain ⟨-, -, q', v', hrun', -, hlast, -⟩ := migrateSteps_run env hcalls h (hwork ▸ hpos)
    have hleft := migrationRun_work hrun'
    have hq0 : w.migrationWork q' = 0 := by omega
    exact ⟨rs, w', h, hq0 ▸ hlast⟩

/-- A listing of the time before the paged indexes. -/
def oldListing (listingId : Nat) : Listing where
  listingId := listingId
  artist := ⟨10⟩
  price := 1000000
  currency := "XLM"
  token := ⟨50⟩
  collection := ⟨60⟩
  tokenId := listingId
  quantity := 1
  recipients := [⟨⟨10⟩, 10000⟩]
  status := .active
  owner := none
  createdAt := 1
  protocolFeeBps := 0
  expiresAt := none
  reservedFor := none
  reservationStart := none
  reservationEnd := none

/-- A pending offer on the first listing. -/
def oldOffer (offerId : Nat) : Offer := ⟨offerId, 1, ⟨20⟩, 500000, ⟨50⟩, .pending, 2, none⟩

/-- An upgraded contract with two listings of one artist and two offers on the first, whose legacy
vector of offers is `offers`. -/
def upgraded (offers : List Nat) : World Unit :=
  { World.fresh (fun _ => 0) () with
    config := { Config.fresh with admin := some ⟨1⟩ }
    listingCount := 2
    listing := fun i => if i = 1 ∨ i = 2 then some (oldListing i) else none
    offerCount := 2
    offer := fun i => if i = 1 ∨ i = 2 then some (oldOffer i) else none
    legacy :=
      { artistListings := fun a => if a = ⟨10⟩ then some [1, 2] else none
        artistAuctions := fun _ => none
        offererOffers := fun a => if a = ⟨20⟩ then some [1, 2] else none
        listingOffers := fun i => if i = 1 then some offers else none
        activeListings := some [1, 2] } }

/-- Five units, migrated in three steps with a cut at the end of the first phase. -/
theorem stepped_migration_eq_migrate_upgraded :
    let w := upgraded [1, 2]
    let env := Env.signedBy ⟨1⟩ 300
    let calls := [⟨.signedBy ⟨1⟩ 100, ⟨1⟩, 2⟩, ⟨.signedBy ⟨1⟩ 200, ⟨1⟩, 1⟩, ⟨env, ⟨1⟩, 7⟩]
    ∃ w' w₁, Returns (migrateSteps calls) w [3, 2, 0] w' ∧ Returns (migrate env ⟨1⟩) w () w₁ ∧
      w' = { w₁ with events := w'.events } ∧
      ∀ w₂, ¬ Returns (migrate env ⟨1⟩) (run (Host.accepting ⟨0⟩ ⟨10⟩) w' []) () w₂ := by
  intro w env calls
  obtain ⟨rs, w', h, hrs⟩ := exists_returns (c := migrateSteps calls) (s := w)
    (p := fun rs _ => decide (rs = [3, 2, 0])) (by decide +kernel)
  obtain rfl : rs = [3, 2, 0] := of_decide_eq_true hrs
  obtain ⟨-, -, hdone⟩ := (stepped_migration_eq_migrate (Host.accepting ⟨0⟩ ⟨10⟩) (w := w) rfl rfl
    (by decide) calls (by decide)).1 _ w' h
  obtain ⟨hsame, hlater⟩ := hdone rfl
  obtain ⟨w₁, hmigrate, heq⟩ := hsame env ⟨1⟩ ⟨rfl, rfl⟩
  exact ⟨w', w₁, h, hmigrate, heq, fun w₂ => (hlater [] env ⟨1⟩ 0 0 w₂).1⟩

end ElcareHub.Marketplace
