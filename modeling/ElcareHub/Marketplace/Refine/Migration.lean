import ElcareHub.Lib.Resume
import ElcareHub.Marketplace.Refine.Upkeep

/-!
# The migration as a resumable job

`run_migration` is a loop over four phases with a budget: a listing, an auction or an offer costs one
unit, the end of a phase is free, and the legacy active vector is one unit more. Here the loop is
shown to be the bounded run of a job (`migrationRound`) whose remaining work is what `migrate_step`
returns. That the migration may be cut into calls anywhere then follows from the general rules of such jobs.

Two calls of the migration happen in different ledgers and write different events and progress
markers. None of that is read back by the migration: its rounds mirror each other up to events and
upkeep (`World.SameStorage`).
-/

namespace ElcareHub.Marketplace

open Call

set_option synthInstance.maxSize 100000000

variable {C : Type} {env env' : Env} {version : String} {L A O : Nat}
variable {w w' : World C} {α : Type} {budget a b n : Nat} {p q : MigrationProgress}
  {admin : Address}

/-! ### Events and markers are not read back -/

/-- Equal apart from the events and the upkeep markers. -/
def World.SameStorage (w v : World C) : Prop :=
  ∃ events upkeep, v = { w with events, upkeep }

theorem World.SameStorage.refl (w : World C) : w.SameStorage w := ⟨w.events, w.upkeep, rfl⟩

theorem World.SameStorage.symm (h : w.SameStorage v) : v.SameStorage w := by
  obtain ⟨events, upkeep, rfl⟩ := h
  exact ⟨w.events, w.upkeep, rfl⟩

theorem World.SameStorage.trans (h : w.SameStorage v) (h' : v.SameStorage u) : w.SameStorage u := by
  obtain ⟨events, upkeep, rfl⟩ := h
  obtain ⟨events', upkeep', rfl⟩ := h'
  exact ⟨events', upkeep', rfl⟩

theorem mirrors_view
    (hf : ∀ (w : World C) events upkeep, f { w with events, upkeep } = f w) :
    Mirrors World.SameStorage (view f : Tx C α) (view f) :=
  .view fun w _ ⟨events, upkeep, hv⟩ => hv ▸ hf w events upkeep

theorem mirrors_update
    (hf : ∀ (w : World C) events upkeep, f { w with events, upkeep } = { f w with events, upkeep }) :
    Mirrors World.SameStorage (update f : Tx C Unit) (update f) :=
  .update fun w _ ⟨events, upkeep, hv⟩ => ⟨events, upkeep, hv ▸ hf w events upkeep⟩

section Mirrors

variable (id : IndexId) (i v : Nat)

instance : Mirrors World.SameStorage (view fun w : World C => w.index id : Tx C _)
    (view fun w => w.index id) := mirrors_view fun _ _ _ => rfl

instance : Mirrors World.SameStorage (indexLen id : Tx C Nat) (indexLen id) :=
  mirrors_view fun _ _ _ => rfl

instance : Mirrors World.SameStorage (loadListing i : Tx C _) (loadListing i) :=
  mirrors_view fun _ _ _ => rfl

instance : Mirrors World.SameStorage (loadAuction i : Tx C _) (loadAuction i) :=
  mirrors_view fun _ _ _ => rfl

instance : Mirrors World.SameStorage (loadOffer i : Tx C _) (loadOffer i) :=
  mirrors_view fun _ _ _ => rfl

instance : Mirrors World.SameStorage (loadPendingOfferIds i : Tx C _) (loadPendingOfferIds i) :=
  mirrors_view fun _ _ _ => rfl

instance : Mirrors World.SameStorage (view fun w : World C => w.activeListingPos i : Tx C _)
    (view fun w => w.activeListingPos i) := mirrors_view fun _ _ _ => rfl

instance : Mirrors World.SameStorage (view (activeInStorage i) : Tx C Nat)
    (view (activeInStorage i)) := mirrors_view fun _ _ _ => rfl

theorem mirrors_viewLegacy (g : LegacyIndexes → α) :
    Mirrors World.SameStorage (view fun w : World C => g w.legacy : Tx C α)
      (view fun w => g w.legacy) := mirrors_view fun _ _ _ => rfl

instance (f : LegacyIndexes → LegacyIndexes) :
    Mirrors World.SameStorage (modifyLegacy f : Tx C Unit) (modifyLegacy f) :=
  mirrors_update fun _ _ _ => rfl

instance (ix : PagedIndex) :
    Mirrors World.SameStorage (setIndex id ix : Tx C Unit) (setIndex id ix) :=
  mirrors_update fun _ _ _ => rfl

instance (ids : List Nat) :
    Mirrors World.SameStorage (setPendingOffers i ids : Tx C Unit) (setPendingOffers i ids) :=
  mirrors_update fun _ _ _ => rfl

instance (pos : Option Nat) :
    Mirrors World.SameStorage
      (update fun w : World C =>
        { w with activeListingPos := Function.update w.activeListingPos i pos } : Tx C Unit)
      (update fun w =>
        { w with activeListingPos := Function.update w.activeListingPos i pos }) :=
  mirrors_update fun _ _ _ => rfl

/-- Whatever is published. -/
instance (e e' : Event) : Mirrors World.SameStorage (emit e : Tx C Unit) (emit e') :=
  .update fun _ _ ⟨events, upkeep, hv⟩ => ⟨events ++ [e'], upkeep, hv ▸ rfl⟩

/-! #### Units -/

instance : Mirrors World.SameStorage (migrateListingUnit i : Tx C Unit) (migrateListingUnit i) := by
  have hartist (a : Address) := mirrors_viewLegacy (C := C) fun l => l.artistListings a
  have hoffers := mirrors_viewLegacy (C := C) fun l => l.listingOffers i
  infer_instance

instance : Mirrors World.SameStorage (migrateAuctionUnit i : Tx C Unit) (migrateAuctionUnit i) := by
  have hcreator (a : Address) := mirrors_viewLegacy (C := C) fun l => l.artistAuctions a
  infer_instance

instance : Mirrors World.SameStorage (migrateOfferUnit i : Tx C Unit) (migrateOfferUnit i) := by
  have hofferer (a : Address) := mirrors_viewLegacy (C := C) fun l => l.offererOffers a
  infer_instance

instance : Mirrors World.SameStorage (migrateActiveListings : Tx C Nat) migrateActiveListings := by
  have hview := mirrors_viewLegacy (C := C) fun l => l.activeListings
  refine @Mirrors.bind _ _ _ _ _ _ _ _ _ _ fun ids => ?_
  cases ids <;> infer_instance

/-! #### Ends of phases -/

instance : Mirrors World.SameStorage (checkActivePos env i : Tx C Bool) (checkActivePos env' i) := by
  refine @Mirrors.bind _ _ _ _ _ _ _ _ _ _ fun stored => @Mirrors.bind _ _ _ _ _ _ _ _ _ _ fun pos => ?_
  cases stored <;> infer_instance

end Mirrors

/-! ### The job -/

/-- A round of the loop of `run_migration`: what it does at `p` and where that leads. -/
def migrationRound (env : Env) (version : String) (L A O : Nat) (p : MigrationProgress) :
    Round Abort (World C) MigrationProgress :=
  match p.phase with
  | 0 =>
    if p.cursor ≥ L then
      .free (completePhase env version 0 L
        (each (assertPhase0Postcondition env) (recordIds L))) ⟨1, 0⟩
    else .unit (migrateListingUnit (p.cursor + 1)) ⟨0, p.cursor + 1⟩
  | 1 =>
    if p.cursor ≥ A then
      .free (completePhase env version 1 A
        (each (assertPhase1Postcondition env) (recordIds A))) ⟨2, 0⟩
    else .unit (migrateAuctionUnit (p.cursor + 1)) ⟨1, p.cursor + 1⟩
  | 2 =>
    if p.cursor ≥ O then
      .free (completePhase env version 2 O
        (each (assertPhase2Postcondition env) (recordIds O))) ⟨3, 0⟩
    else .unit (migrateOfferUnit (p.cursor + 1)) ⟨2, p.cursor + 1⟩
  | 3 =>
    .unit (do
      let legacyCount ← migrateActiveListings
      completePhase env version 3 legacyCount (assertPhase3Postconditions env L)) ⟨4, p.cursor⟩
  | _ => .stop

/-- The loop runs the job. -/
theorem migrationLoop_eq_resume (fuel budget : Nat) (p : MigrationProgress) :
    (migrationLoop env version L A O fuel budget p : Tx C MigrationProgress) =
      resume (migrationRound env version L A O) fuel budget p := by
  induction fuel generalizing budget p with
  | zero => rfl
  | succ fuel ih =>
    obtain ⟨phase, cursor⟩ := p
    unfold migrationLoop resume
    by_cases hb : budget = 0
    · rw [if_pos hb, if_pos hb]
    · rcases phase with _ | _ | _ | _ | phase
      · by_cases hdone : cursor ≥ L <;> simp only [migrationRound, hdone, if_true, if_false, ih]
      · by_cases hdone : cursor ≥ A <;> simp only [migrationRound, hdone, if_true, if_false, ih]
      · by_cases hdone : cursor ≥ O <;> simp only [migrationRound, hdone, if_true, if_false, ih]
      · simp only [migrationRound, bind_bind, ih]
      · rfl

/-- In whatever ledger a round is made, it does the same to the storage. -/
theorem mirrors_migrationRound (p : MigrationProgress) :
    (migrationRound env version L A O p : Round Abort (World C) _).Mirrors World.SameStorage
      (migrationRound env' version L A O p) := by
  unfold migrationRound
  split
  · split
    · exact .free inferInstance _
    · exact .unit inferInstance _
  · split
    · exact .free inferInstance _
    · exact .unit inferInstance _
  · split
    · exact .free inferInstance _
    · exact .unit inferInstance _
  · exact .unit inferInstance _
  · exact .stop

/-- The units left at `p`. -/
def migrationWork (L A O : Nat) (p : MigrationProgress) : Nat :=
  match p.phase with
  | 0 => L - p.cursor + A + O + 1
  | 1 => A - p.cursor + O + 1
  | 2 => O - p.cursor + 1
  | 3 => 1
  | _ => 0

theorem migrationWork_le (p : MigrationProgress) : migrationWork L A O p ≤ L + A + O + 1 := by
  obtain ⟨phase, cursor⟩ := p
  match phase with
  | 0 | 1 | 2 | 3 | _ + 4 =>
    simp only [migrationWork]
    omega

theorem paced_migration :
    Paced (migrationRound env version L A O : MigrationProgress → Round Abort (World C) _)
      (migrationWork L A O) fun p => 3 - p.phase where
  stop {p} := by
    obtain ⟨_ | _ | _ | _ | phase, cursor⟩ := p <;> simp only [migrationRound, migrationWork]
    iterate 3
      · split <;> simp
    · simp
  free {p act q} h := by
    obtain ⟨_ | _ | _ | _ | phase, cursor⟩ := p <;> simp only [migrationRound] at h
    iterate 3
      · split at h <;> cases h
        simp only [migrationWork]
        omega
    all_goals cases h
  unit {p act q} h := by
    obtain ⟨_ | _ | _ | _ | phase, cursor⟩ := p <;> simp only [migrationRound] at h
    iterate 3
      · split at h <;> cases h
        simp only [migrationWork]
        omega
    all_goals cases h
    simp [migrationWork]

/-- `p` is a position the job can be at: its cursor is within its phase. -/
def MigrationProgress.Within (p : MigrationProgress) (L A O : Nat) : Prop :=
  match p.phase with
  | 0 => p.cursor ≤ L
  | 1 => p.cursor ≤ A
  | 2 => p.cursor ≤ O
  | _ => True

theorem within_of_resume (hp : p.Within L A O)
    (h : Returns (resume (migrationRound env version L A O) fuel budget p) w q w') :
    q.Within L A O := by
  refine resume_invariant (I := (·.Within L A O)) ?_ hp h
  intro p r _ hround
  obtain ⟨phase, cursor⟩ := p
  match phase with
  | 0 | 1 | 2 =>
    simp only [migrationRound] at hround
    split at hround
    · simp only [Round.next, Option.some.injEq] at hround
      subst hround
      simp [MigrationProgress.Within]
    · simp only [Round.next, Option.some.injEq] at hround
      subst hround
      simp only [MigrationProgress.Within]
      omega
  | 3 =>
    simp only [migrationRound, Round.next, Option.some.injEq] at hround
    subst hround
    trivial
  | _ + 4 => simp [migrationRound, Round.next] at hround

/-! ### One call of the engine -/

theorem returns_subNat_bind :
    Returns (subNat a b >>= f) w x w' ↔ b ≤ a ∧ Returns (f (a - b)) w x w' := by
  by_cases h : b ≤ a <;> simp

theorem returns_addU64_bind :
    Returns (addU64 a b >>= f) w x w' ↔ a + b ≤ u64Max ∧ Returns (f (a + b)) w x w' := by
  by_cases h : a + b ≤ u64Max <;> simp

theorem returns_addU64_last : Returns (addU64 a b) w n w' ↔ a + b ≤ u64Max ∧ n = a + b ∧ w = w' := by
  by_cases h : a + b ≤ u64Max <;> simp [h, eq_comm]

/-- What is returned as remaining is the work left; the sum is formed in `u64`. -/
theorem returns_migrationRemaining : Returns (migrationRemaining p L A O) w n w' ↔
      p.Within L A O ∧ migrationWork L A O p ≤ u64Max ∧ n = migrationWork L A O p ∧ w = w' := by
  obtain ⟨phase, cursor⟩ := p
  match phase with
  | 0 =>
    simp only [migrationRemaining, returns_subNat_bind, returns_addU64_bind, returns_addU64_last, migrationWork]
    constructor
    · rintro ⟨hcursor, -, -, hsum, hn, rfl⟩
      exact ⟨hcursor, hsum, hn, rfl⟩
    · rintro ⟨hcursor, hsum, hn, rfl⟩
      exact ⟨hcursor, by omega, by omega, hsum, hn, rfl⟩
  | 1 =>
    simp only [migrationRemaining, returns_subNat_bind, returns_addU64_bind, returns_addU64_last, migrationWork]
    constructor
    · rintro ⟨hcursor, -, hsum, hn, rfl⟩
      exact ⟨hcursor, hsum, hn, rfl⟩
    · rintro ⟨hcursor, hsum, hn, rfl⟩
      exact ⟨hcursor, by omega, hsum, hn, rfl⟩
  | 2 =>
    simp only [migrationRemaining, returns_subNat_bind, returns_addU64_last,
      MigrationProgress.Within, migrationWork]
  | 3 | _ + 4 => simp [migrationRemaining, MigrationProgress.Within, migrationWork, u64Max, eq_comm]

/-- The markers after a call that got to `p` with `remaining` units left. -/
def Upkeep.migrated (version : String) (p : MigrationProgress) (remaining : Nat) (u : Upkeep) :
    Upkeep :=
  if remaining = 0 then
    { u with
      migrationCursor := Function.update u.migrationCursor version none
      migrationStuck := Function.update u.migrationStuck version false
      migrationDone := Function.update u.migrationDone version true }
  else
    { u with
      migrationCursor := Function.update u.migrationCursor version (some p)
      migrationStuck := Function.update u.migrationStuck version true }

/-- Where the migration stands. -/
def World.migrationProgress (w : World C) (version : String) : MigrationProgress :=
  (w.upkeep.migrationCursor version).getD ⟨0, 0⟩

/-- The bounded run of the migration from `p`, as `run_migration` makes it. -/
abbrev migrationRun (env : Env) (version : String) (w : World C) (budget : Nat)
    (p : MigrationProgress) : Tx C MigrationProgress :=
  resume (migrationRound env version w.listingCount w.auctionCount w.offerCount) (budget + 4) budget p

/-- The units a state has left at `p`. -/
abbrev World.migrationWork (w : World C) (p : MigrationProgress) : Nat :=
  Marketplace.migrationWork w.listingCount w.auctionCount w.offerCount p

/-- The units of a migration that has not begun. -/
def World.migrationUnits (w : World C) : Nat := w.listingCount + w.auctionCount + w.offerCount + 1

theorem returns_runMigration :
    Returns (runMigration env version budget) w n w' ↔
      ∃ q w1, Returns (migrationRun env version w budget (w.migrationProgress version)) w q w1 ∧
        q.Within w.listingCount w.auctionCount w.offerCount ∧ w.migrationWork q ≤ u64Max ∧
        n = w.migrationWork q ∧ w' = { w1 with upkeep := w1.upkeep.migrated version q n } := by
  rw [runMigration, returns_view_bind, returns_view_bind, returns_view_bind, returns_view_bind,
    migrationLoop_eq_resume, returns_bind]
  refine exists_congr fun q => exists_congr fun w1 => and_congr_right fun _ => ?_
  rw [returns_bind]
  constructor
  · rintro ⟨m, w2, hrem, h⟩
    obtain ⟨hwithin, hbound, rfl, rfl⟩ := returns_migrationRemaining.mp hrem
    obtain ⟨w3, hmark, hlast⟩ := h.seq
    obtain ⟨rfl, rfl⟩ := hlast.pure
    exact ⟨hwithin, hbound, rfl, (hmark.update).symm⟩
  · rintro ⟨hwithin, hbound, rfl, rfl⟩
    refine ⟨_, w1, returns_migrationRemaining.mpr ⟨hwithin, hbound, rfl, rfl⟩, ?_⟩
    exact returns_seq.mpr ⟨_, returns_update.mpr rfl, returns_pure.mpr ⟨rfl, rfl⟩⟩

/-- The address that may migrate, and has signed. -/
def World.MayMigrate (w : World C) (env : Env) (admin : Address) : Prop :=
  roleHolder w.config .upgrade = some admin ∧ env.auth admin = true

theorem returns_requireRole : Returns (requireRole env caller role) w u w' ↔
      (roleHolder w.config role = some caller ∧ env.auth caller = true) ∧ w = w' := by
  simp only [returns_bind, returns_view, returns_orAbort, returns_abortIf]
  constructor
  · rintro ⟨holder, w1, ⟨config, w2, ⟨rfl, rfl⟩, hholder, rfl⟩, -, w3, ⟨hcaller, rfl⟩, hauth, rfl⟩
    obtain rfl : caller = holder := not_not.mp hcaller
    exact ⟨⟨hholder, by simpa using hauth⟩, rfl⟩
  · rintro ⟨⟨hholder, hauth⟩, rfl⟩
    exact ⟨caller, w, ⟨w.config, w, ⟨rfl, rfl⟩, hholder, rfl⟩, (), w, ⟨by simp, rfl⟩, by simp [hauth],
      rfl⟩

theorem returns_requirePendingMigration : Returns (requirePendingMigration env admin) w v w' ↔
      (w.MayMigrate env admin ∧ w.upkeep.migrationDone contractVersion = false) ∧
        contractVersion = v ∧ w = w' := by
  rw [requirePendingMigration, returns_check fun _ _ => returns_requireRole, returns_view_bind,
    returns_abortIf_bind, returns_pure, Bool.not_eq_true, World.MayMigrate, and_assoc, and_assoc,
    and_assoc]

/-- `migrate_step` as a call of the engine. -/
theorem returns_migrateStep : Returns (migrateStep env admin budget) w n w' ↔
      (w.MayMigrate env admin ∧ w.upkeep.migrationDone contractVersion = false) ∧
        Returns (runMigration env contractVersion budget) w n w' := by
  rw [migrateStep, returns_bind]
  constructor
  · rintro ⟨v, w1, hguard, hrun⟩
    obtain ⟨hpending, rfl, rfl⟩ := returns_requirePendingMigration.mp hguard
    exact ⟨hpending, hrun⟩
  · rintro ⟨hpending, hrun⟩
    exact ⟨_, w, returns_requirePendingMigration.mpr ⟨hpending, rfl, rfl⟩, hrun⟩

/-- `migrate` is `migrate_step` with the largest budget. -/
theorem returns_migrate :
    Returns (migrate env admin) w u w' ↔ ∃ n, Returns (migrateStep env admin u32Max) w n w' := by
  simp only [migrate, migrateStep, returns_bind, returns_pure]
  constructor
  · rintro ⟨v, w1, hguard, n, w2, hrun, -, rfl⟩
    exact ⟨n, v, w1, hguard, hrun⟩
  · rintro ⟨n, v, w1, hguard, hrun⟩
    exact ⟨v, w1, hguard, n, w', hrun, trivial, rfl⟩

/-- What the engine leaves alone. -/
theorem migrationRun_frame (h : Returns (migrationRun env version w0 budget p) w q w')
    (hF : F ∉ [.legacy, .listingPendingOffers, .activeIndex, .history, .activeListingPos, .events]) :
    w'.field F = w.field F := by
  rw [migrationRun, ← migrationLoop_eq_resume] at h
  have hwrites : Writes
      [.legacy, .listingPendingOffers, .activeIndex, .history, .activeListingPos, .events]
      (migrationLoop env version w0.listingCount w0.auctionCount w0.offerCount (budget + 4) budget p :
        Tx C MigrationProgress) := inferInstance
  exact hwrites.get_eq h hF

end ElcareHub.Marketplace
