import ElcareHub.Marketplace.Refine.Archive
import ElcareHub.Marketplace.Safety.SteppedMigration

/-!
# What the migration keeps

After a complete migration every history index holds what it held and then what only the legacy vector
held, each entry once; no vector is left; the active-listing index holds the active ones of both
(`World.Lossless`).

The pending sets are the exception. The guard against duplicates compares with the set as it was
before the loop over the legacy vector, not with the set as it grows, so that a vector that names a
pending offer twice puts it into the set twice. `migration_lossless_iff` says when that, or an
inconsistency that was there before, spoils the result.
-/

namespace ElcareHub.Marketplace

open Call Drain

variable {C : Type} {env : Env} {w w' : World C}

/-- A state whose migration is pending and has not begun: records are numbered from one, and every
legacy vector of an artist, a creator or an offerer has a stored record to it. -/
structure World.Unmigrated (w : World C) : Prop where
  pending : w.upkeep.migrationDone contractVersion = false
  unbegun : w.upkeep.migrationCursor contractVersion = none
  listings : ∀ {k l}, w.listing k = some l → 1 ≤ k ∧ k ≤ w.listingCount
  auctions : ∀ {k a}, w.auction k = some a → 1 ≤ k ∧ k ≤ w.auctionCount
  offers : ∀ {k o}, w.offer k = some o → 1 ≤ k ∧ k ≤ w.offerCount
  artist : ∀ {a}, w.legacy.artistListings a ≠ none → ∃ k l, w.listing k = some l ∧ l.artist = a
  creator : ∀ {a}, w.legacy.artistAuctions a ≠ none → ∃ k x, w.auction k = some x ∧ x.creator = a
  offerer : ∀ {a}, w.legacy.offererOffers a ≠ none → ∃ k o, w.offer k = some o ∧ o.offerer = a

/-- The migration has been completed, in one call or in steps. -/
def World.MigratesTo (w w' : World C) : Prop :=
  (∃ env admin, Returns (migrate env admin) w () w' ∧ w'.migrationDone contractVersion = true) ∨
    ∃ calls rs, Returns (migrateSteps calls) w rs w' ∧ rs.getLast? = some 0

/-- Offer `i` is stored as a pending offer on listing `k`. -/
def World.PendingOn (w : World C) (k i : Nat) : Prop :=
  ∃ o, w.offer i = some o ∧ o.status = .pending ∧ o.listingId = k

/-- What the migration is to achieve. -/
structure World.Lossless (w w' : World C) : Prop where
  indexes : ∀ id, id ≠ .activeListings → ∀ xs, (w.index id).Lists xs →
    (w'.index id).Lists (xs ++ Drain.fresh xs ((w.legacy.get id).getD []))
  legacy : w'.legacy = .empty
  active : ∀ xs, w.book.active.Lists xs → ∃ xs', w'.book.active.Lists xs' ∧ ∀ i, i ∈ xs' ↔
    (i ∈ xs ∨ i ∈ (w.legacy.get .activeListings).getD []) ∧ w.archive.IsActive i
  pending : ∀ k i, w.PendingOn k i →
    i ∈ w.listingPendingOffers k ∨ i ∈ (w.legacy.get (.listingOffers k)).getD [] →
    (w'.listingPendingOffers k).count i = 1

/-- No pending offer stands twice where the migration would keep it twice, every vector of a listing's
offers is that of a stored listing, and only active listings are in the active index. -/
structure World.Consistent (w : World C) : Prop where
  once : ∀ k i, w.PendingOn k i → (w.listingPendingOffers k).count i ≤ 1 ∧
    (i ∉ w.listingPendingOffers k → ((w.legacy.get (.listingOffers k)).getD []).count i ≤ 1)
  listing : ∀ k, w.legacy.get (.listingOffers k) ≠ none → ∃ l, w.listing k = some l
  active : ∀ xs, w.book.active.Lists xs → ∀ i ∈ xs, w.archive.IsActive i

/-! ### The complete run -/

/-- A completed migration left the storage of one run on all its units. -/
theorem World.MigratesTo.run (hw : w.Unmigrated) (h : w.MigratesTo w') :
    ∃ (env : Env) (q : MigrationProgress) (v : World C),
      Returns (migrationRun env contractVersion w w.migrationUnits ⟨0, 0⟩) w q v ∧
      v.SameStorage w' := by
  -- a call of `migrate` is a sequence of one step
  obtain ⟨calls, rs, hsteps, hlast⟩ : ∃ calls rs, Returns (migrateSteps calls) w rs w' ∧
      rs.getLast? = some 0 := by
    rcases h with ⟨env, admin, hmigrate, hdone⟩ | hsteps
    · obtain ⟨n, hstep⟩ := returns_migrate.mp hmigrate
      obtain rfl := (migrationDone_of_step hstep).mp hdone
      exact ⟨[⟨env, admin, u32Max⟩], [0], returns_collect_cons.mpr ⟨0, w', hstep, by simp⟩, rfl⟩
    · exact hsteps
  have hcalls : calls ≠ [] := by
    rintro rfl
    obtain ⟨rfl, -⟩ := returns_collect_nil.mp hsteps
    cases hlast
  have hprogress : w.migrationProgress contractVersion = ⟨0, 0⟩ := by
    simp [World.migrationProgress, hw.unbegun]
  have hwork : w.migrationWork ⟨0, 0⟩ = w.migrationUnits := rfl
  have hpos : 0 < w.migrationUnits := Nat.succ_pos _
  obtain ⟨-, -, q, v, hrun, hv, hq, -⟩ := migrateSteps_run (calls.head hcalls).env hcalls hsteps
    (by rw [hprogress]; exact hpos)
  have hq0 : w.migrationWork q = 0 := Option.mem_unique hq hlast
  have hleft := migrationRun_work hrun
  rw [hprogress] at hrun hleft
  rw [migrationRun_enough (n := w.migrationUnits) (by omega) (by omega)] at hrun
  exact ⟨_, q, v, hrun, hv⟩

/-! ### What is visited -/

theorem mem_recordIds : k ∈ recordIds n ↔ 1 ≤ k ∧ k ≤ n := by
  rw [recordIds, List.mem_range'_1]
  omega

/-- A listing's offers are visited with the listing. -/
theorem visitedShelves_listingOffers (hw : w.Unmigrated) (k : Nat) :
    visitedShelves w (.listingOffers k) ↔ ∃ l, w.listing k = some l := by
  constructor
  · rintro (⟨j, -, l, hl, hid⟩ | ⟨j, -, a, -, hid⟩ | ⟨j, -, o, -, hid⟩)
    · obtain rfl : k = j := by simpa using hid
      exact ⟨l, hl⟩
    · cases hid
    · cases hid
  · rintro ⟨l, hl⟩
    exact .inl ⟨k, mem_recordIds.mpr (hw.listings hl), l, hl, .inr rfl⟩

/-- All other shelves that have something on them are visited. -/
theorem visitedShelves_of_legacy (hw : w.Unmigrated) {id : IndexId} (hactive : id ≠ .activeListings)
    (hoffers : ∀ k, id ≠ .listingOffers k) (hid : w.legacy.get id ≠ none) : visitedShelves w id := by
  cases id with
  | activeListings => exact (hactive rfl).elim
  | listingOffers k => exact (hoffers k rfl).elim
  | tokenWhitelist => exact (hid rfl).elim
  | artistListings a =>
    obtain ⟨k, l, hl, rfl⟩ := hw.artist hid
    exact .inl ⟨k, mem_recordIds.mpr (hw.listings hl), l, hl, .inl rfl⟩
  | artistAuctions a =>
    obtain ⟨k, x, hx, rfl⟩ := hw.creator hid
    exact .inr (.inl ⟨k, mem_recordIds.mpr (hw.auctions hx), x, hx, rfl⟩)
  | offererOffers a =>
    obtain ⟨k, o, ho, rfl⟩ := hw.offerer hid
    exact .inr (.inr ⟨k, mem_recordIds.mpr (hw.offers ho), o, ho, rfl⟩)

/-! ### The result -/

/-- How often a pending offer stands in the pending set after the migration. -/
theorem count_reopens (hi : w.PendingOn k i)
    (h : Archive.Reopens w.offer ys before after) :
    after.count i = before.count i + if i ∈ before then 0 else ys.count i := by
  obtain ⟨o, ho, hstatus, -⟩ := hi
  rw [h, List.count_append]
  by_cases hmem : i ∈ before
  · rw [if_pos hmem, Nat.add_left_cancel_iff, List.count_eq_zero]
    intro hfilter
    have hnot := (List.mem_filter.mp hfilter).2
    simp [hmem] at hnot
  · simp [hmem, ho, hstatus]

/-- The effect of a completed migration on the state. -/
structure World.Drained (w w' : World C) : Prop where
  shelf : ∀ id, id ≠ .activeListings →
    DrainedIf Archive.Shelves (visitedShelves w id) (w.archive.shelf id) (w'.archive.shelf id)
  openOffers : ∀ k, DrainedIf (Archive.Reopens w.offer) (visitedShelves w (.listingOffers k))
    (w.archive.openOffers k) (w'.archive.openOffers k)
  legacy : w'.legacy.get .activeListings = none
  active : ∀ xs, w.book.active.Lists xs → ∃ xs', w'.book.active.Lists xs' ∧ ∀ i, i ∈ xs' ↔
    i ∈ xs ∨ i ∈ (w.legacy.get .activeListings).getD [] ∧ w.archive.IsActive i

theorem World.MigratesTo.drained (hw : w.Unmigrated) (h : w.MigratesTo w') : w.Drained w' := by
  obtain ⟨env, q, v, hrun, hv⟩ := h.run hw
  obtain ⟨b, active, hmoved, harchive, hlists⟩ := migrationRun_moved hrun
  rw [← hv.archive] at harchive
  -- the last phase leaves the other shelves and the pending sets alone
  have hshelf {id : IndexId} (hid : id ≠ .activeListings) : w'.archive.shelf id = b.shelf id := by
    rw [harchive]
    simp only [Archive.shelf, Archive.setActive, LegacyIndexes.get_erase_of_ne _ hid,
      Function.update_of_ne hid]
  have hopen (k : Nat) : w'.archive.openOffers k = b.openOffers k := by
    rw [harchive]
    have hne : IndexId.listingOffers k ≠ .activeListings := by simp
    simp only [Archive.openOffers, Archive.setActive, LegacyIndexes.get_erase_of_ne _ hne]
  -- and the first phases leave the active listings alone
  have hvisited : ¬ visitedShelves w .activeListings := by
    rintro (⟨_, -, _, -, hid | hid⟩ | ⟨_, -, _, -, hid⟩ | ⟨_, -, _, -, hid⟩) <;> cases hid
  have hlegacy : b.legacy.get .activeListings = w.legacy.get .activeListings :=
    congrArg Prod.fst ((hmoved.shelf .activeListings).untouched hvisited)
  have hactive (i : Nat) : b.IsActive i ↔ w.archive.IsActive i := by
    rw [Archive.IsActive, Archive.IsActive, hmoved.listing]
  refine ⟨fun id hid => hshelf hid ▸ hmoved.shelf id, fun k => hopen k ▸ hmoved.openOffers k, ?_, ?_⟩
  · change w'.archive.legacy.get .activeListings = none
    rw [harchive]
    exact b.legacy.get_erase_self .activeListings
  · intro xs hxs
    obtain ⟨xs', hxs', hmem⟩ := hlists xs (by rw [hmoved.active]; exact hxs)
    refine ⟨xs', ?_, fun i => by rw [hmem, hlegacy, hactive]⟩
    change w'.archive.active.Lists xs'
    rw [harchive]
    exact hxs'

namespace World.Drained

/-- How often a pending offer stands in the pending set afterwards. -/
theorem count_pending (h : w.Drained w') (hw : w.Unmigrated) (hi : w.PendingOn k i)
    (hlisting : w.legacy.get (.listingOffers k) ≠ none → ∃ l, w.listing k = some l) :
    (w'.listingPendingOffers k).count i = (w.listingPendingOffers k).count i +
      if i ∈ w.listingPendingOffers k then 0
      else ((w.legacy.get (.listingOffers k)).getD []).count i := by
  have hdrained := (h.openOffers k).drained fun hne =>
    (visitedShelves_listingOffers hw k).mpr (hlisting hne)
  unfold Drain.Drained at hdrained
  cases hlegacy : w.legacy.get (.listingOffers k) with
  | none =>
    have hsame : w'.archive.openOffers k = w.archive.openOffers k := by
      simpa only [Archive.openOffers, World.archive, hlegacy] using hdrained
    have hpending : w'.listingPendingOffers k = w.listingPendingOffers k := congrArg Prod.snd hsame
    rw [hpending]
    simp
  | some ys =>
    have hreopens : Archive.Reopens w.offer ys (w.listingPendingOffers k)
        (w'.listingPendingOffers k) := by
      simp only [Archive.openOffers, World.archive, hlegacy] at hdrained
      exact hdrained.2
    exact count_reopens hi hreopens

/-- A listing whose offers have been moved is stored. -/
theorem listing_of_empty (h : w.Drained w') (hw : w.Unmigrated) (hempty : w'.legacy = .empty)
    (hne : w.legacy.get (.listingOffers k) ≠ none) : ∃ l, w.listing k = some l := by
  rw [← visitedShelves_listingOffers hw]
  by_contra hvisited
  have hsame : w'.legacy.get (.listingOffers k) = w.legacy.get (.listingOffers k) :=
    congrArg Prod.fst ((h.openOffers k).untouched hvisited)
  exact hne (hsame.symm.trans ((LegacyIndexes.eq_empty_iff _).mp hempty _))

end World.Drained

/-- For every migration that was completed from a state `World.Unmigrated` describes: the result is as
it should be exactly if the state was consistent in the first place, and no pending offer stood twice
in the legacy vector of its listing (unless its pending set had it already). -/
theorem migration_lossless_iff (hw : w.Unmigrated) (hdone : w.MigratesTo w') :
    w.Lossless w' ↔ w.Consistent := by
  have hdrained := hdone.drained hw
  constructor
  · intro h
    have hlisting {k : Nat} := hdrained.listing_of_empty hw h.legacy (k := k)
    refine ⟨fun k i hi => ?_, fun k => hlisting, fun xs hxs i hi => ?_⟩
    · have hcount := hdrained.count_pending hw hi hlisting
      by_cases hbefore : i ∈ w.listingPendingOffers k
      · have hone := h.pending k i hi (.inl hbefore)
        exact ⟨by omega, fun hnot => (hnot hbefore).elim⟩
      · rw [if_neg hbefore] at hcount
        refine ⟨by rw [List.count_eq_zero.mpr hbefore]; exact Nat.zero_le 1, fun _ => ?_⟩
        by_cases hlegacy : i ∈ (w.legacy.get (.listingOffers k)).getD []
        · have hone := h.pending k i hi (.inr hlegacy)
          omega
        · rw [List.count_eq_zero.mpr hlegacy]
          exact Nat.zero_le 1
    · -- what was in the index still is, so it has to be active
      obtain ⟨ys, hys, hmem⟩ := hdrained.active xs hxs
      obtain ⟨zs, hzs, hiff⟩ := h.active xs hxs
      have hiy : i ∈ ys := (hmem i).mpr (.inl hi)
      have hiz : i ∈ zs := hzs.isSome_pos_iff.mp (hys.isSome_pos_iff.mpr hiy)
      exact ((hiff i).mp hiz).2
  · intro h
    have hshelf {id : IndexId} (hid : id ≠ .activeListings) :
        Drain.Drained Archive.Shelves (w.archive.shelf id) (w'.archive.shelf id) := by
      refine (hdrained.shelf id hid).drained fun hne => ?_
      by_cases hoffers : ∃ k, id = .listingOffers k
      · obtain ⟨k, rfl⟩ := hoffers
        exact (visitedShelves_listingOffers hw k).mpr (h.listing k hne)
      · exact visitedShelves_of_legacy hw hid (fun k hk => hoffers ⟨k, hk⟩) hne
    refine ⟨fun id hid => (Archive.lists_of_drained (hshelf hid)).2, ?_, fun xs hxs => ?_,
      fun k i hi hmem => ?_⟩
    · refine (LegacyIndexes.eq_empty_iff _).mpr fun id => ?_
      by_cases hid : id = .activeListings
      · rw [hid]
        exact hdrained.legacy
      · exact (Archive.lists_of_drained (hshelf hid)).1
    · obtain ⟨ys, hys, hiff⟩ := hdrained.active xs hxs
      refine ⟨ys, hys, fun i => ?_⟩
      rw [hiff]
      constructor
      · rintro (hi | ⟨hi, hactive⟩)
        · exact ⟨.inl hi, h.active xs hxs i hi⟩
        · exact ⟨.inr hi, hactive⟩
      · rintro ⟨hi | hi, hactive⟩
        · exact .inl hi
        · exact .inr ⟨hi, hactive⟩
    · obtain ⟨hset, hvector⟩ := h.once k i hi
      rw [hdrained.count_pending hw hi (h.listing k)]
      by_cases hbefore : i ∈ w.listingPendingOffers k
      · have hpos := List.count_pos_iff.mpr hbefore
        rw [if_pos hbefore]
        omega
      · have hpos := List.count_pos_iff.mpr (hmem.resolve_left hbefore)
        have hle := hvector hbefore
        rw [if_neg hbefore, List.count_eq_zero.mpr hbefore]
        omega

/-- Every fixture of the time before the paged indexes is a state to be migrated. -/
theorem unmigrated_upgraded (offers : List Nat) : (upgraded offers).Unmigrated where
  pending := rfl
  unbegun := rfl
  listings {k l} h := by
    simp only [upgraded, Option.ite_none_right_eq_some] at h ⊢
    omega
  auctions h := by cases h
  offers {k o} h := by
    simp only [upgraded, Option.ite_none_right_eq_some] at h ⊢
    omega
  artist {a} h := by
    have ha : a = ⟨10⟩ := by
      by_contra hne
      exact h (if_neg hne)
    exact ⟨1, oldListing 1, rfl, ha.symm⟩
  creator h := (h rfl).elim
  offerer {a} h := by
    have ha : a = ⟨20⟩ := by
      by_contra hne
      exact h (if_neg hne)
    exact ⟨1, oldOffer 1, rfl, ha.symm⟩

/-- Two offers on a listing, each named once. -/
theorem migration_lossless_iff_upgraded :
    ∃ w', (upgraded [1, 2]).Unmigrated ∧ (upgraded [1, 2]).MigratesTo w' ∧
      (upgraded [1, 2]).Lossless w' := by
  obtain ⟨u, w', hmigrate, hdone⟩ := exists_returns (c := migrate (Env.signedBy ⟨1⟩ 300) ⟨1⟩)
    (s := upgraded [1, 2]) (p := fun _ w' => w'.migrationDone contractVersion) (by decide +kernel)
  have hw := unmigrated_upgraded [1, 2]
  have hmigrated : (upgraded [1, 2]).MigratesTo w' := .inl ⟨_, _, hmigrate, hdone⟩
  refine ⟨w', hw, hmigrated, (migration_lossless_iff hw hmigrated).mpr ⟨?_, ?_, ?_⟩⟩
  · rintro k i -
    refine ⟨by simp [upgraded, World.fresh], fun _ => ?_⟩
    by_cases hk : k = 1
    · subst hk
      have hnodup : ([1, 2] : List Nat).Nodup := by decide
      exact List.nodup_iff_count_le_one.mp hnodup i
    · simp [upgraded, LegacyIndexes.get, hk]
  · intro k hk
    have hk : k = 1 := by
      by_contra hne
      exact hk (if_neg hne)
    subst hk
    exact ⟨oldListing 1, rfl⟩
  · intro xs hxs i hi
    have hlen : 0 = xs.length := hxs.paged.len
    rw [List.eq_nil_of_length_eq_zero hlen.symm] at hi
    cases hi

/-- One pending offer, named twice by the legacy vector of its listing. -/
theorem migration_duplicates_pending :
    ∃ w', (upgraded [1, 1]).Unmigrated ∧ (upgraded [1, 1]).MigratesTo w' ∧
      w'.listingPendingOffers 1 = [1, 1] ∧ ¬ (upgraded [1, 1]).Lossless w' := by
  obtain ⟨u, w', hmigrate, hcheck⟩ := exists_returns (c := migrate (Env.signedBy ⟨1⟩ 300) ⟨1⟩)
    (s := upgraded [1, 1])
    (p := fun _ w' => w'.migrationDone contractVersion && decide (w'.listingPendingOffers 1 = [1, 1]))
    (by decide +kernel)
  obtain ⟨hdone, hpending⟩ := Bool.and_eq_true_iff.mp hcheck
  have hpending : w'.listingPendingOffers 1 = [1, 1] := of_decide_eq_true hpending
  refine ⟨w', unmigrated_upgraded [1, 1], .inl ⟨_, _, hmigrate, hdone⟩, hpending, fun h => ?_⟩
  have hone := h.pending 1 1 ⟨oldOffer 1, rfl, rfl, rfl⟩ (.inr (by decide))
  rw [hpending] at hone
  exact absurd hone (by decide)

end ElcareHub.Marketplace
