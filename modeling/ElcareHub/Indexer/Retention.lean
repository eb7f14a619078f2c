import Mathlib.Data.List.Basic

/-!
# The archive job

`archiveTable` fetches a batch of the rows older than the cut-off and moves each to the archive table,
until a fetch comes back empty. Rows under a legal hold, and all rows in a dry run, are passed over but
stay where the next fetch finds them: the loop ends only where there are none.
-/

namespace ElcareHub.Indexer.Retention

variable {ρ : Type} [DecidableEq ρ]

/-- A table and how it is archived: its `where`, whether it is `MarketplaceEvent`, the legal holds, and the
rows whose transaction the database rejects (a column the archive table lacks, a key in use). -/
structure Job (ρ : Type) where
  older : ρ → Bool
  isMarketplaceEvent : Bool
  eventHash : ρ → Option String
  holds : List String
  refused : ρ → Bool
  batchSize : Nat
  dryRun : Bool

def Job.held (job : Job ρ) (row : ρ) : Bool :=
  job.isMarketplaceEvent && (job.eventHash row).any (job.holds.contains ·)

/-- The two tables, the archived rows without their `archivedAt` and `archiveChecksum`. -/
structure Tables (ρ : Type) where
  hot : List ρ
  archive : List ρ

variable (job : Job ρ)

/-- The body of the `for` loop: `none` where its transaction is rejected. -/
def archiveRow (db : Tables ρ) (row : ρ) : Option (Tables ρ) :=
  if job.held row ∨ job.dryRun then some db
  else if job.refused row then none
  else some ⟨db.hot.filter (· ≠ row), db.archive ++ [row]⟩

/-- `archiveTable`: `none` where it rejects, or `fuel` fetches are not enough. -/
def archiveTable : Nat → Tables ρ → Option (Tables ρ)
  | 0, _ => none
  | fuel + 1, db =>
    match (db.hot.filter job.older).take job.batchSize with
    | [] => some db
    | row :: rows => ((row :: rows).foldlM (archiveRow job) db).bind (archiveTable fuel)

/-- The old rows without a hold have been moved to the archive, and nothing else has. -/
def Exact (db db' : Tables ρ) : Prop :=
  ∀ row, (row ∈ db'.hot ↔ row ∈ db.hot ∧ ¬(job.older row ∧ ¬job.held row)) ∧
    (row ∈ db'.archive ↔ row ∈ db.archive ∨ row ∈ db.hot ∧ job.older row ∧ ¬job.held row)

/-- Nothing keeps the row where it is. -/
def Job.Moves (row : ρ) : Prop := job.dryRun = false ∧ job.held row = false ∧ job.refused row = false

variable {job} {db db' : Tables ρ} {row : ρ} {rows : List ρ}

theorem mem_archiveRow (hstuck : ¬job.Moves row) (hrow : row ∈ db.hot)
    (h : archiveRow job db other = some db') : row ∈ db'.hot := by
  unfold archiveRow at h
  grind [Job.Moves]

/-- A row that is not moved is there after every batch. -/
theorem mem_batch (hstuck : ¬job.Moves row) (hrow : row ∈ db.hot)
    (h : rows.foldlM (archiveRow job) db = some db') : row ∈ db'.hot := by
  induction rows generalizing db with
  | nil =>
    cases h
    exact hrow
  | cons other rows ih =>
    obtain ⟨db1, hother, h⟩ := Option.bind_eq_some_iff.mp h
    exact ih (mem_archiveRow hstuck hrow hother) h

/-- The loop is left when nothing old is found, so that every old row has been moved. -/
theorem moves_of_returns (hbatch : job.batchSize ≠ 0)
    (h : archiveTable job fuel db = some db') (hrow : row ∈ db.hot) (hold : job.older row) :
    job.Moves row := by
  by_contra hstuck
  induction fuel generalizing db with
  | zero => cases h
  | succ fuel ih =>
    rw [archiveTable] at h
    split at h
    · simp_all
    · obtain ⟨db1, hbatch, h⟩ := Option.bind_eq_some_iff.mp h
      exact ih h (mem_batch hstuck hrow hbatch)

theorem batch_eq (hmoves : ∀ row ∈ rows, job.Moves row) : rows.foldlM (archiveRow job) db =
    some ⟨db.hot.filter (· ∉ rows), db.archive ++ rows⟩ := by
  induction rows generalizing db with
  | nil => simp
  | cons row rows ih =>
    obtain ⟨hdry, hheld, hrefused⟩ := hmoves row List.mem_cons_self
    have hmoved : archiveRow job db row = some ⟨db.hot.filter (· ≠ row), db.archive ++ [row]⟩ := by
      simp [archiveRow, hdry, hheld, hrefused]
    simp [hmoved, ih fun r hr => hmoves r (List.mem_cons_of_mem _ hr), Bool.and_comm]

/-- Where every old row can be moved, the loop ends with all of them moved. -/
theorem returns_of_moves (hn : db.hot.length ≤ n) (hbatch : job.batchSize ≠ 0)
    (hmoves : ∀ row ∈ db.hot, job.older row → job.Moves row) :
    ∃ db', archiveTable job (n + 1) db = some db' ∧ Exact job db db' := by
  induction n generalizing db with
  | zero => exact ⟨db, by simp_all [archiveTable], by simp_all [Exact]⟩
  | succ n ih =>
    rw [archiveTable]
    have hfetched (row : ρ) (h : row ∈ (db.hot.filter job.older).take job.batchSize) :
        row ∈ db.hot ∧ job.older row := List.mem_filter.mp (List.mem_of_mem_take h)
    split
    · rename_i hnone
      have hfilter := (List.take_eq_nil_iff.mp hnone).resolve_left hbatch
      exact ⟨db, rfl, fun row => by grind⟩
    · rename_i row rows hrows
      rw [hrows] at hfetched
      rw [batch_eq fun r hr => hmoves r (hfetched r hr).1 (hfetched r hr).2]
      have hfewer : (db.hot.filter (· ∉ row :: rows)).length < db.hot.length :=
        List.length_filter_lt_length_iff_exists.mpr
          ⟨row, (hfetched row List.mem_cons_self).1, by simp⟩
      obtain ⟨db', hreturns, hexact⟩ := @ih ⟨db.hot.filter (· ∉ row :: rows), db.archive ++ row :: rows⟩
        (Nat.le_of_lt_succ (Nat.lt_of_lt_of_le hfewer hn)) fun r hr =>
          hmoves r (List.mem_of_mem_filter hr)
      refine ⟨db', hreturns, fun r => ?_⟩
      have hr := hexact r
      grind [Job.Moves]

end ElcareHub.Indexer.Retention
