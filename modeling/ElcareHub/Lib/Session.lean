import ElcareHub.Lib.Avoid
import ElcareHub.Lib.Table
import Mathlib.Tactic.Choose

/-!
# Programs that talk to a database

A query is a program whose statements run in a session of the database. A statement that fails ends the
program, unless the program catches the failure. In a transaction, which is an *atomic* session, this
does not help: the transaction is *aborted* all the same, the database refuses every further statement
of it, and it cannot commit any more. Outside a transaction every statement stands for itself, and one
that fails leaves the others alone.

Rows are written through a `Model`: a table of the database together with the values its columns admit.
The three forms of writing a row are those of the query builder: `upsert` creates or changes it,
`updateMany` changes it if it is there and satisfies a guard, and `update` fails if it is not there.

`Runs c db a db'` says that `c`, started on `db` in a transaction that is not aborted, returns `a` and
leaves `db'` in a transaction that is still not aborted.
-/

/-- Why a query ends. -/
inductive DbFault (ε : Type)
  /-- a statement in an aborted transaction -/
  | aborted
  /-- the row to change is not there -/
  | missing (model : String)
  /-- a value does not fit its column -/
  | refused (model : String)
  /-- thrown by the program itself -/
  | thrown (e : ε)

/-- A database in the course of a session. -/
structure Session (δ : Type) where
  db : δ
  /-- the session is a transaction -/
  atomic : Bool
  aborted : Bool

abbrev Query (ε δ α : Type) : Type := Call (DbFault ε) (Session δ) α

namespace Query

variable {ε δ α β : Type}
variable {f : δ → Except (DbFault ε) (α × δ)} {a : α} {c : Query ε δ α} {db db' : δ}
variable {row : Row}

/-- One statement. -/
def statement (f : δ → Except (DbFault ε) (α × δ)) : Query ε δ α :=
  Call.attempt fun s =>
    if s.aborted then .error .aborted
    else
      match f s.db with
      | .ok (a, db) => .ok (a, { s with db })
      | .error e => .error e

/-- A read whose failure the program takes for an empty answer. -/
def find (f : δ → Option α) : Query ε δ (Option α) :=
  Call.view fun s => if s.aborted then none else f s.db

/-- A statement failed and the program caught the failure. -/
def spoil : Query ε δ Unit := Call.update fun s => { s with aborted := s.atomic }

/-- Run a query in a transaction of its own, and commit. -/
def transaction (c : Query ε δ α) (db : δ) : Except (DbFault ε) (α × δ) :=
  match c ⟨db, true, false⟩ with
  | .ok (a, s) => if s.aborted then .error .aborted else .ok (a, s.db)
  | .error e => .error e

/-- Run a query outside of a transaction. -/
def direct (c : Query ε δ α) (db : δ) : Except (DbFault ε) (α × δ) :=
  match c ⟨db, false, false⟩ with
  | .ok (a, s) => .ok (a, s.db)
  | .error e => .error e

/-- Run a query on a part of the database. -/
def within {δ' : Type} (get : δ' → δ) (put : δ → δ' → δ') (c : Query ε δ α) : Query ε δ' α :=
  Call.zoom (fun s => ⟨get s.db, s.atomic, s.aborted⟩) (fun s s' => ⟨put s.db s'.db, s.atomic, s.aborted⟩) c

theorem returns_statement :
    Call.Returns (statement f) s a s' ↔
      s.aborted = false ∧ ∃ db, f s.db = .ok (a, db) ∧ { s with db } = s' := by
  rw [statement, Call.returns_attempt]
  cases s.aborted with
  | true => exact ⟨nofun, nofun⟩
  | false =>
    cases f s.db with
    | error e => exact ⟨nofun, nofun⟩
    | ok r => simp [Prod.ext_iff, and_assoc]

/-- A transaction commits when the query returns in a session that is not aborted. -/
theorem transaction_eq_ok : transaction c db = .ok (a, db') ↔
      ∃ s, Call.Returns c ⟨db, true, false⟩ a s ∧ s.aborted = false ∧ s.db = db' := by
  unfold transaction Call.Returns
  cases c ⟨db, true, false⟩ with
  | error e => simp
  | ok r =>
    obtain ⟨b, s⟩ := r
    cases haborted : s.aborted with
    | true =>
      refine ⟨fun h => ?_, fun ⟨s', h, hs', _⟩ => ?_⟩
      · simp only [haborted] at h
        cases h
      · cases h
        rw [haborted] at hs'
        cases hs'
    | false =>
      simp only [haborted, Bool.false_eq_true, if_false]
      refine ⟨fun h => ?_, fun ⟨s', h, _, hdb⟩ => ?_⟩
      · cases h
        exact ⟨s, rfl, haborted, rfl⟩
      · cases h
        rw [hdb]

/-! ### Programs that succeed -/

/-- `c` succeeds on `db`, and its transaction can still commit. -/
def Runs (c : Query ε δ α) (db : δ) (a : α) (db' : δ) : Prop :=
  Call.Returns c ⟨db, true, false⟩ a ⟨db', true, false⟩

theorem Runs.transaction_eq (h : Runs c db a db') : transaction c db = .ok (a, db') := by
  simp only [transaction, show c ⟨db, true, false⟩ = _ from h, Bool.false_eq_true, if_false]

instance (f : δ → Option α) : Call.Preserves g (find f : Query ε δ (Option α)) :=
  inferInstanceAs (Call.Preserves g (Call.view _))

/-- What a statement leaves alone is a fact about the statement. -/
theorem preserves_statement {g : δ → τ}
    (hf : ∀ db a db', f db = .ok (a, db') → g db' = g db) :
    Call.Preserves (fun s : Session δ => g s.db) (statement f : Query ε δ α) where
  eq h := by
    obtain ⟨-, db, hok, rfl⟩ := returns_statement.mp h
    exact hf _ _ _ hok

/-! ### Programs that catch nothing -/

/-- As long as the session is not aborted, what the query does is a function of the database: it is the
same inside and outside of a transaction. In an aborted session it has no effect. -/
class Steady (c : Query ε δ α) : Prop where
  exists_eq : ∃ f : δ → Except (DbFault ε) (α × δ), ∀ db atomic,
    c ⟨db, atomic, false⟩ = (f db).map fun r => (r.1, ⟨r.2, atomic, false⟩)
  stuck : ∀ {s a s'}, s.aborted = true → Call.Returns c s a s' → s' = s

namespace Steady

instance pure (a : α) : Steady (pure a : Query ε δ α) where
  exists_eq := ⟨fun db => .ok (a, db), fun _ _ => rfl⟩
  stuck _ h := (h.pure).2.symm

instance bind [hx : Steady x] [hg : ∀ a, Steady (g a)] : Steady (x >>= g) where
  exists_eq := by
    obtain ⟨f, hf⟩ := hx.exists_eq
    choose k hk using fun a => (hg a).exists_eq
    refine ⟨fun db => (f db).bind fun r => k r.1 r.2, fun db atomic => ?_⟩
    change Call.andThen x g _ = ((f db).bind fun r => k r.1 r.2).map _
    rw [Call.andThen, hf]
    cases f db with
    | error e => rfl
    | ok r => exact hk r.1 r.2 atomic
  stuck haborted h := by
    obtain ⟨a, s1, h1, h2⟩ := h.bind
    obtain rfl := hx.stuck haborted h1
    exact (hg a).stuck haborted h2

instance statement (f : δ → Except (DbFault ε) (α × δ)) : Steady (statement f : Query ε δ α) where
  exists_eq := by
    refine ⟨f, fun db atomic => ?_⟩
    simp only [Query.statement, Call.attempt]
    cases f db with
    | error e => rfl
    | ok r => rfl
  stuck haborted h := by
    rw [(returns_statement.mp h).1] at haborted
    cases haborted

instance find (f : δ → Option α) : Steady (find f : Query ε δ (Option α)) where
  exists_eq := ⟨fun db => .ok (f db, db), fun _ _ => rfl⟩
  stuck _ h := (h.read).2.symm

instance abortIf (c : Prop) [Decidable c] (e : DbFault ε) :
    Steady (Call.abortIf c e : Query ε δ Unit) where
  exists_eq := by
    refine ⟨fun db => if c then .error e else .ok ((), db), fun db atomic => ?_⟩
    unfold Call.abortIf
    split <;> rfl
  stuck _ h := (h.passed).2.symm

instance ite {c : Prop} [Decidable c] [Steady x] [Steady y] :
    Steady (if c then x else y) := by
  split <;> infer_instance

instance each {c : α → Query ε δ Unit} [∀ a, Steady (c a)] (as : List α) : Steady (Call.each c as) := by
  induction as with
  | nil => exact pure ()
  | cons a as ih => exact bind

/-- Such a query runs in a transaction as it does outside of one. -/
theorem runs_iff [hc : Steady c] : Runs c db a db' ↔ direct c db = .ok (a, db') := by
  obtain ⟨f, hf⟩ := hc.exists_eq
  rw [Runs, Call.Returns, direct, hf, hf]
  cases f db with
  | error e => simp [Except.map]
  | ok r => simp [Except.map, Prod.ext_iff]

end Steady

/-! ### Programs that throw nothing of their own -/

section Avoids

variable {e : DbFault ε}

/-- What a statement refuses is a fact about the statement. -/
theorem avoids_statement (he : e ≠ .aborted) (hf : ∀ db, f db ≠ .error e) :
    Call.Avoids e (statement f : Query ε δ α) where
  ne s h := by
    simp only [statement, Call.attempt] at h
    split at h
    · exact he (Except.error.inj h).symm
    · split at h
      · cases h
      · rename_i e' he'
        cases h
        exact hf s.db he'

instance (f : δ → Option α) : Call.Avoids e (find f : Query ε δ (Option α)) where
  ne _ := nofun

instance : Call.Avoids e (spoil : Query ε δ Unit) where
  ne _ := nofun

instance {get : δ' → δ} [hc : Call.Avoids e c] : Call.Avoids e (within get put c) where
  ne s h := by
    unfold within Call.zoom at h
    split at h
    · cases h
    · rename_i e' he'
      cases h
      exact hc.ne _ he'

end Avoids

end Query

open Query

/-- A table of the database, and what may stand in it. -/
structure Model (δ Row : Type) where
  name : String
  rows : δ → Nat → Option Row
  save : (Nat → Option Row) → δ → δ
  fits : Row → Bool
  save_rows : ∀ db, save (rows db) db = db

namespace Model

variable {ε δ Row β : Type} (m : Model δ Row)

/-- Write `row` under `k`. -/
def write (k : Nat) (row : Row) (db : δ) : Except (DbFault ε) δ :=
  if m.fits row then .ok (m.save (Table.put (m.rows db) k row) db) else .error (.refused m.name)

/-- Create the row, or change it. -/
abbrev upsert (k : Nat) (create : Row) (change : Row → Row) : Query ε δ Unit :=
  statement fun db =>
    (m.write k (((m.rows db k).map change).getD create) db).map fun db => ((), db)

/-- Change the row if it is there and satisfies the guard; how many rows were changed. -/
abbrev updateMany (k : Nat) (guard : Row → Bool) (change : Row → Row) : Query ε δ Nat :=
  statement fun db =>
    match (m.rows db k).filter guard with
    | some row => (m.write k (change row) db).map fun db => (1, db)
    | none => .ok (0, db)

/-- Change the row, which has to be there. -/
abbrev update (k : Nat) (change : Row → Row) : Query ε δ Unit :=
  statement fun db =>
    match m.rows db k with
    | some row => (m.write k (change row) db).map fun db => ((), db)
    | none => .error (.missing m.name)

section Writes

variable {k : Nat} {create : Row} {guard : Row → Bool} {change : Row → Row}

theorem map_write_ne : (m.write k row db).map f ≠ .error (.thrown e) := by
  unfold write
  split
  · exact nofun
  · exact nofun

instance : Call.Avoids (.thrown e) (m.upsert k create change : Query ε δ Unit) :=
  avoids_statement nofun fun _ => m.map_write_ne

instance : Call.Avoids (.thrown e) (m.updateMany k guard change : Query ε δ Nat) :=
  avoids_statement nofun fun db => by
    split
    · exact m.map_write_ne
    · exact nofun

instance : Call.Avoids (.thrown e) (m.update k change : Query ε δ Unit) :=
  avoids_statement nofun fun db => by
    split
    · exact m.map_write_ne
    · exact nofun

/-- A write to the table leaves the observation `g` of the database alone. -/
class Spares {τ : Type} (g : δ → τ) : Prop where
  eq : ∀ t db, g (m.save t db) = g db

section Spares

variable {τ : Type} {g : δ → τ} [hg : m.Spares g]

theorem eq_of_map_write
    (h : (m.write k row db : Except (DbFault ε) δ).map (fun db => (b, db)) = .ok (b', db')) :
    g db' = g db := by
  unfold write at h
  split at h
  · cases h
    exact hg.eq ..
  · cases h

instance :
    Call.Preserves (fun s : Session δ => g s.db) (m.upsert k create change : Query ε δ Unit) where
  eq h := by
    obtain ⟨-, db, hwrite, rfl⟩ := returns_statement.mp h
    exact m.eq_of_map_write hwrite

instance :
    Call.Preserves (fun s : Session δ => g s.db) (m.updateMany k guard change : Query ε δ Nat) where
  eq h := by
    obtain ⟨-, db, hwrite, rfl⟩ := returns_statement.mp h
    split at hwrite
    · exact m.eq_of_map_write hwrite
    · cases hwrite
      rfl

instance :
    Call.Preserves (fun s : Session δ => g s.db) (m.update k change : Query ε δ Unit) where
  eq h := by
    obtain ⟨-, db, hwrite, rfl⟩ := returns_statement.mp h
    split at hwrite
    · exact m.eq_of_map_write hwrite
    · cases hwrite

end Spares

/-- What `update` does. -/
theorem returns_update :
    Call.Returns (m.update k change : Query ε δ Unit) s u s' ↔
      s.aborted = false ∧ ∃ row, m.rows s.db k = some row ∧ m.fits (change row) = true ∧
        { s with db := m.save (Table.put (m.rows s.db) k (change row)) s.db } = s' := by
  rw [update, returns_statement]
  refine and_congr_right fun _ => ?_
  cases m.rows s.db k with
  | none => simp
  | some row => by_cases hfits : m.fits (change row) = true <;> simp [write, hfits, Except.map]

end Writes

end Model
