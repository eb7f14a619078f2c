import Mathlib.Data.List.Nodup
import ElcareHub.Lib.Run

/-!
# Worker leases

`coordination/lease.ts` and `fenced-lease.ts` elect one worker for a role with a row of `WorkerLease`.
Both issue the same statements; the fenced lease also guards writes with the token of the row
(`assertCurrentToken`). A process remembers its lease, and goes on with a call only after the statement
of the call has been executed, so everything else may happen in between: what it will go on with is
`awaiting`.

The unique index on the role keeps two rows of a role apart (`Cluster.Distinct`). It keeps a row that
has expired in the way, too: no statement of an acquisition looks at `expiresAt`.

A token says who owns the row as long as every token that is written is ahead of those that other
processes remember for the role (`Cluster.Ahead`). The clocks of the processes do not provide that.
-/

namespace ElcareHub.Indexer.Lease

/-! ### The table -/

inductive LeaseRole
  | poller | reconciler | backfill
  deriving DecidableEq

/-- `WorkerLease`. -/
structure LeaseRow where
  role : LeaseRole
  ownerId : Nat
  token : Nat
  expiresAt : Nat

/-- `workerLease.create`: the unique index on the role subsumes the one on role and owner. -/
def create (row : LeaseRow) (rows : List LeaseRow) : Option (List LeaseRow) :=
  if row.role ∈ rows.map LeaseRow.role then none else some (row :: rows)

/-- `workerLease.update`, where there is a row of the role and the owner. -/
def update (role : LeaseRole) (ownerId token expiresAt : Nat) (rows : List LeaseRow) :
    Option (List LeaseRow) :=
  if rows.any fun row => decide (row.role = role ∧ row.ownerId = ownerId) then
    some (rows.map fun row =>
      if row.role = role ∧ row.ownerId = ownerId then { row with token, expiresAt } else row)
  else none

/-- The statement of `acquireFencedLease`: the clock is read for the deadline and for the token. -/
def acquireFencedLease (ttl ownerId : Nat) (role : LeaseRole) (now token : Nat) :
    List LeaseRow → Option (List LeaseRow) :=
  create ⟨role, ownerId, token, now + ttl⟩

/-- The statement of `acquireLease`. -/
def acquireLease : Nat → Nat → LeaseRole → Nat → Nat → List LeaseRow → Option (List LeaseRow) :=
  acquireFencedLease

/-! ### Processes -/

/-- What a process remembers of its lease, as far as it reads it. -/
structure Held where
  role : LeaseRole
  token : Nat

/-- A call that has not gone on. -/
inductive Await
  /-- the row has been created, or renewed -/
  | acquired (held : Held) | renewed (held : Held)
  /-- the renewal has failed -/
  | lost
  /-- the deletion of a released lease has not been executed -/
  | deletion (role : LeaseRole)
  /-- `assertCurrentToken` has read the memory, and not the table -/
  | check (held : Held)

def Await.held : Await → Option Held
  | .acquired held | .renewed held | .check held => some held
  | .lost | .deletion _ => none

structure Memory where
  held : Option Held
  awaiting : List Await

/-- The leases the process remembers, or is about to. -/
def Memory.knows (m : Memory) : List Held := m.held.toList ++ m.awaiting.filterMap Await.held

structure Cluster where
  rows : List LeaseRow
  memory : Nat → Memory

namespace Cluster

def initial : Cluster := ⟨[], fun _ => ⟨none, []⟩⟩

def remember (s : Cluster) (ownerId : Nat) (m : Memory) : Cluster :=
  { s with memory := Function.update s.memory ownerId m }

def await (s : Cluster) (ownerId : Nat) (await : Await) : Cluster :=
  s.remember ownerId { s.memory ownerId with awaiting := await :: (s.memory ownerId).awaiting }

/-- A call goes on. -/
def goOn (s : Cluster) (ownerId : Nat) (rest : List Await) : Await → Cluster
  | .acquired held => s.remember ownerId ⟨some held, rest⟩
  -- the token is assigned to whatever lease is remembered by now
  | .renewed held => s.remember ownerId
      ⟨(s.memory ownerId).held.map fun current => { current with token := held.token }, rest⟩
  | .lost => s.remember ownerId ⟨none, rest⟩
  | .deletion role => { s.remember ownerId ⟨(s.memory ownerId).held, rest⟩ with
      rows := s.rows.filter fun row => !decide (row.role = role ∧ row.ownerId = ownerId) }
  | .check _ => s.remember ownerId ⟨(s.memory ownerId).held, rest⟩

inductive Act
  | acquire (ownerId : Nat) (role : LeaseRole) (token : Nat)
  | renew (ownerId : Nat)
  | resume (ownerId : Nat) (await : Await)
  | other

/-- What happens. A renewal, a release and a guarded write are for the role that is remembered, or do
nothing. -/
inductive Step (ttl : Nat) (s : Cluster) : Act → Cluster → Prop
  | acquire (ownerId : Nat) (role : LeaseRole) (now token : Nat) {rows : List LeaseRow}
      (h : acquireFencedLease ttl ownerId role now token s.rows = some rows) :
    Step ttl s (.acquire ownerId role token)
      (await { s with rows } ownerId (.acquired ⟨role, token⟩))
  | renew {ownerId now : Nat} {held : Held} {rows : List LeaseRow}
      (hheld : (s.memory ownerId).held = some held)
      (h : update held.role ownerId (held.token + 1) (now + ttl) s.rows = some rows) :
    Step ttl s (.renew ownerId)
      (await { s with rows } ownerId (.renewed ⟨held.role, held.token + 1⟩))
  /-- the statement of a renewal fails -/
  | lose {ownerId : Nat} {held : Held} (hheld : (s.memory ownerId).held = some held) :
    Step ttl s .other (s.await ownerId .lost)
  | release {ownerId : Nat} {held : Held} (hheld : (s.memory ownerId).held = some held) :
    Step ttl s .other
      (s.remember ownerId ⟨none, .deletion held.role :: (s.memory ownerId).awaiting⟩)
  /-- an operator deletes the row of a role -/
  | remove (role : LeaseRole) :
    Step ttl s .other { s with rows := s.rows.filter fun row => row.role ≠ role }
  /-- `fencedWrite` begins -/
  | write {ownerId : Nat} {held : Held} (hheld : (s.memory ownerId).held = some held) :
    Step ttl s .other (s.await ownerId (.check held))
  | resume {ownerId : Nat} {await : Await} (rest : List Await)
      (h : (s.memory ownerId).awaiting.Perm (await :: rest)) :
    Step ttl s (.resume ownerId await) (s.goOn ownerId rest await)
  | crash (ownerId : Nat) : Step ttl s .other (s.remember ownerId ⟨none, []⟩)

/-- `findFirst` of a role. -/
def lease (s : Cluster) (role : LeaseRole) : Option LeaseRow :=
  s.rows.find? fun row => decide (row.role = role)

/-- `assertCurrentToken` does not throw. -/
def commits (s : Cluster) (held : Held) : Bool :=
  (s.lease held.role).any fun row => decide (row.token ≤ held.token)

/-- Whichever guarded write would commit now, its process owns the row of the role. -/
def Fenced (s : Cluster) : Prop :=
  ∀ ownerId held, .check held ∈ (s.memory ownerId).awaiting → s.commits held = true →
    (s.lease held.role).map LeaseRow.ownerId = some ownerId

/-- A token is ahead of those that other processes know for the role. -/
def Outruns (s : Cluster) (ownerId : Nat) (role : LeaseRole) (token : Nat) : Prop :=
  ∀ other ≠ ownerId, ∀ held ∈ (s.memory other).knows, held.role = role → held.token < token

/-- Tokens are written ahead of the others, and a process that goes on after a renewal still has the
role it renewed. -/
def Ahead (s : Cluster) : Act → Prop
  | .acquire ownerId role token => s.Outruns ownerId role token
  | .renew ownerId => ∀ held, (s.memory ownerId).held = some held →
      s.Outruns ownerId held.role (held.token + 1)
  | .resume ownerId (.renewed held) => ∀ mine, (s.memory ownerId).held = some mine →
      mine.role = held.role
  | _ => True

/-! ### One row for a role -/

variable {ttl : Nat} {s s' : Cluster} {ownerId : Nat} {act : Act} {m : Memory}

def Distinct (s : Cluster) : Prop := (s.rows.map LeaseRow.role).Nodup

theorem create_eq_some {rows : List LeaseRow} :
    create row rows = some rows' ↔ row.role ∉ rows.map LeaseRow.role ∧ row :: rows = rows' := by
  unfold create
  split <;> simp [*]

/-- An update of the one row of a role. -/
theorem update_eq_some {rows : List LeaseRow}
    (hdistinct : s.Distinct) (h : update role ownerId token expiresAt s.rows = some rows) :
    rows.map LeaseRow.role = s.rows.map LeaseRow.role ∧
      ∀ row ∈ rows, row = ⟨role, ownerId, token, expiresAt⟩ ∨ row ∈ s.rows ∧ row.role ≠ role := by
  unfold update at h
  split at h
  · rename_i hany
    obtain ⟨own, hown, howner⟩ := List.any_eq_true.mp hany
    obtain ⟨rfl, rfl⟩ := of_decide_eq_true howner
    obtain rfl := Option.some.inj h
    constructor
    · rw [List.map_map]
      refine List.map_congr_left fun row _ => ?_
      change (if _ then _ else row).role = row.role
      split <;> rfl
    · intro row hrow
      obtain ⟨old, hold, rfl⟩ := List.mem_map.mp hrow
      by_cases hrole : old.role = own.role
      · obtain rfl := List.inj_on_of_nodup_map hdistinct hold hown hrole
        exact .inl (if_pos ⟨rfl, rfl⟩)
      · rw [if_neg fun hmatch => hrole hmatch.1]
        exact .inr ⟨hold, hrole⟩
  · cases h

theorem Distinct.step (h : s.Distinct) (hstep : s.Step ttl act s') : s'.Distinct := by
  cases hstep with
  | acquire _ _ _ _ hcreate =>
    obtain ⟨hfresh, rfl⟩ := create_eq_some.mp hcreate
    exact List.nodup_cons.mpr ⟨hfresh, h⟩
  | renew hheld hupdate =>
    unfold Distinct
    exact (update_eq_some h hupdate).1 ▸ h
  | remove role => exact h.sublist (List.filter_sublist.map _)
  | @resume _ await rest hperm =>
    cases await with
    | deletion role => exact h.sublist (List.filter_sublist.map _)
    | _ => exact h
  | _ => exact h

/-- What a process knows beside the owner of a row is behind the token of the row. -/
def Behind (s : Cluster) : Prop := ∀ row ∈ s.rows, s.Outruns row.ownerId row.role row.token

theorem knows_remember (h : held ∈ ((s.remember ownerId m).memory p).knows) :
    p = ownerId ∧ held ∈ m.knows ∨ p ≠ ownerId ∧ held ∈ (s.memory p).knows := by
  unfold remember at h
  rcases eq_or_ne p ownerId with rfl | hne
  · exact .inl ⟨rfl, by simpa using h⟩
  · exact .inr ⟨hne, by simpa [hne] using h⟩

/-- With fewer rows, and one process that knows less. -/
theorem Behind.less (h : s.Behind) {rows : List LeaseRow} (hrows : ∀ row ∈ rows, row ∈ s.rows)
    (hknows : ∀ held ∈ m.knows, held ∈ (s.memory ownerId).knows) :
    Behind ({ s with rows }.remember ownerId m) := by
  intro row hrow other hne held hlater
  obtain ⟨rfl, hknown⟩ | ⟨-, hknown⟩ := knows_remember hlater
  · exact h row (hrows row hrow) other hne held (hknows held hknown)
  · exact h row (hrows row hrow) other hne held hknown

/-- A token is written that outruns those of the other processes. -/
theorem Behind.write (h : s.Behind) (new : LeaseRow) {rows : List LeaseRow} {await : Await}
    (hawait : await.held = some ⟨new.role, new.token⟩) (hnew : s.Outruns new.ownerId new.role new.token)
    (hrows : ∀ row ∈ rows, row = new ∨ row ∈ s.rows ∧ row.role ≠ new.role) :
    Behind ({ s with rows }.await new.ownerId await) := by
  intro row hrow other hne held hlater hrole
  obtain rfl | ⟨hold, hkeep⟩ := hrows row hrow
  · obtain ⟨rfl, -⟩ | ⟨-, hknown⟩ := knows_remember hlater
    · exact absurd rfl hne
    · exact hnew other hne held hknown hrole
  · refine h row hold other hne held ?_ hrole
    obtain ⟨rfl, hknown⟩ | ⟨-, hknown⟩ := knows_remember hlater
    · -- what the writer learns is of another role
      have hother : held ≠ ⟨new.role, new.token⟩ := fun heq => hkeep (heq ▸ hrole).symm
      simpa [Memory.knows, hawait, hother] using hknown
    · exact hknown

theorem Behind.goOn (h : s.Behind) {await : Await}
    (hperm : (s.memory ownerId).awaiting.Perm (await :: rest))
    (hahead : s.Ahead (.resume ownerId await)) : (s.goOn ownerId rest await).Behind := by
  have hawaited (a : Await) (ha : a ∈ await :: rest) (held : Held) (hheld : a.held = some held) :
      held ∈ (s.memory ownerId).knows :=
    List.mem_append_right _ (List.mem_filterMap.mpr ⟨a, hperm.mem_iff.mpr ha, hheld⟩)
  have hless {mine : Option Held} (hmine : ∀ held, mine = some held → held ∈ (s.memory ownerId).knows) :
      ∀ held ∈ (Memory.mk mine rest).knows, held ∈ (s.memory ownerId).knows := by
    intro held hknown
    rcases List.mem_append.mp hknown with hheld | hheld
    · exact hmine held (Option.mem_toList.mp hheld)
    · obtain ⟨a, ha, hheld⟩ := List.mem_filterMap.mp hheld
      exact hawaited a (List.mem_cons_of_mem _ ha) held hheld
  have hkeep (held : Held) (hheld : (s.memory ownerId).held = some held) :
      held ∈ (s.memory ownerId).knows :=
    List.mem_append_left _ (Option.mem_toList.mpr hheld)
  cases await with
  | acquired held => exact h.less (fun _ => id) (hless (hawaited _ List.mem_cons_self))
  | renewed held =>
    refine h.less (fun _ => id) (hless fun held' hheld => ?_)
    obtain ⟨mine, hmine, rfl⟩ := Option.map_eq_some_iff.mp hheld
    -- the remembered lease is of the role that was renewed
    have hsame : ({ mine with token := held.token } : Held) = held :=
      congrArg (Held.mk · held.token) (hahead mine hmine)
    exact hsame ▸ hawaited _ List.mem_cons_self held rfl
  | lost => exact h.less (fun _ => id) (hless nofun)
  | deletion role => exact h.less (fun _ hrow => (List.mem_filter.mp hrow).1) (hless hkeep)
  | check held => exact h.less (fun _ => id) (hless hkeep)

theorem Behind.step (h : s.Behind) (hdistinct : s.Distinct) (hahead : s.Ahead act)
    (hstep : s.Step ttl act s') : s'.Behind := by
  cases hstep with
  | acquire ownerId role now token hcreate =>
    obtain ⟨hfresh, rfl⟩ := create_eq_some.mp hcreate
    refine h.write ⟨role, ownerId, token, now + ttl⟩ rfl hahead fun row hrow => ?_
    refine (List.mem_cons.mp hrow).imp_right fun hold => ⟨hold, fun hrole => hfresh ?_⟩
    exact List.mem_map.mpr ⟨row, hold, hrole⟩
  | @renew ownerId now held rows hheld hupdate =>
    exact h.write ⟨held.role, ownerId, held.token + 1, now + ttl⟩ rfl (hahead _ hheld)
      (update_eq_some hdistinct hupdate).2
  | lose hheld => exact h.less (fun _ => id) fun _ => id
  | release hheld => exact h.less (fun _ => id) fun _ => List.mem_append_right _
  | remove role => exact fun row hrow => h row (List.mem_filter.mp hrow).1
  | write hheld =>
    exact h.less (fun _ => id) fun _ => by simp [Memory.knows, Await.held, hheld]
  | resume rest hperm => exact h.goOn hperm hahead
  | crash ownerId => exact h.less (fun _ => id) nofun

/-- **Fencing.** In every run whose tokens are written ahead of those of the other processes, a guarded
write commits only for the process that owns the row. -/
theorem fenced_of_ahead (ttl : Nat) (s : Cluster) (hrun : Run.Reaches (Step ttl) Ahead initial s) :
    s.Fenced := by
  have hinv : s.Distinct ∧ s.Behind := by
    refine hrun.invariant (I := fun s => s.Distinct ∧ s.Behind) ⟨List.nodup_nil, nofun⟩ ?_
    exact fun _ _ _ h hahead hstep => ⟨h.1.step hstep, h.2.step h.1 hahead hstep⟩
  intro ownerId held hcheck hcommits
  unfold commits at hcommits
  cases hlease : s.lease held.role with
  | none => rw [hlease] at hcommits; cases hcommits
  | some row =>
    rw [hlease] at hcommits
    have hknown : held ∈ (s.memory ownerId).knows :=
      List.mem_append_right _ (List.mem_filterMap.mpr ⟨_, hcheck, rfl⟩)
    by_contra hne
    have hbehind : held.token < row.token :=
      hinv.2 row (List.mem_of_find?_eq_some hlease) ownerId (fun heq => hne (heq ▸ rfl)) held hknown
        (by simpa [eq_comm] using List.find?_some hlease)
    exact Nat.not_le_of_lt hbehind (of_decide_eq_true hcommits)

/-- A worker has acquired a role with the token 1000, and begins a write. -/
def writing : Cluster :=
  ((await { initial with rows := [⟨.poller, 1, 1000, 15⟩] } 1 (.acquired ⟨.poller, 1000⟩)).goOn 1 []
    (.acquired ⟨.poller, 1000⟩)).await 1 (.check ⟨.poller, 1000⟩)

theorem writing_reached (hacquire : P initial (.acquire 1 .poller 1000))
    (hresume : ∀ s, P s (.resume 1 (.acquired ⟨.poller, 1000⟩))) (hwrite : ∀ s, P s .other) :
    Run.Reaches (Step 15) P initial writing := by
  have hacquired := (Run.Reaches.refl : Run.Reaches (Step 15) P initial initial).step hacquire
    (.acquire 1 .poller 0 1000 rfl)
  have hheld := hacquired.step (hresume _) (.resume [] (.refl _))
  exact hheld.step (hwrite _) (.write rfl)

theorem fenced_of_ahead_writing : writing.Fenced :=
  fenced_of_ahead 15 writing
    (writing_reached (fun _ _ _ h => nomatch h) (fun _ => trivial) fun _ => trivial)

/-- The row is deleted and acquired by a worker whose clock is behind: the first worker still writes. -/
theorem stale_write_commits :
    ∃ s, Run.Reaches (Step 15) (fun _ _ => True) initial s ∧
      .check ⟨.poller, 1000⟩ ∈ (s.memory 1).awaiting ∧ s.commits ⟨.poller, 1000⟩ = true ∧
      (s.lease .poller).map LeaseRow.ownerId = some 2 := by
  have hwriting := writing_reached (P := fun _ _ => True) trivial (fun _ => trivial) fun _ => trivial
  have hremoved := hwriting.step trivial (.remove .poller)
  exact ⟨_, hremoved.step trivial (.acquire 2 .poller 20 500 rfl), List.mem_cons_self, by decide, by decide⟩

end Cluster

end ElcareHub.Indexer.Lease
