import ElcareHub.Indexer.Pagination

/-!
# The activity of a wallet

`/wallets/:address/activity` spreads two conditions into one object: the wallet's filter, an `OR` over
the places of an event that can name a wallet, and the cursor's bound. The bound of a cursor that carries
an id is an `OR` as well. The two stand under one key of the object, where the later one remains, so that
a page behind such a cursor is taken from the events of everyone (`activity_own_iff`).
-/

namespace ElcareHub.Indexer.Activity

open Pagination Keyset

/-- A row of `MarketplaceEvent`, as far as the conditions read it. -/
structure Event where
  id : Nat
  actor : String
  /-- The text under a key of the event's JSON. -/
  data : String → Option String
  ledgerSequence : Nat

/-- A `where` object: its keys are conditions that hold together. -/
structure Where where
  or : Option (List (Event → Bool)) := none
  ledgerSequence : Option (Nat → Bool) := none

def Where.holds (w : Where) (event : Event) : Bool :=
  w.or.all (·.any (· event)) && w.ledgerSequence.all (· event.ledgerSequence)

/-- `{ ...a, ...b }`: of a key that both have, the value in `b` remains. -/
def Where.spread (a b : Where) : Where where
  or := b.or <|> a.or
  ledgerSequence := b.ledgerSequence <|> a.ledgerSequence

def buildCursorWhere (cursor : DecodedCursor) (direction : Direction) : Where :=
  if cursor.isLegacy || cursor.id = 0 then
    { ledgerSequence := some (direction.past cursor.ledger) }
  else
    { or := some [
        fun event => direction.past cursor.ledger event.ledgerSequence,
        fun event => event.ledgerSequence = cursor.ledger && direction.past cursor.id event.id] }

def jsonKeys : List String :=
  ["buyer", "artist", "offerer", "bidder", "winner", "creator"]

def baseWhere (address : String) : Where where
  or := some ((fun event => event.actor = address) ::
    jsonKeys.map fun path event => event.data path = some address)

structure Query where
  limit : Option Nat
  offset : Option Nat
  direction : Direction
  decoded : Option DecodedCursor

namespace Query

variable (q : Query)

def condition (address : String) : Where :=
  (baseWhere address).spread (match q.decoded with
    | none => {}
    | some cursor => buildCursorWhere cursor q.direction)

/-- `orderBy: { ledgerSequence: direction }`. -/
def Before (a b : Event) : Prop :=
  ¬ q.direction.past b.ledgerSequence a.ledgerSequence

instance : DecidableRel q.Before :=
  fun _ _ => inferInstanceAs (Decidable (¬ _))

/-- The events of one answer. -/
def page (order : List Event → List Event) (table : List Event) (address : String) : List Event :=
  let skip := if q.decoded.isSome then 0 else q.offset.getD 0
  ((order (table.filter (q.condition address).holds)).drop skip).take (min (q.limit.getD 50) 200)

theorem sorts_before : Sorts q.Before (List.insertionSort q.Before) := by
  apply sorts_insertionSort <;> unfold Before Direction.past <;> cases q.direction <;> grind

/-- A bound on the ledger alone stands beside the filter. -/
theorem own_of_condition (hid : ∀ cursor ∈ q.decoded, cursor.isLegacy ∨ cursor.id = 0)
    (h : (q.condition address).holds event) : (baseWhere address).holds event := by
  unfold condition at h
  cases hdecoded : q.decoded with
  | none => rwa [hdecoded] at h
  | some cursor =>
    simp only [hdecoded, buildCursorWhere] at h
    rw [if_pos (by simpa using hid cursor hdecoded)] at h
    exact Bool.and_eq_true_iff.mpr ⟨(Bool.and_eq_true_iff.mp h).1, rfl⟩

/-- An event that names no wallet and lies just behind a cursor. -/
def stranger (cursor : DecodedCursor) (address : String) : Event where
  id := match q.direction with
    | .desc => cursor.id - 1
    | .asc => cursor.id + 1
  actor := address ++ "?"
  data _ := none
  ledgerSequence := cursor.ledger

theorem stranger_not_own (cursor : DecodedCursor) (address : String) :
    ¬ (baseWhere address).holds (q.stranger cursor address) := by
  simp [Where.holds, baseWhere, stranger]

theorem stranger_condition (hdecoded : q.decoded = some cursor)
    (hid : ¬ (cursor.isLegacy ∨ cursor.id = 0)) (address : String) :
    (q.condition address).holds (q.stranger cursor address) := by
  rw [condition, hdecoded]
  simp only [buildCursorWhere]
  rw [if_neg (by simpa using hid)]
  cases hdirection : q.direction <;>
    simp [Where.spread, Where.holds, baseWhere, stranger, Direction.past, hdirection]
  grind

/-- **Activity.** A request shows the wallet's own events, whatever the database holds, if and only if
its cursor carries no id; a page of no rows aside. -/
theorem activity_own_iff (address : String) :
    (∀ order, Sorts q.Before order → ∀ table, ∀ event ∈ q.page order table address,
        (baseWhere address).holds event) ↔
      q.limit = some 0 ∨ ∀ cursor ∈ q.decoded, cursor.isLegacy ∨ cursor.id = 0 := by
  constructor
  · intro h
    by_contra! hcon
    obtain ⟨hlimit, cursor, hdecoded, hid⟩ := hcon
    refine q.stranger_not_own cursor address (h _ q.sorts_before [q.stranger cursor address] _ ?_)
    have htake : 0 < min (q.limit.getD 50) 200 := by
      cases hq : q.limit <;> simp_all [Nat.pos_iff_ne_zero]
    obtain ⟨n, hn⟩ := Nat.exists_eq_add_of_lt htake
    have hdecoded := Option.mem_def.mp hdecoded
    have hholds := q.stranger_condition hdecoded (by simpa using hid) address
    simp [page, hdecoded, hholds, hn]
  · rintro (hlimit | hid) order horder table event hevent
    · simp [page, hlimit] at hevent
    · have hmem := (horder _).1.subset (List.mem_of_mem_drop (List.mem_of_mem_take hevent))
      exact q.own_of_condition hid (List.mem_filter.mp hmem).2

end Query

/-- Behind a cursor of ledger 7 and id 4, a wallet without activity sees a sale between two others. -/
theorem activity_of_others :
    let sale : Event := ⟨3, "seller", fun key => if key = "buyer" then some "buyer" else none, 7⟩
    let q : Query := ⟨none, none, .desc, some ⟨7, 4, false⟩⟩
    (q.page (List.insertionSort q.Before) [sale] "wallet").map (·.id) = [3] ∧
      ¬ (baseWhere "wallet").holds sale := by
  decide

end ElcareHub.Indexer.Activity
