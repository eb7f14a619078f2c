import ElcareHub.Lib.Keyset

/-!
# The cursors of the list endpoints

`/listings`, `/auctions` and `/offers` order their rows by `updatedAtLedger` alone (a text search by its
relevance first), and hand out the position of the last row of a full page as the next cursor
(`api/cursor.ts`, `api/routes.ts`). The cursor was meant to name a ledger and, for the rows of one
ledger, an id. None of the three gets an id into it: `/listings` writes the ledger as a plain integer,
and the tables of the other two have no column `id`, so that their cursors carry the id 0, which
`buildCursorWhere` takes for a missing one. The next page therefore starts at the next ledger.
-/

namespace ElcareHub.Indexer.Pagination

open Keyset

inductive CursorEndpoint
  | listings | auctions | offers
  deriving DecidableEq

inductive Column
  | id | listingId | auctionId | offerId
  deriving DecidableEq

/-- The column marked `@id` in the schema. -/
def CursorEndpoint.primaryKey : CursorEndpoint → Column
  | .listings => .listingId
  | .auctions => .auctionId
  | .offers => .offerId

/-- A row as far as the pages depend on it; a request's filter may read any row. -/
structure Row where
  primaryKey : Nat
  updatedAtLedger : Nat
  deriving DecidableEq

/-- The value of a column of a row of the endpoint's table, `none` where there is no such column. -/
def Row.column (endpoint : CursorEndpoint) (row : Row) (column : Column) : Option Nat :=
  if column = endpoint.primaryKey then some row.primaryKey else none

/-- A cursor as the client holds it: an integer, or an envelope that only the server can have signed. -/
inductive Token
  | integer (ledger : Nat)
  | envelope (l i : Nat) (e : CursorEndpoint)

structure DecodedCursor where
  ledger : Nat
  id : Nat
  isLegacy : Bool

def encodeCursor (ledger id : Nat) (endpoint : CursorEndpoint) : Token :=
  .envelope ledger id endpoint

/-- Rejects the envelope of another endpoint. -/
def decodeCursor (raw : Token) (expectedEndpoint : CursorEndpoint) : Option DecodedCursor :=
  match raw with
  | .integer ledger => some ⟨ledger, 0, true⟩
  | .envelope l i e => if e = expectedEndpoint then some ⟨l, i, false⟩ else none

/-- The cursor of a request, if it has one. -/
def resolveCursor (cursor : Option Token) (endpoint : CursorEndpoint) : Option (Option DecodedCursor) :=
  match cursor with
  | none => some none
  | some raw => (decodeCursor raw endpoint).map some

inductive Direction
  | asc | desc

/-- `{ lt: bound }` or `{ gt: bound }`. -/
def Direction.past (direction : Direction) (bound value : Nat) : Bool :=
  match direction with
  | .desc => value < bound
  | .asc => bound < value

def buildCursorWhere (cursor : DecodedCursor) (direction : Direction) (endpoint : CursorEndpoint)
    (idField : Column) (row : Row) : Bool :=
  if cursor.isLegacy || cursor.id = 0 then
    direction.past cursor.ledger row.updatedAtLedger
  else
    direction.past cursor.ledger row.updatedAtLedger ||
      (row.updatedAtLedger = cursor.ledger && (row.column endpoint idField).any (direction.past cursor.id))

def nextCursorFromRows (rows : List Row) (pageSize : Nat) (endpoint : CursorEndpoint)
    (idField : Column) : Option Token :=
  match rows.getLast? with
  | none => none
  | some last =>
    if rows.length < pageSize then none
    else some (encodeCursor last.updatedAtLedger ((last.column endpoint idField).getD 0) endpoint)

/-- A request, but for its cursor. -/
structure Request where
  endpoint : CursorEndpoint
  /-- The filter, the text search included. -/
  matching : Row → Bool
  /-- The relevance of a text search, which only `/listings` has; its order is all that matters. -/
  rank : Option (Row → Nat)
  direction : Direction
  limit : Option Nat

namespace Request

variable (r : Request)

def take : Nat :=
  r.limit.getD 20

/-- The cursor's part of the `where` clause: the text search compares the ledger alone. -/
def bound (cursor : Option DecodedCursor) (row : Row) : Bool :=
  match cursor with
  | none => true
  | some decoded =>
    if r.rank.isSome then r.direction.past decoded.ledger row.updatedAtLedger
    else buildCursorWhere decoded r.direction r.endpoint .id row

/-- The column `_rank` of a text search. -/
def relevance (row : Row) : Nat :=
  match r.rank with
  | none => 0
  | some rank => rank row

/-- The order requested from the database. -/
def Before (a b : Row) : Prop :=
  r.relevance b < r.relevance a ∨
    r.relevance a = r.relevance b ∧ ¬ r.direction.past b.updatedAtLedger a.updatedAtLedger

instance : DecidableRel r.Before :=
  fun _ _ => inferInstanceAs (Decidable (_ ∨ _))

/-- The header `X-Next-Cursor`. -/
def nextCursor (rows : List Row) : Option Token :=
  match r.endpoint with
  | .listings => match rows.getLast? with
    | none => none
    | some last => if rows.length = r.take then some (.integer last.updatedAtLedger) else none
  | endpoint => nextCursorFromRows rows r.take endpoint .id

/-- The rows of one answer, in an order of the database's choosing. -/
def page (order : List Row → List Row) (table : List Row) (cursor : Option DecodedCursor) : List Row :=
  (order (table.filter fun row => r.matching row && r.bound cursor row)).take r.take

/-- A client that follows the cursors it is given: all the rows it is sent. -/
def browse (order : List Row → List Row) (table : List Row) : Nat → Option Token → Option (List Row)
  | 0, _ => none
  | fuel + 1, token => do
    let cursor ← resolveCursor token r.endpoint
    let rows := r.page order table cursor
    match r.nextCursor rows with
    | none => some rows
    | some token => (browse order table fuel (some token)).map (rows ++ ·)

/-! ### What the cursors mean -/

/-- A row that follows the cursor taken from another one. -/
def beyond (last row : Row) : Bool :=
  r.direction.past last.updatedAtLedger row.updatedAtLedger

theorem past_trans {direction : Direction} (hab : direction.past a b)
    (hbc : direction.past b c) : direction.past a c := by
  cases direction <;> simp only [Direction.past, decide_eq_true_eq] at * <;> omega

/-- The cursors that are handed out lead to the rows beyond the last one of the page. -/
theorem nextCursor_full (hlast : rows.getLast? = some last) (hfull : rows.length = r.take) :
    ∃ token decoded, r.nextCursor rows = some token ∧ decodeCursor token r.endpoint = some decoded ∧
      r.bound (some decoded) = r.beyond last := by
  unfold nextCursor
  cases hendpoint : r.endpoint with
  | listings =>
    refine ⟨.integer last.updatedAtLedger, _, ?_, rfl, ?_⟩
    · simp only [hlast]
      exact if_pos hfull
    · funext row
      simp [bound, buildCursorWhere, beyond]
  | auctions | offers =>
    refine ⟨encodeCursor last.updatedAtLedger 0 r.endpoint, ⟨last.updatedAtLedger, 0, false⟩, ?_, ?_, ?_⟩
    · simp [nextCursorFromRows, hlast, hfull, Row.column, CursorEndpoint.primaryKey, hendpoint]
    · simp [decodeCursor, encodeCursor, hendpoint]
    · funext row
      simp [bound, buildCursorWhere, beyond]

theorem nextCursor_short (hshort : rows.length < r.take) : r.nextCursor rows = none := by
  unfold nextCursor nextCursorFromRows
  cases rows.getLast? with
  | none => cases r.endpoint <;> rfl
  | some last => cases r.endpoint <;> simp [hshort, hshort.ne]

/-- Following the cursors is browsing by the ledger of the last row. -/
theorem browse_eq
    (horder : Sorts r.Before order) (htake : 0 < r.take) :
    ∀ fuel token cursor, resolveCursor token r.endpoint = some cursor →
      (∀ last row, r.bound cursor last → r.beyond last row → r.bound cursor row) →
      r.browse order table fuel token = Keyset.browse order r.beyond r.take fuel
        (table.filter fun row => r.matching row && r.bound cursor row) := by
  intro fuel
  induction fuel with
  | zero => intros; rfl
  | succ fuel ih =>
    intro token cursor hcursor hmono
    set rows := table.filter fun row => r.matching row && r.bound cursor row
    have hpage : r.page order table cursor = (order rows).take r.take := rfl
    rw [browse, hcursor]
    simp only [Option.bind_eq_bind, Option.bind_some, hpage]
    rcases Nat.lt_or_ge (order rows).length r.take with hlt | hle
    · have hall : (order rows).take r.take = order rows := List.take_of_length_le hlt.le
      rw [browse_of_lt hlt, hall, r.nextCursor_short hlt]
    · obtain ⟨last, hlast⟩ := exists_last htake hle
      obtain ⟨next, decoded, hnext, hdecoded, hbound⟩ :=
        r.nextCursor_full hlast (List.length_take_of_le hle)
      have hlastBound : r.bound cursor last := by
        have hmem := (horder rows).1.subset (List.mem_of_mem_take (List.mem_of_getLast? hlast))
        exact (Bool.and_eq_true_iff.mp (List.mem_filter.mp hmem).2).2
      -- the rows beyond the last one were within the bound of this page already
      have hrows : rows.filter (r.beyond last) =
          table.filter fun row => r.matching row && r.bound (some decoded) row := by
        rw [List.filter_filter, hbound]
        refine List.filter_congr fun row _ => Bool.eq_iff_iff.mpr ?_
        simp only [Bool.and_eq_true]
        constructor
        · rintro ⟨hbeyond, hmatching, -⟩
          exact ⟨hmatching, hbeyond⟩
        · rintro ⟨hmatching, hbeyond⟩
          exact ⟨hbeyond, hmatching, hmono last row hlastBound hbeyond⟩
      rw [browse_of_le hlast hle, hnext, hrows, ← ih (some next) (some decoded) (by simp [resolveCursor, hdecoded])]
      rw [hbound]
      exact fun _ _ => past_trans

theorem before_total (a b : Row) : r.Before a b ∨ r.Before b a := by
  unfold Before Direction.past
  cases r.direction <;> simp only [decide_eq_true_eq] <;> omega

theorem before_trans (a b c : Row) (hab : r.Before a b) (hbc : r.Before b c) : r.Before a c := by
  unfold Before Direction.past at *
  cases hdirection : r.direction <;> simp only [hdirection, decide_eq_true_eq] at * <;> omega

theorem not_beyond_of_tie (a b : Row) (hbeyond : r.beyond b a) (hab : r.Before a b) : ¬ r.Before b a := by
  unfold Before beyond Direction.past at *
  cases hdirection : r.direction <;> simp only [hdirection, decide_eq_true_eq] at * <;> omega

end Request

end ElcareHub.Indexer.Pagination
