import ElcareHub.Indexer.EventLog
import ElcareHub.Lib.Admission

/-!
# Deduplication of events

An event is identified by its position on the chain: contract, ledger, transaction and index. What was
published at a position does not change, so a sequence of decoded events is a sequence of positions,
and arbitrary repetitions and batchings of it are sequences of positions again.

`upsertEvents` recognises a repetition by whichever unique index fires. The index of the event hash
fires for the same position only. The index of id, type and ledger also fires for different positions,
such as two bids on one auction in one ledger: the later event is taken for a replay of the earlier one
and is lost.

Here every statement stands for itself. What a caught violation does to the transaction around it is
the subject of `Indexer.Window`.
-/

namespace ElcareHub.Indexer

open Query Admission Call

variable {h h' : EventHash} {batches : List (List EventHash)}

/-! ### The hash of an event -/

/-- `computeEventHash`: the digest of the four fields, joined by colons. -/
def computeEventHash (sha256 : String → String) (strkey : Address → String) (h : EventHash) : String :=
  sha256 (strkey h.contractId ++ ":" ++ h.ledgerSequence.repr ++ ":" ++ h.txHash ++ ":" ++ h.eventIndex.repr)

/-- What stands before the first colon, and what stands after it. -/
theorem append_colon_inj {v' : List α} (hu : colon ∉ u)
    (hu' : colon ∉ u') (h : u ++ colon :: v = u' ++ colon :: v') : u = u' ∧ v = v' := by
  have key : ∀ w w' x x' a : List α, colon ∉ w' → w' = w ++ a → colon :: x = a ++ colon :: x' →
      a = [] := by
    intro w w' x x' a hw' hw hx
    cases a with
    | nil => rfl
    | cons c a =>
      obtain rfl : colon = c := (List.cons.inj hx).1
      exact absurd (hw ▸ List.mem_append_right w List.mem_cons_self) hw'
  rcases List.append_eq_append_iff.mp h with ⟨a, hw, hx⟩ | ⟨a, hw, hx⟩
  · obtain rfl := key u u' v v' a hu' hw hx
    exact ⟨(List.append_nil u ▸ hw).symm, (List.cons.inj hx).2⟩
  · obtain rfl := key u' u v' v a hu hw hx
    exact ⟨List.append_nil u' ▸ hw, (List.cons.inj hx).2.symm⟩

theorem repr_injective : Function.Injective Nat.repr := by
  intro m n h
  have hdigits := congrArg String.toList h
  rw [Nat.toList_repr, Nat.toList_repr] at hdigits
  calc m = Nat.ofDigitChars 10 (Nat.toDigits 10 m) 0 :=
        (Nat.ofDigitChars_toDigits (by decide) (by decide)).symm
    _ = Nat.ofDigitChars 10 (Nat.toDigits 10 n) 0 := by rw [hdigits]
    _ = n := Nat.ofDigitChars_toDigits (by decide) (by decide)

theorem colon_notMem_repr (n : Nat) : ':' ∉ n.repr.toList := by
  intro hmem
  rw [Nat.toList_repr] at hmem
  have hdigit := Nat.isDigit_of_mem_toDigits (by decide) (by decide) hmem
  exact absurd hdigit (by decide)

section Hash

variable {sha256 : String → String} {strkey : Address → String}

/-- Different positions have different hashes. -/
theorem computeEventHash_inj (hsha256 : Function.Injective sha256)
    (hstrkey : Function.Injective strkey) (hcolon : ∀ a, ':' ∉ (strkey a).toList)
    (htx : ':' ∉ h.txHash.toList) (htx' : ':' ∉ h'.txHash.toList)
    (heq : computeEventHash sha256 strkey h = computeEventHash sha256 strkey h') : h = h' := by
  have hlist := congrArg String.toList (hsha256 heq)
  simp only [String.toList_append, List.append_assoc] at hlist
  obtain ⟨hcontract, hlist⟩ := append_colon_inj (hcolon _) (hcolon _) hlist
  obtain ⟨hledger, hlist⟩ := append_colon_inj (colon_notMem_repr _) (colon_notMem_repr _) hlist
  obtain ⟨htxHash, hindex⟩ := append_colon_inj htx htx' hlist
  have hcontractId : h.contractId = h'.contractId := hstrkey (String.toList_injective hcontract)
  have hledgerSequence : h.ledgerSequence = h'.ledgerSequence :=
    repr_injective (String.toList_injective hledger)
  have heventIndex : h.eventIndex = h'.eventIndex := repr_injective (String.toList_injective hindex)
  cases h
  cases h'
  simp_all only [String.toList_inj]

end Hash

/-! ### Sequences of positions -/

section Positions

variable (published : EventHash → Payload) (chain : Chain)

/-- The event at a position, as it is decoded. -/
def arrivalAt (h : EventHash) : Arrival where
  data := published h
  ledgerSequence := h.ledgerSequence
  contractId := h.contractId
  txHash := h.txHash
  eventIndex := h.eventIndex
  chain := chain

/-- The row of the event at a position. -/
def rowAt (h : EventHash) : EventRow := (arrivalAt published chain h).row

/-- Pass batches of events to `upsertEvents`, one after the other: the events that were new. -/
def deliver : List (List EventHash) → Db → Except (DbFault Thrown) (List Arrival × Db)
  | [], db => .ok ([], db)
  | batch :: batches, db =>
    match direct (upsertEvents (batch.map (arrivalAt published chain))) db with
    | .error e => .error e
    | .ok (newEvents, db1) =>
      match deliver batches db1 with
      | .error e => .error e
      | .ok (rest, db2) => .ok (newEvents ++ rest, db2)

/-- Every event of the batches ends up stored exactly once, and was returned as new exactly once. -/
def Deduplicated (batches : List (List EventHash)) (db : Db) : Prop :=
  ∃ newEvents db', deliver published chain batches db = .ok (newEvents, db') ∧ ∀ h ∈ batches.flatten,
      (db'.events.map EventRow.eventHash).count h = 1 ∧
        (newEvents.map fun event => event.eventHash).count h = 1

/-- The events at two positions violate a unique index. -/
def clashAt (h h' : EventHash) : Bool := (rowAt published chain h).clashes (rowAt published chain h')

variable {published chain} {db db' : Db} {kept batch : List EventHash}

theorem clashAt_of_ne (hne : h ≠ h') :
    clashAt published chain h h' = (rowAt published chain h).sameKey (rowAt published chain h') := by
  have hhash : (rowAt published chain h).eventHash ≠ (rowAt published chain h').eventHash := hne
  rw [clashAt, EventRow.clashes, decide_eq_false hhash, Bool.false_or]

/-- A batch that fits: what is admitted is new, and is stored. -/
theorem upsertEvents_direct (hdb : db.events = kept.map (rowAt published chain))
    (hfits : ∀ h ∈ batch, (rowAt published chain h).fits = true) :
    direct (upsertEvents (batch.map (arrivalAt published chain))) db =
      .ok ((admitted (clashAt published chain) kept batch).map (arrivalAt published chain),
        { db with
          events := (kept ++ admitted (clashAt published chain) kept batch).map (rowAt published chain) }) := by
  suffices hreturns : Returns (upsertEvents (batch.map (arrivalAt published chain))) ⟨db, false, false⟩
      ((admitted (clashAt published chain) kept batch).map (arrivalAt published chain))
      ⟨{ db with
        events := (kept ++ admitted (clashAt published chain) kept batch).map (rowAt published chain) },
        false, false⟩ by
    rw [direct, show upsertEvents _ _ = _ from hreturns]
  induction batch generalizing kept db with
  | nil =>
    rw [admitted, List.append_nil, ← hdb]
    exact returns_pure.mpr ⟨rfl, rfl⟩
  | cons h batch ih =>
    have hfit : (arrivalAt published chain h).row.fits = true := hfits h List.mem_cons_self
    have hany : db.events.any (arrivalAt published chain h).row.clashes =
        kept.any (clashAt published chain h) := by
      rw [hdb, List.any_map]
      rfl
    cases hclash : kept.any (clashAt published chain h) with
    | true =>
      have hskip : Returns (upsertEvent (arrivalAt published chain h).toDecodedEvent)
          ⟨db, false, false⟩ false ⟨db, false, false⟩ := by
        refine returns_upsertEvent.mpr ⟨rfl, hfit, ?_⟩
        rw [if_pos (hany.trans hclash)]
        exact ⟨rfl, rfl⟩
      rw [admitted_cons_pos hclash]
      exact returns_bind.mpr ⟨false, _, hskip, returns_bind.mpr
        ⟨_, _, ih hdb fun x hx => hfits x (List.mem_cons_of_mem _ hx), returns_pure.mpr ⟨rfl, rfl⟩⟩⟩
    | false =>
      have hinsert : Returns (upsertEvent (arrivalAt published chain h).toDecodedEvent)
          ⟨db, false, false⟩ true
          ⟨{ db with events := db.events ++ [rowAt published chain h] }, false, false⟩ := by
        refine returns_upsertEvent.mpr ⟨rfl, hfit, ?_⟩
        rw [hany.trans hclash]
        exact ⟨rfl, rfl⟩
      have hdb' : ({ db with events := db.events ++ [rowAt published chain h] } : Db).events =
          (kept ++ [h]).map (rowAt published chain) := by
        rw [hdb, List.map_append, List.map_singleton]
      have hrest := ih hdb' fun x hx => hfits x (List.mem_cons_of_mem _ hx)
      rw [← List.append_cons] at hrest
      rw [admitted_cons_neg hclash]
      exact returns_bind.mpr ⟨true, _, hinsert, returns_bind.mpr
        ⟨_, _, hrest, returns_pure.mpr ⟨rfl, rfl⟩⟩⟩

/-- **Batching does not matter.** Batches that fit are stored like the sequence they make up. -/
theorem deliver_eq (hdb : db.events = kept.map (rowAt published chain))
    (hfits : ∀ h ∈ batches.flatten, (rowAt published chain h).fits = true) :
    deliver published chain batches db =
      .ok ((admitted (clashAt published chain) kept batches.flatten).map (arrivalAt published chain),
        { db with
          events := (kept ++ admitted (clashAt published chain) kept batches.flatten).map
            (rowAt published chain) }) := by
  induction batches generalizing kept db with
  | nil => rw [deliver, List.flatten_nil, admitted, List.append_nil, ← hdb, List.map_nil]
  | cons batch batches ih =>
    have hfirst := upsertEvents_direct hdb fun h hh => hfits h (List.mem_append_left _ hh)
    simp only [deliver, hfirst]
    rw [ih rfl fun h hh => hfits h (List.mem_append_right _ hh)]
    simp only [List.flatten_cons, admitted_append, List.map_append, List.append_assoc]

/-- Batches that are delivered without an error fit. -/
theorem fits_of_deliver (h : deliver published chain batches db = .ok (newEvents, db')) :
    ∀ x ∈ batches.flatten, (rowAt published chain x).fits = true := by
  induction batches generalizing db db' newEvents with
  | nil => exact fun _ hmem => absurd hmem List.not_mem_nil
  | cons batch batches ih =>
    rw [deliver] at h
    split at h
    · cases h
    · rename_i first db1 hfirst
      split at h
      · cases h
      · rename_i rest db2 hrest
        intro x hx
        rcases List.mem_append.mp (List.flatten_cons ▸ hx) with hmem | hmem
        · rw [direct] at hfirst
          split at hfirst
          · rename_i a s' hreturns
            exact fits_of_upsertEvents hreturns _ (List.mem_map_of_mem hmem)
          · cases hfirst
        · exact ih hrest x hmem

end Positions

/-! ### Exactness -/

/-- **When deduplication is exact.** Hashes separate positions, and on an empty event table every event
of a sequence in batches is stored and returned as new exactly once if and only if every row fits its
columns and no two events at different positions have the same id, type and ledger. -/
theorem deduplicated_iff {sha256 : String → String} (hsha256 : Function.Injective sha256)
    {strkey : Address → String} (hstrkey : Function.Injective strkey)
    (hcolon : ∀ a, ':' ∉ (strkey a).toList) (published : EventHash → Payload) (chain : Chain)
    (batches : List (List EventHash)) (htx : ∀ h ∈ batches.flatten, ':' ∉ h.txHash.toList) (db : Db)
    (hdb : db.events = []) : (∀ h ∈ batches.flatten, ∀ h' ∈ batches.flatten,
      computeEventHash sha256 strkey h = computeEventHash sha256 strkey h' ↔ h = h') ∧
    (Deduplicated published chain batches db ↔
      (∀ h ∈ batches.flatten, (rowAt published chain h).fits = true) ∧
      ∀ h ∈ batches.flatten, ∀ h' ∈ batches.flatten, h ≠ h' →
        (rowAt published chain h).sameKey (rowAt published chain h') = false) := by
  refine ⟨fun h hh h' hh' => ⟨computeEventHash_inj hsha256 hstrkey hcolon (htx h hh) (htx h' hh'),
    fun heq => heq ▸ rfl⟩, ?_⟩
  have hempty : db.events = [].map (rowAt published chain) := hdb
  have hexact : (∀ h ∈ batches.flatten,
        (admitted (clashAt published chain) [] batches.flatten).count h = 1) ↔
      ∀ h ∈ batches.flatten, ∀ h' ∈ batches.flatten, h ≠ h' → clashAt published chain h h' = false :=
    count_admitted_iff (fun h => by simp [clashAt, EventRow.clashes]) fun h h' => by
      simp only [clashAt, EventRow.clashes, EventRow.sameKey_comm, eq_comm]
  have hkeys : (∀ h ∈ batches.flatten, ∀ h' ∈ batches.flatten, h ≠ h' →
        clashAt published chain h h' = false) ↔
      ∀ h ∈ batches.flatten, ∀ h' ∈ batches.flatten, h ≠ h' →
        (rowAt published chain h).sameKey (rowAt published chain h') = false :=
    forall₂_congr fun h _ => forall₃_congr fun h' _ hne => by rw [clashAt_of_ne hne]
  -- the stored rows and the new events are the admitted positions, seen through a row and an event
  have hcount : ∀ hs : List EventHash, (hs.map (rowAt published chain)).map EventRow.eventHash = hs ∧
        (hs.map (arrivalAt published chain)).map (fun event => event.eventHash) = hs := by
    intro hs
    rw [List.map_map, List.map_map]
    exact ⟨List.map_id hs, List.map_id hs⟩
  constructor
  · rintro ⟨newEvents, db', hdeliver, hall⟩
    have hfits := fits_of_deliver hdeliver
    rw [deliver_eq hempty hfits] at hdeliver
    obtain ⟨rfl, rfl⟩ := Prod.mk.inj (Except.ok.inj hdeliver)
    refine ⟨hfits, hkeys.mp (hexact.mp fun h hh => ?_)⟩
    rw [← (hall h hh).2, (hcount _).2]
  · rintro ⟨hfits, hsame⟩
    refine ⟨_, _, deliver_eq hempty hfits, fun h hh => ?_⟩
    have hone := hexact.mpr (hkeys.mpr hsame) h hh
    rw [(hcount _).1, (hcount _).2]
    exact ⟨hone, hone⟩

/-- Bids in ledger 9: the event with index `i` is a bid on the auction `auctionOf i`. -/
def bidsOn (auctionOf : Nat → Nat) (h : EventHash) : Payload :=
  .marketplace (.bidPlaced (auctionOf h.eventIndex) ⟨h.eventIndex⟩ 100 0)

/-- The `i`-th event of a transaction in ledger 9. -/
def inLedgerNine (i : Nat) : EventHash := ⟨⟨0⟩, 9, "tx", i⟩

/-- Two bids on two auctions, one of them delivered again and again. -/
theorem deduplicated_bids_on_two_auctions :
    Deduplicated (bidsOn id) ⟨fun _ => none, fun _ => none⟩
      [[inLedgerNine 1, inLedgerNine 2], [], [inLedgerNine 1], [inLedgerNine 1]] .empty := by
  have hstrkey : Function.Injective fun a : Address => a.num.repr := by
    intro a b hab
    cases a
    cases b
    exact congrArg _ (repr_injective hab)
  exact (deduplicated_iff Function.injective_id hstrkey (fun a => colon_notMem_repr a.num) _ _ _
    (by decide) .empty rfl).2.mpr (by decide)

/-- Two bids on one auction in one ledger: the second one is not stored. -/
theorem second_bid_in_ledger_lost :
    ¬ Deduplicated (bidsOn fun _ => 7) ⟨fun _ => none, fun _ => none⟩
      [[inLedgerNine 1, inLedgerNine 2]] .empty := by
  rintro ⟨newEvents, db', hdeliver, hall⟩
  cases hdeliver
  exact absurd (hall (inLedgerNine 2) (by decide)).1 (by decide)

/-! ### Redelivery -/

end ElcareHub.Indexer
