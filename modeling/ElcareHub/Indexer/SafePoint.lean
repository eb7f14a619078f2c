import ElcareHub.Indexer.Window

/-!
# The rollback and its safe point

What the transaction of a rollback does, and where a rollback goes to.

`findReorgSafePoint` walks back from the ledger whose hash differs and stops at the first ledger the
network answers for. It does not compare hashes: on a network that answers, the safe point is the
ledger right below, whether or not this ledger has been abandoned as well.
-/

namespace ElcareHub.Indexer

open Query Call

variable {scope : Scope} {safe : Nat} {store store' : Store}

/-! ### The transaction of a rollback -/

/-- The projection after a rollback. -/
def Db.revertTo (db : Db) (safe : Nat) : Db where
  events := db.events.filter fun row => decide (row.ledgerSequence ≤ safe)
  listings := resetAbove ListingRow.updatedAtLedger
    (fun row => { row with status := .active, updatedAtLedger := safe }) safe
    (dropAbove ListingRow.createdAtLedger safe db.listings)
  auctions := resetAbove AuctionRow.updatedAtLedger
    (fun row => { row with status := .active, updatedAtLedger := safe }) safe
    (dropAbove AuctionRow.createdAtLedger safe db.auctions)
  offers := resetAbove OfferRow.updatedAtLedger
    (fun row => { row with status := .pending, updatedAtLedger := safe }) safe db.offers
  pendingOffers := dropAbove PendingOfferRow.createdAtLedger safe db.pendingOffers
  bids := db.bids.filter fun row => decide (row.ledgerSequence ≤ safe)
  priceHistory := db.priceHistory.filter fun row => decide (row.changedAtLedger ≤ safe)
  royaltyPayments := db.royaltyPayments.filter fun row => decide (row.ledgerSequence ≤ safe)
  collections := fun address =>
    (db.collections address).filter fun row => decide (row.deployedAtLedger ≤ safe)

/-- The database after a rollback. -/
def Store.revertTo (store : Store) (safe : Nat) : Store :=
  { store with db := store.db.revertTo safe, syncState := some (.jump safe) }

theorem returns_edit :
    Returns (edit f) s u s' ↔ s.aborted = false ∧ { s with db := f s.db } = s' := by
  rw [edit, returns_statement]
  simp

/-- The part of a rollback that works on rows. -/
theorem returns_revertRows :
    Returns (revertRows scope safe) s u s' ↔
      s.aborted = false ∧ scope .priceHistoryLedgerSequence = true ∧
        { s with db := { s.db.revertTo safe with
          offers := s.db.offers, pendingOffers := s.db.pendingOffers } } = s' := by
  simp only [revertRows, revertBids, returns_seq, returns_edit, returns_use]
  constructor
  · rintro ⟨_, ⟨haborted, rfl⟩, _, ⟨-, rfl⟩, _, ⟨hscope, rfl⟩, _, ⟨-, rfl⟩, _, ⟨-, rfl⟩, _, ⟨-, rfl⟩, _,
      ⟨-, rfl⟩, _, ⟨-, rfl⟩, _, ⟨-, rfl⟩, -, rfl⟩
    exact ⟨haborted, hscope, rfl⟩
  · rintro ⟨haborted, hscope, rfl⟩
    exact ⟨_, ⟨haborted, rfl⟩, _, ⟨haborted, rfl⟩, _, ⟨hscope, rfl⟩, _, ⟨haborted, rfl⟩, _, ⟨haborted, rfl⟩, _,
      ⟨haborted, rfl⟩, _, ⟨haborted, rfl⟩, _, ⟨haborted, rfl⟩, _, ⟨haborted, rfl⟩, haborted, rfl⟩

/-- **The specification of a rollback.** -/
theorem transaction_revertLedgers : transaction (revertLedgers scope safe) store = .ok ((), store') ↔
      (scope .priceHistoryLedgerSequence = true ∧ store.syncState.isSome = true ∧ isInt safe = true) ∧
        store.revertTo safe = store' := by
  rw [transaction_eq_ok]
  simp only [revertLedgers, rollbackReorg, revertBids, returns_seq, returns_inDb, returns_statement,
    returns_edit, returns_revertRows]
  constructor
  · rintro ⟨_, ⟨_, ⟨_, ⟨-, hscope, rfl⟩, rfl⟩, _, ⟨-, synced, hsync, rfl⟩, _,
      ⟨_, ⟨_, ⟨-, rfl⟩, -, rfl⟩, rfl⟩, _, ⟨-, rfl⟩, rfl⟩, -, rfl⟩
    split at hsync
    · rename_i hsome
      split at hsync
      · rename_i hfits
        cases hsync
        refine ⟨⟨hscope, hsome, hfits⟩, ?_⟩
        simp [Store.revertTo, Db.revertTo]
      · cases hsync
    · cases hsync
  · rintro ⟨⟨hscope, hsome, hfits⟩, rfl⟩
    refine ⟨_, ⟨_, ⟨_, ⟨by trivial, hscope, rfl⟩, rfl⟩, _, ⟨by trivial, _, (if_pos hsome).trans (if_pos hfits), rfl⟩, _,
      ⟨_, ⟨_, ⟨by trivial, rfl⟩, by trivial, rfl⟩, rfl⟩, _, ⟨by trivial, rfl⟩, rfl⟩, by trivial, ?_⟩
    simp [Store.revertTo, Db.revertTo]

/-! ### The safe point -/

def maxReorgDepth : Nat := 100

/-- The rest of the walk back: so many depths are left, from `depth` on. -/
def walkBack (accessible : Nat → Bool) (divergedAt : Nat) : Nat → Nat → Nat
  | 0, _ => divergedAt - maxReorgDepth
  | left + 1, depth =>
    if divergedAt - depth = 0 then 0
    else if accessible (divergedAt - depth) then divergedAt - depth
    else walkBack accessible divergedAt left (depth + 1)

/-- `findReorgSafePoint`: the first ledger below whose look-up is answered. -/
def findReorgSafePoint (accessible : Nat → Bool) (divergedAt : Nat) : Nat :=
  walkBack accessible divergedAt maxReorgDepth 1

section Walk

variable {accessible : Nat → Bool} {divergedAt : Nat} {P : Nat → Prop}

/-- The walk ends at a ledger with `P`, a property that is inherited by lower ledgers, just when no
ledger without it answers on the way. -/
theorem walkBack_iff (hdown : ∀ m n, m ≤ n → P n → P m) (hbase : P (divergedAt - maxReorgDepth))
    (left depth : Nat) : P (walkBack accessible divergedAt left depth) ↔
      ∀ i, depth ≤ i → i < depth + left → divergedAt - i ≠ 0 → accessible (divergedAt - i) = true →
        P (divergedAt - i) := by
  induction left generalizing depth with
  | zero =>
    refine ⟨fun _ i hi hlt => ?_, fun _ => hbase⟩
    omega
  | succ left ih =>
    rw [walkBack]
    split
    · refine ⟨fun _ i hi _ hne => absurd ?_ hne, fun _ => hdown _ _ (Nat.zero_le _) hbase⟩
      omega
    · rename_i hzero
      split
      · rename_i hanswers
        constructor
        · intro hP i hi _ _ _
          exact hdown _ _ (Nat.sub_le_sub_left hi divergedAt) hP
        · intro hall
          exact hall depth (Nat.le_refl depth) (by omega) hzero hanswers
      · rename_i hsilent
        rw [ih]
        constructor
        · intro hall i hi hlt hne hanswers
          rcases Nat.eq_or_lt_of_le hi with rfl | hnext
          · exact absurd hanswers hsilent
          · exact hall i hnext (by omega) hne hanswers
        · intro hall i hi hlt
          exact hall i (by omega) (by omega)

theorem findReorgSafePoint_iff (hdown : ∀ m n, m ≤ n → P n → P m)
    (hbase : P (divergedAt - maxReorgDepth)) : P (findReorgSafePoint accessible divergedAt) ↔
      ∀ n, 0 < n → n < divergedAt → accessible n = true → P n := by
  rw [findReorgSafePoint, walkBack_iff hdown hbase]
  constructor
  · intro hall n hpos hlt hanswers
    by_cases hdeep : divergedAt - n ≤ maxReorgDepth
    · have hn : divergedAt - (divergedAt - n) = n := by omega
      have hi := hall (divergedAt - n) (by omega) (by omega)
      rw [hn] at hi
      exact hi (by omega) hanswers
    · exact hdown _ _ (by omega) hbase
  · intro hall i hi _ hne hanswers
    exact hall _ (by omega) (by omega) hanswers

theorem findReorgSafePoint_le : findReorgSafePoint accessible divergedAt ≤ divergedAt := by
  have hle : ∀ left depth, walkBack accessible divergedAt left depth ≤ divergedAt := by
    intro left
    induction left with
    | zero => exact fun _ => Nat.sub_le ..
    | succ left ih =>
      intro depth
      rw [walkBack]
      split
      · exact Nat.zero_le _
      · split
        · exact Nat.sub_le ..
        · exact ih (depth + 1)
  exact hle ..

end Walk

/-- Up to ledger `n` the chain the database was built from is the chain of the network. -/
def Common (built network : Nat → LedgerHash) (n : Nat) : Prop :=
  ∀ m, 0 < m → m ≤ n → built m = network m

/-- **When the safe point is safe.** For a fork of bounded depth, the safe point lies on the common
chain and the rollback to it leaves no event of an abandoned ledger, if and only if no abandoned ledger
below answers, the column the rollback names exists and `SyncState` has its row. -/
theorem safePoint_common_iff (built network : Nat → LedgerHash) (accessible : Nat → Bool)
    (divergedAt : Nat) (hdepth : Common built network (divergedAt - maxReorgDepth))
    (hint : isInt divergedAt = true) (scope : Scope) (store : Store) :
    (Common built network (findReorgSafePoint accessible divergedAt) ∧
      ∃ store', transaction (revertLedgers scope (findReorgSafePoint accessible divergedAt)) store =
          .ok ((), store') ∧ ∀ row ∈ store'.db.events, Common built network row.ledgerSequence) ↔
    (∀ n, 0 < n → n < divergedAt → accessible n = true → Common built network n) ∧
      scope .priceHistoryLedgerSequence = true ∧ store.syncState.isSome = true := by
  have hdown : ∀ m n, m ≤ n → Common built network n → Common built network m :=
    fun m n hle hn k hpos hk => hn k hpos (hk.trans hle)
  have hfits : isInt (findReorgSafePoint accessible divergedAt) = true :=
    decide_eq_true (findReorgSafePoint_le.trans_lt (of_decide_eq_true hint))
  rw [findReorgSafePoint_iff hdown hdepth]
  constructor
  · rintro ⟨hsafe, store', hrevert, -⟩
    obtain ⟨⟨hscope, hsync, -⟩, -⟩ := transaction_revertLedgers.mp hrevert
    exact ⟨hsafe, hscope, hsync⟩
  · rintro ⟨hsafe, hscope, hsync⟩
    refine ⟨hsafe, _, transaction_revertLedgers.mpr ⟨⟨hscope, hsync, hfits⟩, rfl⟩, fun row hrow => ?_⟩
    have hle : row.ledgerSequence ≤ findReorgSafePoint accessible divergedAt :=
      of_decide_eq_true (List.mem_filter.mp hrow).2
    exact hdown _ _ hle ((findReorgSafePoint_iff hdown hdepth).mpr hsafe)

/-- A chain that leaves the chain of the numbers at ledger 8. -/
def forkedAtEight (n : Nat) : LedgerHash := if n < 8 then ⟨n⟩ else ⟨n + 100⟩

/-- The log holds one event of ledger 9, and `SyncState` stands at ledger 10. -/
def syncedAtTen : Store := { beforeNine [listedInNine] with syncState := some (.jump 10) }

theorem common_seven : Common LedgerHash.mk forkedAtEight 7 := by
  intro m _ hm
  rw [forkedAtEight, if_pos (Nat.lt_succ_of_le hm)]

theorem common_base : Common LedgerHash.mk forkedAtEight (10 - maxReorgDepth) :=
  fun m hpos hm => common_seven m hpos (hm.trans (by decide))

/-- A network that answers for the common ledgers only. -/
theorem safePoint_common_of_silence :
    Common LedgerHash.mk forkedAtEight (findReorgSafePoint (fun n => decide (n ≤ 7)) 10) ∧
      ∃ store', transaction (revertLedgers (fun _ => true)
          (findReorgSafePoint (fun n => decide (n ≤ 7)) 10)) syncedAtTen = .ok ((), store') ∧
        ∀ row ∈ store'.db.events, Common LedgerHash.mk forkedAtEight row.ledgerSequence := by
  refine (safePoint_common_iff LedgerHash.mk forkedAtEight (fun n => decide (n ≤ 7)) 10
    common_base (by decide) (fun _ => true) syncedAtTen).mpr ⟨?_, rfl, rfl⟩
  intro n _ _ hn m hpos hm
  exact common_seven m hpos (hm.trans (of_decide_eq_true hn))

/-- A fork three ledgers deep on a network that answers: the rollback goes to ledger 9, which has been
abandoned, and the event of ledger 9 stays. -/
theorem abandoned_event_survives_rollback :
    Common LedgerHash.mk forkedAtEight (10 - maxReorgDepth) ∧
      ¬ Common LedgerHash.mk forkedAtEight (findReorgSafePoint (fun _ => true) 10) ∧
      ∃ store', transaction (revertLedgers (fun _ => true) (findReorgSafePoint (fun _ => true) 10))
          syncedAtTen = .ok ((), store') ∧
        ∃ row ∈ store'.db.events, ¬ Common LedgerHash.mk forkedAtEight row.ledgerSequence := by
  have hnine : ¬ Common LedgerHash.mk forkedAtEight 9 := fun h =>
    absurd (h 9 (by decide) (by decide)) (by decide)
  refine ⟨common_base, hnine, _,
    transaction_revertLedgers.mpr ⟨⟨rfl, rfl, by decide⟩, rfl⟩, listedInNine.row, ?_, hnine⟩
  exact List.mem_filter.mpr ⟨List.mem_singleton.mpr rfl, by decide⟩

end ElcareHub.Indexer
