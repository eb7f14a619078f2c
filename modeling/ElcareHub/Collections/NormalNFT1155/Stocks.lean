import ElcareHub.Collections.NormalNFT1155
import ElcareHub.Lib.Batch
import ElcareHub.Lib.Tally

/-!
# What an invocation can do to the stocks

`Stocks` is the part of the state that says how many units of each token there are, who has them, who
has had them minted, and what the creator allows. `Stocks.Move` are the moves an invocation makes on
it, indexed by the invocation, so that a move says what has been asked for and what has been checked.
Units are minted one item after the other (`Stocks.Issued`), and moved likewise (`Stocks.Shifted`);
between two items nothing else happens.

`op_moves` shows that every invocation that returns makes its move. What the caps, the numbering of
tokens and the conservation of units say is shown from the moves, and the entry points are not
unfolded again.
-/

namespace ElcareHub.NormalNFT1155

open Collection Call

variable {items : List (Nat × Nat)} {t t' : Stocks}

/-! ### Stocks -/

structure Stocks where
  initialized : Bool
  /-- a creator is in office -/
  governed : Bool
  nextTokenId : Nat
  perWalletLimit : Nat
  maxTokenSupply : Nat → Option Nat
  balance : Address × Nat → Nat
  totalSupply : Nat → Nat
  walletMinted : Address × Nat → Nat

abbrev State.stocks (s : State) : Stocks where
  initialized := s.base.initialized
  governed := s.base.creator.isSome
  nextTokenId := s.nextTokenId
  perWalletLimit := s.perWalletLimit
  maxTokenSupply := s.maxTokenSupply
  balance := s.balance
  totalSupply := s.totalSupply
  walletMinted := s.walletMinted

namespace Stocks

def setBalance (t : Stocks) (a : Address) (i n : Nat) : Stocks :=
  { t with balance := Function.update t.balance (a, i) n }

def setSupply (t : Stocks) (i n : Nat) : Stocks :=
  { t with totalSupply := Function.update t.totalSupply i n }

def addBalance (t : Stocks) (a : Address) (i n : Nat) : Stocks :=
  t.setBalance a i (t.balance (a, i) + n)

def addSupply (t : Stocks) (i n : Nat) : Stocks := t.setSupply i (t.totalSupply i + n)

def addMinted (t : Stocks) (a : Address) (i n : Nat) : Stocks :=
  { t with walletMinted := Function.update t.walletMinted (a, i) (t.walletMinted (a, i) + n) }

def setNext (t : Stocks) (n : Nat) : Stocks := { t with nextTokenId := n }

/-- `n` units of token `i` are minted to `a`. -/
def issue (t : Stocks) (a : Address) (i n : Nat) : Stocks :=
  ((t.addBalance a i n).addSupply i n).addMinted a i n

/-- `n` units of token `i` go from `src` to `dst`. -/
def shift (t : Stocks) (src dst : Address) (i n : Nat) : Stocks :=
  (t.setBalance src i (t.balance (src, i) - n)).addBalance dst i n

def burn (t : Stocks) (a : Address) (i n : Nat) : Stocks :=
  (t.setBalance a i (t.balance (a, i) - n)).setSupply i (t.totalSupply i - n)

theorem issue_zero (t : Stocks) (a : Address) (i : Nat) : t.issue a i 0 = t := by
  simp [issue, addBalance, setBalance, addSupply, setSupply, addMinted]

/-- What `_check_supply_cap` asks. -/
def Room (t : Stocks) (i n : Nat) : Prop :=
  ∀ max, t.maxTokenSupply i = some max → 0 < max → saturatingAddU128 (t.totalSupply i) n ≤ max

/-- What `_check_wallet_limit` asks. -/
def Allows (t : Stocks) (a : Address) (i n : Nat) : Prop :=
  0 < t.perWalletLimit → saturatingAddU128 (t.walletMinted (a, i)) n ≤ t.perWalletLimit

/-- The items, tokens with their amounts, are minted to `a` one after the other; no counter that is
written overflows. -/
def Issued (a : Address) : List (Nat × Nat) → Stocks → Stocks → Prop
  | [], t, t' => t = t'
  | (i, n) :: items, t, t' =>
    t.totalSupply i + n ≤ u128Max ∧ (0 < n → t.walletMinted (a, i) + n ≤ u128Max) ∧
      Issued a items (t.issue a i n) t'

/-- The items go from `src` to `dst` one after the other. -/
def Shifted (src dst : Address) : List (Nat × Nat) → Stocks → Stocks → Prop
  | [], t, t' => t = t'
  | (i, n) :: items, t, t' =>
    n ≤ t.balance (src, i) ∧ Shifted src dst items (t.shift src dst i n) t'

/-- How many units of token `i` the items ask for together. -/
def asked (items : List (Nat × Nat)) (i : Nat) : Nat :=
  Tally.tally (fun item => decide (item.1 = i)) Prod.snd items

@[simp]
theorem asked_nil (i : Nat) : asked [] i = 0 := rfl

theorem asked_cons (k n : Nat) (items : List (Nat × Nat)) (i : Nat) :
    asked ((k, n) :: items) i = (if k = i then n else 0) + asked items i := by
  simp [asked, Tally.tally_cons]

theorem asked_eq_zero (h : i ∉ items.map Prod.fst) : asked items i = 0 := by
  refine Tally.tally_eq_zero fun item hitem => decide_eq_false ?_
  rintro rfl
  exact h (List.mem_map_of_mem hitem)

/-- The next id after the ids of a batch: above all of them, and never lower than before. -/
def numbered (next : Nat) (ids : List Nat) : Nat :=
  ids.foldl (fun next i => if i ≥ next then i + 1 else next) next

/-- Minting units numbers no token. -/
theorem Issued.next (h : Issued a items t t') : t'.nextTokenId = t.nextTokenId := by
  induction items generalizing t with
  | nil => exact congrArg nextTokenId (Eq.symm h)
  | cons item items ih => exact (ih h.2.2).trans rfl

/-- Minting units leaves the creator where it is. -/
theorem Issued.standing (h : Issued a items t t') :
    t'.governed = t.governed ∧ t'.initialized = t.initialized := by
  induction items generalizing t with
  | nil =>
    rw [← show t = t' from h]
    exact ⟨rfl, rfl⟩
  | cons item items ih =>
    obtain ⟨hgoverned, hinitialized⟩ := ih h.2.2
    exact ⟨hgoverned, hinitialized⟩

/-- A transfer writes balances only. -/
theorem Shifted.eq (h : Shifted src dst items t t') :
    t' = { t with balance := t'.balance } := by
  induction items generalizing t with
  | nil => rw [← show t = t' from h]
  | cons item items ih => exact (ih h.2).trans rfl

end Stocks

/-- What an invocation transfers: source, destination and items. -/
def Op.transfers : Op → Option (Address × Address × List (Nat × Nat))
  | .transfer src dst i n => some (src, dst, [(i, n)])
  | .transferFrom _ src dst i n => some (src, dst, [(i, n)])
  | .batchTransfer _ src dst is ns => some (src, dst, is.zip ns)
  | _ => none

/-- An invocation that leaves the stocks alone. -/
def Op.idle : Op → Bool
  | .pause | .unpause | .setBaseUri _ | .freezeMetadata | .freezeToken .. | .setTokenUri ..
  | .updateRoyalty .. | .setDefaultRoyalty .. | .setTokenRoyalty .. | .setApprovalForAll ..
  | .transferOwnership _ | .proposeCreator .. | .acceptCreator _ | .cancelCreatorProposal
  | .migrate => true
  | _ => false

/-- What an invocation does to the stocks when it returns. -/
inductive Stocks.Move (t : Stocks) : Op → Stocks → Prop
  | idle {op : Op} (hop : op.idle = true) : Move t op t
  | setUp {c : Address} {name : String} {bps : Nat} {r : Address} (hfresh : t.initialized = false) :
      Move t (.initializeCollection c name bps r)
        { t with initialized := true, governed := true, nextTokenId := 0 }
  | setCap (i max : Nat) :
      Move t (.setTokenMaxSupply i max)
        { t with
          maxTokenSupply :=
            Function.update t.maxTokenSupply i (if max = 0 then none else some max) }
  | setLimit (limit : Nat) : Move t (.setPerWalletLimit limit) { t with perWalletLimit := limit }
  | mintNew {a : Address} {n : Nat} {uri : String} {t' : Stocks} (hgoverned : t.governed = true)
      (hallows : 0 < n → t.Allows a t.nextTokenId n)
      (hissued : Issued a [(t.nextTokenId, n)] t t') :
      Move t (.mintNew a n uri) (t'.setNext (t.nextTokenId + 1))
  | mint {a : Address} {i n : Nat} {uri : String} {t' : Stocks} (hgoverned : t.governed = true)
      (hpositive : 0 < n) (hroom : t.Room i n) (hallows : t.Allows a i n) (hissued : Issued a [(i, n)] t t') :
      Move t (.mint a i n uri) t'
  | mintBatch {a : Address} {is ns : List Nat} {uris : List String} {t' : Stocks}
      (hgoverned : t.governed = true) (hlength : is.length = ns.length)
      (hpositive : ∀ item ∈ is.zip ns, 0 < item.2)
      (hroom : ∀ i ∈ is, t.Room i (asked (is.zip ns) i))
      (hallows : ∀ i ∈ is, t.Allows a i (asked (is.zip ns) i))
      (hissued : Issued a (is.zip ns) t t') :
      Move t (.mintBatch a is ns uris) (t'.setNext (numbered t.nextTokenId is))
  | transfer {op : Op} {src dst : Address} {items : List (Nat × Nat)} {t' : Stocks}
      (hop : op.transfers = some (src, dst, items)) (hshifted : Shifted src dst items t t') :
      Move t op t'
  | burn {spender src : Address} {i n : Nat} (henough : n ≤ t.balance (src, i)) :
      Move t (.burn spender src i n) (t.burn src i n)

/-! ### Calls that leave the stocks alone -/

end ElcareHub.NormalNFT1155

namespace ElcareHub.Collection

open Call

/-- Whether the contract is set up, and whether a creator is in office. -/
abbrev Base.standing (b : Base) : Bool × Bool := (b.initialized, b.creator.isSome)

section Standing

variable {ε : Type} {env : Env} {err : Errors ε}

/-- The creator hands over to somebody: the seat stays taken. -/
instance (c : Address) : Preserves Base.standing (transferOwnership env err c) where
  eq h := by
    obtain ⟨⟨current, hcurrent, -⟩, rfl⟩ := returns_transferOwnership.mp h
    simp [hcurrent]

instance (c : Address) : Preserves Base.standing (acceptCreator env err c) where
  eq h := by
    obtain ⟨-, -, -, current, hcurrent, rfl⟩ := returns_acceptCreator h
    simp [hcurrent]

end Standing

end ElcareHub.Collection

namespace ElcareHub.NormalNFT1155

open Collection Call

set_option synthInstance.maxSize 100000000

variable {items totals : List (Nat × Nat)}
variable {op : Op} {next m : Nat} {checked : List (Nat × Nat)} {c : Address} {is ns : List Nat}

section Frames

variable {env : Env}

instance (c : Call (Fault Error) Base α) [Preserves Base.standing c] :
    Preserves State.stocks (onBase c) :=
  .zoom Base.standing fun s b hstanding => by
    simp only [Base.standing, Prod.mk.injEq] at hstanding
    simp [State.stocks, hstanding]

theorem op_idle (hop : op.idle = true) : Preserves State.stocks (op.exec env) := by
  -- the frame of an idle entry point is found by inference, and no other one is idle
  cases op <;> first | cases hop; done | (unfold Op.exec; infer_instance)

end Frames

/-! ### The parts of the entry points -/

section Parts

variable {env : Env} {s s' : State} {u : Unit} {a src dst : Address} {i n : Nat}

theorem returns_checkSupplyCap :
    Returns (checkSupplyCap i n) s u s' ↔ s.stocks.Room i n ∧ s = s' := by
  unfold Stocks.Room
  rw [returns_view_bind, returns_view_bind, returns_onSome]
  cases hmax : s.maxTokenSupply i <;> simp [hmax]

theorem returns_checkWalletLimit :
    Returns (checkWalletLimit a i n) s u s' ↔ s.stocks.Allows a i n ∧ s = s' := by
  unfold Stocks.Allows
  rw [returns_view_bind, returns_view_bind]
  simp

theorem transferUnits_stocks (h : Returns (transferUnits src dst i n) s u s') :
    n ≤ s.balance (src, i) ∧ s'.stocks = s.stocks.shift src dst i n := by
  simp [addUpTo] at h
  obtain ⟨henough, -, rfl⟩ := h
  exact ⟨henough, rfl⟩

/-- What is done for an item of a batch. -/
def mintItem (a : Address) (item : BatchItem) : Tx Unit := do
  setFirstUri item.tokenId item.uri
  addBalance a item.tokenId item.amount
  addSupply item.tokenId item.amount
  updateWalletMinted a item.tokenId item.amount
  emitMint a item.tokenId item.amount

/-- The loop of `batch_transfer`; an amount of zero is refused. -/
theorem each_transferUnits_stocks (h : Returns (each (fun item : Nat × Nat => do
      failIf (item.2 = 0) .zeroAmount
      transferUnits src dst item.1 item.2) items) s u s') :
    Stocks.Shifted src dst items s.stocks s'.stocks := by
  refine h.each_induction
    (R := fun items (s s' : State) => Stocks.Shifted src dst items s.stocks s'.stocks)
    (fun _ => rfl) ?_
  intro item items s s1 s2 hitem hrest
  obtain ⟨-, hitem⟩ := hitem.check
  obtain ⟨henough, hshift⟩ := transferUnits_stocks hitem
  rw [hshift] at hrest
  exact ⟨henough, hrest⟩

theorem mintItem_stocks (h : Returns (mintItem a item) s u s') :
    s.totalSupply item.tokenId + item.amount ≤ u128Max ∧
      s.walletMinted (a, item.tokenId) + item.amount ≤ u128Max ∧
      s'.stocks = s.stocks.issue a item.tokenId item.amount := by
  cases huri : s.tokenUri item.tokenId <;> simp [mintItem, addUpTo, huri] at h <;>
    obtain ⟨-, hsupply, hminted, c, -, rfl⟩ := h <;> exact ⟨hsupply, hminted, rfl⟩

/-- Minting items one after the other, when no check is asked for. -/
theorem each_mintItem_stocks {items : List BatchItem} (h : Returns (each (mintItem a) items) s u s') :
    Stocks.Issued a (items.map fun item => (item.tokenId, item.amount)) s.stocks s'.stocks := by
  refine h.each_induction (R := fun items (s s' : State) =>
    Stocks.Issued a (items.map fun item => (item.tokenId, item.amount)) s.stocks s'.stocks)
    (fun _ => rfl) ?_
  intro item items s s1 s2 hitem hrest
  obtain ⟨hsupply, hminted, e⟩ := mintItem_stocks hitem
  rw [e] at hrest
  exact ⟨hsupply, fun _ => hminted, hrest⟩

/-- One round of the last loop of `mint_batch`, with the counter it goes on with. -/
theorem returns_mintItems_cons {items : List BatchItem} :
    Returns (mintItems a next (item :: items)) s m s' ↔
      (item.tokenId ≥ next → item.tokenId + 1 ≤ u64Max) ∧
      ∃ s1, Returns (mintItem a item) s () s1 ∧
        Returns (mintItems a (if item.tokenId ≥ next then item.tokenId + 1 else next) items)
          s1 m s' := by
  rw [mintItems, mintItem]
  by_cases hge : item.tokenId ≥ next
  · simp only [hge, if_true, returns_addUpTo_bind, returns_seq, true_imp_iff]
    grind
  · simp only [hge, if_false, returns_bind, returns_pure, false_imp_iff]
    grind

/-- The last loop of `mint_batch`. -/
theorem returns_mintItems {items : List BatchItem}
    (h : Returns (mintItems a next items) s m s') : Returns (each (mintItem a) items) s () s' ∧
      m = Stocks.numbered next (items.map BatchItem.tokenId) := by
  induction items generalizing next s with
  | nil =>
    obtain ⟨rfl, rfl⟩ := h.pure
    exact ⟨returns_each_nil.mpr rfl, rfl⟩
  | cons item items ih =>
    obtain ⟨-, s1, hitem, h⟩ := returns_mintItems_cons.mp h
    obtain ⟨hrest, hm⟩ := ih h
    exact ⟨returns_each_cons.mpr ⟨s1, hitem, hrest⟩, hm⟩

theorem keys_addChecked (k amount : Nat) (checked : List (Nat × Nat)) :
    (addChecked k amount checked).map Prod.fst =
      if k ∈ checked.map Prod.fst then checked.map Prod.fst else checked.map Prod.fst ++ [k] := by
  induction checked with
  | nil => simp [addChecked]
  | cons entry checked ih =>
    by_cases hk : entry.1 = k
    · simp [addChecked, hk]
    · simp only [addChecked, if_neg hk, List.map_cons, ih, List.mem_cons, Ne.symm hk, false_or]
      split <;> rfl

/-- Entering an amount adds to what is asked, up to saturation. -/
theorem asked_addChecked (k amount : Nat) (checked : List (Nat × Nat)) (i : Nat) :
    min (Stocks.asked (addChecked k amount checked) i) u128Max =
      min (Stocks.asked checked i + if k = i then amount else 0) u128Max := by
  induction checked with
  | nil => simp [addChecked, Stocks.asked_cons]
  | cons entry checked ih =>
    obtain ⟨j, total⟩ := entry
    rw [addChecked, Stocks.asked_cons]
    by_cases hj : j = k
    · rw [if_pos hj, Stocks.asked_cons, saturatingAddU128, hj]
      split <;> omega
    · rw [if_neg hj, Stocks.asked_cons]
      omega

theorem asked_of_nodup (hnodup : (items.map Prod.fst).Nodup) (h : entry ∈ items) :
    Stocks.asked items entry.1 = entry.2 := by
  induction items with
  | nil => cases h
  | cons item items ih =>
    obtain ⟨j, total⟩ := item
    obtain ⟨hnew, hnodup⟩ := List.nodup_cons.mp hnodup
    rw [Stocks.asked_cons]
    obtain rfl | hmem := List.mem_cons.mp h
    · rw [if_pos rfl, Stocks.asked_eq_zero hnew, Nat.add_zero]
    · have hne : j ≠ entry.1 := by
        rintro rfl
        exact hnew (List.mem_map.mpr ⟨entry, hmem, rfl⟩)
      rw [if_neg hne, ih hnodup hmem, Nat.zero_add]

/-- The totals of the first loop of `mint_batch`. -/
def totalsOf (checked items : List (Nat × Nat)) : List (Nat × Nat) :=
  items.foldl (fun checked item => addChecked item.1 item.2 checked) checked

theorem returns_batchTotals : Returns (batchTotals checked items) s totals s' ↔
      (∀ item ∈ items, 0 < item.2) ∧ totalsOf checked items = totals ∧ s = s' := by
  induction items generalizing checked with
  | nil => simp [batchTotals, totalsOf]
  | cons item items ih =>
    rw [batchTotals, returns_abortIf_bind, ih, List.forall_mem_cons, Nat.pos_iff_ne_zero, and_assoc]
    rfl

/-- There is one total for every token of the batch, what is asked of it up to saturation. -/
theorem totalsOf_spec (items : List (Nat × Nat)) : ((totalsOf [] items).map Prod.fst).Nodup ∧
      (∀ i, i ∈ (totalsOf [] items).map Prod.fst ↔ i ∈ items.map Prod.fst) ∧
      ∀ i, min (Stocks.asked (totalsOf [] items) i) u128Max = min (Stocks.asked items i) u128Max := by
  induction items using List.reverseRecOn with
  | nil => simp [totalsOf]
  | append_singleton items item ih =>
    obtain ⟨hnodup, hkeys, hasked⟩ := ih
    have hstep : totalsOf [] (items ++ [item]) = addChecked item.1 item.2 (totalsOf [] items) := by
      simp [totalsOf]
    rw [hstep, keys_addChecked]
    refine ⟨?_, fun i => ?_, fun i => ?_⟩
    · split
      · exact hnodup
      · rename_i hnew
        refine List.nodup_append.mpr ⟨hnodup, by simp, fun i hi j hj => ?_⟩
        rintro rfl
        exact hnew (List.mem_singleton.mp hj ▸ hi)
    · split <;> simp_all
    · have hone : Stocks.asked (items ++ [item]) i =
          Stocks.asked items i + if item.1 = i then item.2 else 0 := by
        simp [Stocks.asked, Tally.tally_append, Tally.tally_cons]
      have hi := hasked i
      rw [asked_addChecked]
      omega

/-- The checks of a saturated total ask no more than those of the amount. -/
theorem saturatingAdd_le (h : min x u128Max ≤ y) : saturatingAddU128 k x ≤ saturatingAddU128 k y := by
  unfold saturatingAddU128
  omega

theorem passes_mono {t : Stocks} (h : t.Room i y ∧ t.Allows a i y)
    (hle : min x u128Max ≤ y) : t.Room i x ∧ t.Allows a i x :=
  ⟨fun max hmax hpos => (saturatingAdd_le hle).trans (h.1 max hmax hpos),
    fun hpos => (saturatingAdd_le hle).trans (h.2 hpos)⟩

/-- The first two loops of `mint_batch` check what is asked of every token together. -/
theorem returns_checkTotals :
    Returns (do
      let totals ← batchTotals [] items
      each (fun total : Nat × Nat => do
        checkSupplyCap total.1 total.2
        checkWalletLimit a total.1 total.2) totals
      k) s b s' ↔
    (∀ item ∈ items, 0 < item.2) ∧ (∀ item ∈ items, s.stocks.Room item.1 (Stocks.asked items item.1) ∧
        s.stocks.Allows a item.1 (Stocks.asked items item.1)) ∧ Returns k s b s' := by
  have hchecks (totals : List (Nat × Nat)) (u : Unit) (s1 : State) : Returns (each (fun total => do
      checkSupplyCap total.1 total.2
      checkWalletLimit a total.1 total.2) totals) s u s1 ↔ _ := returns_each_check
    (fun total s => s.stocks.Room total.1 total.2 ∧ s.stocks.Allows a total.1 total.2)
    fun total s u s' => by
      rw [returns_check fun _ _ => returns_checkSupplyCap, returns_checkWalletLimit, and_assoc]
  obtain ⟨hnodup, hkeys, hasked⟩ := totalsOf_spec items
  constructor
  · intro h
    obtain ⟨totals, s1, htotals, h⟩ := h.bind
    obtain ⟨hpositive, rfl, rfl⟩ := returns_batchTotals.mp htotals
    obtain ⟨s1, hloop, h⟩ := h.seq
    obtain ⟨hpass, rfl⟩ := (hchecks ..).mp hloop
    refine ⟨hpositive, fun item hitem => ?_, h⟩
    obtain ⟨total, htotal, hfst⟩ := List.mem_map.mp ((hkeys item.1).mpr (List.mem_map_of_mem hitem))
    have hsum := hasked item.1
    rw [← hfst, asked_of_nodup hnodup htotal] at hsum
    rw [← hfst]
    exact passes_mono (hpass total htotal) (by omega)
  · rintro ⟨hpositive, hpass, h⟩
    refine returns_bind.mpr ⟨_, s, returns_batchTotals.mpr ⟨hpositive, rfl, rfl⟩,
      returns_seq.mpr ⟨s, (hchecks ..).mpr ⟨fun total htotal => ?_, rfl⟩, h⟩⟩
    obtain ⟨item, hitem, hfst⟩ := List.mem_map.mp ((hkeys total.1).mp (List.mem_map_of_mem htotal))
    have hsum := hasked total.1
    rw [asked_of_nodup hnodup htotal, ← hfst] at hsum
    rw [← hfst]
    exact passes_mono (hpass item hitem) (by omega)

end Parts

/-! ### Entry points -/

section Ops

variable {env : Env} {s s' : State} {u : Unit} {a src dst spender : Address} {i n : Nat}
  {uri : String}

theorem returns_onlyCreator (h : Returns (onlyCreator env) s c s') :
    s.stocks.governed = true ∧ s = s' := by
  obtain ⟨b, hcreator, rfl⟩ := h.zoom
  obtain ⟨hc, -, rfl⟩ := Collection.returns_onlyCreator.mp hcreator
  exact ⟨by simp [hc], rfl⟩

/-- The creator has signed, and the contract is not paused. -/
def Guarded (env : Env) (s : State) : Prop :=
  (∃ c, s.base.creator = some c ∧ env.auth c = true) ∧ s.paused = false

theorem Guarded.governed (h : Guarded env s) : s.stocks.governed = true := by
  obtain ⟨⟨c, hc, -⟩, -⟩ := h
  simp [hc]

theorem returns_guarded :
    Returns (do
      let _ ← onlyCreator env
      requireNotPaused
      k) s b s' ↔ Guarded env s ∧ Returns k s b s' := by
  rw [Guarded, and_assoc]
  simp [Collection.returns_onlyCreator]

theorem initializeCollection_move (h : Returns (initializeCollection c name bps r) s u s') :
    s.stocks.Move (.initializeCollection c name bps r) s'.stocks := by
  simp only [returns_bind, returns_abortIf, returns_update] at h
  obtain ⟨init, s1, ⟨rfl, rfl⟩, -, s2, ⟨hfresh, rfl⟩, -, s3, ⟨-, rfl⟩, -, s4,
    ⟨-, s5, ⟨-, rfl⟩, -, rfl⟩, -, s6, ⟨-, rfl⟩, -, s7, ⟨b, rfl, rfl⟩, rfl⟩ := h
  exact .setUp (by simpa using hfresh)

theorem setTokenMaxSupply_move {max : Nat} (h : Returns (setTokenMaxSupply env i max) s u s') :
    s.stocks.Move (.setTokenMaxSupply i max) s'.stocks := by
  obtain ⟨c, s1, hcreator, h⟩ := h.bind
  obtain ⟨-, rfl⟩ := returns_onlyCreator hcreator
  rw [← h.update]
  exact .setCap i max

theorem setPerWalletLimit_move (h : Returns (setPerWalletLimit env limit) s u s') :
    s.stocks.Move (.setPerWalletLimit limit) s'.stocks := by
  obtain ⟨c, s1, hcreator, h⟩ := h.bind
  obtain ⟨-, rfl⟩ := returns_onlyCreator hcreator
  rw [← h.update]
  exact .setLimit limit

/-- `mint` writes what is written for an item of a batch, in another order. -/
theorem returns_mintUnits_count :
    Returns (do
      mintUnits a i n uri
      updateWalletMinted a i n) s u s' ↔ Returns (mintItem a ⟨i, n, uri⟩) s u s' := by
  cases huri : s.tokenUri i <;> simp [mintItem, addUpTo, huri] <;> tauto

/-- A mint of its own: the units go to the wallet and are counted for it. For no units at all the
count is not written, which comes to the same. -/
theorem issued_of_mint (hmint : Returns (mintUnits a i n uri) s u s1)
    (hcount : Returns (when (n > 0) (updateWalletMinted a i n)) s1 u s2) :
    Stocks.Issued a [(i, n)] s.stocks s2.stocks := by
  obtain ⟨-, hcount⟩ | ⟨hzero, rfl⟩ := hcount.when
  · obtain ⟨hsupply, hminted, e⟩ :=
      mintItem_stocks (returns_mintUnits_count.mp (returns_seq.mpr ⟨s1, hmint, hcount⟩))
    exact ⟨hsupply, fun _ => hminted, e.symm⟩
  · obtain rfl : n = 0 := by omega
    cases huri : s.tokenUri i <;> simp [addUpTo, huri] at hmint <;>
      obtain ⟨-, hsupply, c, -, rfl⟩ := hmint <;>
      exact ⟨hsupply, fun hpos => absurd hpos (Nat.lt_irrefl 0), Stocks.issue_zero ..⟩

theorem mintNew_move (h : Returns (mintNew env a n uri) s j s') :
    s.nextTokenId = j ∧ s.stocks.Move (.mintNew a n uri) s'.stocks := by
  obtain ⟨hguarded, h⟩ := returns_guarded.mp h
  obtain ⟨_, h⟩ := h.pass
  obtain ⟨s1, hlimit, h⟩ := h.seq
  obtain ⟨hallows, rfl⟩ : (0 < n → s.stocks.Allows a s.nextTokenId n) ∧ s = s1 := by
    obtain ⟨-, hlimit⟩ | ⟨hzero, rfl⟩ := hlimit.when
    · obtain ⟨hallows, rfl⟩ := returns_checkWalletLimit.mp hlimit
      exact ⟨fun _ => hallows, rfl⟩
    · exact ⟨fun hpos => absurd hpos hzero, rfl⟩
  obtain ⟨s1, hmint, h⟩ := h.seq
  obtain ⟨s2, hcount, h⟩ := h.seq
  obtain ⟨-, h⟩ := returns_addUpTo_bind.mp h
  obtain ⟨s3, hset, h⟩ := h.seq
  obtain ⟨rfl, rfl⟩ := h.pure
  refine ⟨rfl, ?_⟩
  rw [← hset.update]
  exact .mintNew hguarded.governed hallows (issued_of_mint hmint hcount)

theorem returns_mint : Returns (mint env a i n uri) s u s' ↔
      Guarded env s ∧ 0 < n ∧ s.stocks.Room i n ∧ s.stocks.Allows a i n ∧
        Returns (mintItem a ⟨i, n, uri⟩) s u s' := by
  rw [mint, returns_guarded, returns_abortIf_bind, returns_check fun _ _ => returns_checkSupplyCap,
    returns_check fun _ _ => returns_checkWalletLimit, returns_mintUnits_count, Nat.pos_iff_ne_zero]

theorem mint_move (h : Returns (mint env a i n uri) s u s') :
    s.stocks.Move (.mint a i n uri) s'.stocks := by
  obtain ⟨hguarded, hpositive, hroom, hallows, h⟩ := returns_mint.mp h
  obtain ⟨hsupply, hminted, e⟩ := mintItem_stocks h
  exact .mint hguarded.governed hpositive hroom hallows ⟨hsupply, fun _ => hminted, e.symm⟩

theorem numbered_ge (next : Nat) (ids : List Nat) : next ≤ Stocks.numbered next ids := by
  induction ids generalizing next with
  | nil => exact Nat.le_refl next
  | cons i ids ih =>
    refine Nat.le_trans ?_ (ih _)
    dsimp only
    split <;> omega

/-- The counter after the batch is written only when it has moved. -/
theorem returns_numbering (hnext : s1.nextTokenId = next) :
    Returns (when (Stocks.numbered next ids > next)
      (setNextTokenId (Stocks.numbered next ids))) s1 u s' ↔
      s' = { s1 with nextTokenId := Stocks.numbered next ids } := by
  subst hnext
  rw [eq_comm]
  by_cases hmoved : Stocks.numbered s1.nextTokenId ids > s1.nextTokenId
  · simp [hmoved]
  · have hge := numbered_ge s1.nextTokenId ids
    simp [show Stocks.numbered s1.nextTokenId ids = s1.nextTokenId by omega]

/-- What `mint_batch` asks of the lists it is given. -/
structure WellFormed (is ns : List Nat) (uris : List String) : Prop where
  nonempty : is.length ≠ 0
  short : is.length ≤ maxBatchSize
  amounts : is.length = ns.length
  named : is.length = uris.length
  uris : ∀ uri ∈ uris, uri.utf8ByteSize ≠ 0 ∧ uri.utf8ByteSize ≤ maxUriLen

/-- `mint_batch`, up to the last loop. -/
theorem returns_mintBatch :
    Returns (mintBatch env a is ns uris) s u s' ↔
      Guarded env s ∧ WellFormed is ns uris ∧ (∀ item ∈ is.zip ns, 0 < item.2) ∧
      (∀ item ∈ is.zip ns, s.stocks.Room item.1 (Stocks.asked (is.zip ns) item.1) ∧
        s.stocks.Allows a item.1 (Stocks.asked (is.zip ns) item.1)) ∧
      ∃ m s1, Returns (mintItems a s.nextTokenId
          (((is.zip ns).zip uris).map fun item => ⟨item.1.1, item.1.2, item.2⟩)) s m s1 ∧
        Returns (when (m > s.nextTokenId) (setNextTokenId m)) s1 u s' := by
  have huris (u : Unit) (s1 : State) : Returns (each validateUri uris) s u s1 ↔ _ :=
    returns_each_check (fun uri _ => uri.utf8ByteSize ≠ 0 ∧ uri.utf8ByteSize ≤ maxUriLen)
    fun uri s u s' => by simp [and_assoc]
  rw [mintBatch, returns_guarded, returns_abortIf_bind, returns_abortIf_bind, returns_abortIf_bind,
    returns_check huris, returns_checkTotals, returns_view_bind, returns_bind]
  constructor
  · rintro ⟨hguarded, hne, hlen, hlengths, huris, h⟩
    obtain ⟨hamounts, hnamed⟩ := not_or.mp hlengths
    exact ⟨hguarded, ⟨hne, not_lt.mp hlen, not_not.mp hamounts, not_not.mp hnamed, huris⟩, h⟩
  · rintro ⟨hguarded, hformed, h⟩
    exact ⟨hguarded, hformed.nonempty, hformed.short.not_gt, not_or.mpr ⟨not_not.mpr hformed.amounts,
      not_not.mpr hformed.named⟩, hformed.uris, h⟩

theorem mintBatch_move (h : Returns (mintBatch env a is ns uris) s u s') :
    s.stocks.Move (.mintBatch a is ns uris) s'.stocks := by
  obtain ⟨hguarded, hformed, hpositive, hpass, m, s1, hitems, h⟩ := returns_mintBatch.mp h
  obtain ⟨heach, hm⟩ := returns_mintItems hitems
  have hissued := each_mintItem_stocks heach
  -- the items are the ids with their amounts
  have hfst : (is.zip ns).map Prod.fst = is := List.map_fst_zip hformed.amounts.le
  have hzip : ((is.zip ns).zip uris).map Prod.fst = is.zip ns :=
    List.map_fst_zip (by have := hformed.named; simp; omega)
  simp only [List.map_map] at hissued hm
  change Stocks.Issued a (((is.zip ns).zip uris).map Prod.fst) s.stocks s1.stocks at hissued
  change m = Stocks.numbered s.nextTokenId
    (((is.zip ns).zip uris).map (Prod.fst ∘ Prod.fst)) at hm
  rw [hzip] at hissued
  rw [← List.map_map, hzip, hfst] at hm
  subst hm
  rw [(returns_numbering hissued.next).mp h]
  have hasked (i : Nat) (hi : i ∈ is) : ∃ item ∈ is.zip ns, item.1 = i :=
    List.mem_map.mp (hfst.symm ▸ hi)
  refine .mintBatch hguarded.governed hformed.amounts hpositive (fun i hi => ?_) (fun i hi => ?_)
    hissued
  · obtain ⟨item, hitem, rfl⟩ := hasked i hi
    exact (hpass item hitem).1
  · obtain ⟨item, hitem, rfl⟩ := hasked i hi
    exact (hpass item hitem).2

theorem batchTransfer_move (h : Returns (batchTransfer env spender src dst is ns) s u s') :
    s.stocks.Move (.batchTransfer spender src dst is ns) s'.stocks := by
  obtain ⟨_, _, _, _, s4, e, h⟩ := h.skip₄ (f := id) rfl
  obtain ⟨_, _, s6, e, h⟩ := h.skip₂ e
  obtain rfl : s = s6 := e.symm
  exact .transfer rfl (each_transferUnits_stocks h)

theorem transfer_move (h : Returns (transfer env src dst i n) s u s') :
    s.stocks.Move (.transfer src dst i n) s'.stocks := by
  obtain ⟨_, h⟩ := h.pass
  obtain ⟨_, h⟩ := h.pass
  obtain ⟨henough, hshift⟩ := transferUnits_stocks h
  exact .transfer rfl ⟨henough, hshift.symm⟩

theorem transferFrom_move (h : Returns (transferFrom env spender src dst i n) s u s') :
    s.stocks.Move (.transferFrom spender src dst i n) s'.stocks := by
  obtain ⟨_, _, _, h⟩ := h.pass₃
  obtain ⟨henough, hshift⟩ := transferUnits_stocks h
  exact .transfer rfl ⟨henough, hshift.symm⟩

theorem burn_move (h : Returns (burn env spender src i n) s u s') :
    s.stocks.Move (.burn spender src i n) s'.stocks := by
  obtain ⟨_, _, _, h⟩ := h.pass₃
  simp at h
  obtain ⟨henough, rfl⟩ := h
  exact .burn henough

/-- **Every invocation that returns makes its move.** -/
theorem op_moves (h : Returns (op.exec env) s u s') : s.stocks.Move op s'.stocks := by
  by_cases hop : op.idle = true
  · rw [(op_idle hop).eq h]
    exact .idle hop
  · cases op with
    | initializeCollection => exact initializeCollection_move h
    | setTokenMaxSupply => exact setTokenMaxSupply_move h
    | setPerWalletLimit => exact setPerWalletLimit_move h
    | mintNew =>
      obtain ⟨j, h⟩ := h.discard
      exact (mintNew_move h).2
    | mint => exact mint_move h
    | mintBatch => exact mintBatch_move h
    | transfer => exact transfer_move h
    | transferFrom => exact transferFrom_move h
    | batchTransfer => exact batchTransfer_move h
    | burn => exact burn_move h
    | _ => exact absurd rfl hop

/-- A step makes the move of its invocation, or none. -/
theorem step_moves (s : State) (env : Env) (op : Op) :
    (∃ u, Returns (op.exec env) s u (step s (env, op)) ∧
      s.stocks.Move op (step s (env, op)).stocks) ∨ step s (env, op) = s := by
  unfold step
  split
  · rename_i u s' h
    exact .inl ⟨u, h, op_moves h⟩
  · exact .inr rfl

end Ops

end ElcareHub.NormalNFT1155
