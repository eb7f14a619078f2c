import ElcareHub.Collections.NormalNFT1155.Stocks
import ElcareHub.Collections.LazyMint1155.Editions
import ElcareHub.Lib.MultiToken

/-!
# Units in circulation

The two multi-token contracts are books of units: each invocation posts a journal of entries, one for
every item it mints, transfers or burns, and none if it does anything else. `Op.journal` reads the
journal off the invocation, `op_posts` shows that it is posted exactly: no sum wraps around, and the
subtraction from the supply in `burn`, which saturates, never does so, since an account holds no more
than there is. Conservation is then a fact about books.

In `NormalNFT1155` the moves on the stocks carry the entries, in `LazyMint1155` the writes themselves.
-/

/-! ### NormalNFT1155 -/

namespace ElcareHub.NormalNFT1155

open Collection Call MultiToken

def Stocks.book (t : Stocks) : Book Address Nat := ⟨t.balance, t.totalSupply⟩

abbrev State.book (s : State) : Book Address Nat := ⟨s.balance, s.totalSupply⟩

/-- What an invocation enters in the books when the next id is `next`. -/
def Op.journal (next : Nat) : Op → List (Entry Address Nat)
  | .mintNew a n _ => [issue a next n]
  | .mint a i n _ => [issue a i n]
  | .mintBatch a is ns _ => (is.zip ns).map fun item => issue a item.1 item.2
  | .transfer src dst i n => [move src dst i n]
  | .transferFrom _ src dst i n => [move src dst i n]
  | .batchTransfer _ src dst is ns => (is.zip ns).map fun item => move src dst item.1 item.2
  | .burn _ src i n => [retire src i n]
  | _ => []

namespace Stocks

variable {t t' : Stocks} {a src dst : Address} {items : List (Nat × Nat)} {op : Op}

theorem Issued.posting (h : Issued a items t t') :
    Posting u128Max (items.map fun item => MultiToken.issue a item.1 item.2) t.book t'.book := by
  induction items generalizing t with
  | nil => exact congrArg book h
  | cons item items ih =>
    obtain ⟨hfits, -, hrest⟩ := h
    exact ⟨(t.issue a item.1 item.2).book, posts_issue hfits, ih hrest⟩

theorem Shifted.posting (h : Shifted src dst items t t') :
    Posting u128Max (items.map fun item => move src dst item.1 item.2) t.book t'.book := by
  induction items generalizing t with
  | nil => exact congrArg book h
  | cons item items ih =>
    obtain ⟨henough, hrest⟩ := h
    exact ⟨(t.shift src dst item.1 item.2).book, posts_move henough, ih hrest⟩

/-- A transfer enters its items. -/
theorem journal_of_transfers (hop : op.transfers = some (src, dst, items)) :
    op.journal next = items.map fun item => move src dst item.1 item.2 := by
  cases op <;> simp only [Op.transfers, reduceCtorEq] at hop
  all_goals
    obtain ⟨rfl, rfl, rfl⟩ := hop
    rfl

/-- **A move posts the journal of its invocation.** -/
theorem Move.posting (h : t.Move op t') (ht : Sound u128Max t.book) :
    Posting u128Max (op.journal t.nextTokenId) t.book t'.book := by
  cases h with
  | idle hop => cases op <;> first | rfl | cases hop
  | setUp => rfl
  | setCap => rfl
  | setLimit => rfl
  | mintNew _ _ hissued => exact hissued.posting
  | mint _ _ _ _ hissued => exact hissued.posting
  | mintBatch _ _ _ _ _ hissued => exact hissued.posting
  | transfer hop hshifted =>
    rw [journal_of_transfers hop]
    exact hshifted.posting
  | burn henough => exact posting_singleton (posts_retire henough (ht.circulates _))

end Stocks

theorem op_posts {op : Op} (hs : Sound u128Max s.book)
    (h : Returns (op.exec env) s u s') : Posting u128Max (op.journal s.nextTokenId) s.book s'.book :=
  (op_moves h).posting hs

theorem book_run (calls : List (Env × Op)) : Sound u128Max (run .fresh calls).book := by
  refine Run.invariant (I := fun s : State => Sound u128Max s.book) (.empty u128Max) ?_
  rintro s ⟨env, op⟩ hs
  obtain ⟨u, hreturns, -⟩ | hsame := step_moves s env op
  · exact hs.posting (op_posts hs hreturns)
  · rwa [hsame]

end ElcareHub.NormalNFT1155

/-! ### LazyMint1155 -/

namespace ElcareHub.LazyMint1155

open Collection Call MultiToken

abbrev State.book (s : State) : Book Address Nat := ⟨s.balance, s.totalSupply⟩

/-- What an invocation enters in the books. -/
def Op.journal : Op → List (Entry Address Nat)
  | .redeem buyer v n _ _ => [issue buyer v.tokenId n]
  | .redeemBatch buyer items => items.map fun item => issue buyer item.voucher.tokenId item.amount
  | .transfer src dst i n => [move src dst i n]
  | .transferFrom _ src dst i n => [move src dst i n]
  | .batchTransfer _ src dst is ns => (is.zip ns).map fun item => move src dst item.1 item.2
  | .burn _ src i n => [retire src i n]
  | _ => []

variable {dep : Deployment} {env : Env} {s s' : State} {u : Unit} {a src dst spender : Address}
  {i n : Nat}

section Frames

instance book_onLazy (c : Call (Fault Error) LazyBase α) : Preserves State.book (onLazy c) where
  eq h := by
    obtain ⟨l, -, rfl⟩ := h.zoom
    rfl

end Frames

/-! #### Entries -/

theorem setBalance_book (h : Returns (setBalance a i n) s u s') :
    s'.book = ⟨Function.update s.book.balance (a, i) n, s.book.supply⟩ := by
  rw [← h.update]

theorem setTotalSupply_book (h : Returns (setTotalSupply i n) s u s') :
    s'.book = ⟨s.book.balance, Function.update s.book.supply i n⟩ := by
  rw [← h.update]

theorem mintItem_posts (h : Returns (mintItem buyer v n creator) s u s') :
    Posts u128Max (issue buyer v.tokenId n) s.book s'.book := by
  obtain ⟨-, h⟩ := returns_addUpTo_bind.mp h
  obtain ⟨s1, hset, h⟩ := h.seq
  have e1 := setBalance_book hset
  obtain ⟨_, _, s3, e3, h⟩ := h.skip₂ e1
  replace h := h.view
  obtain ⟨hfits, h⟩ := returns_addUpTo_bind.mp h
  obtain ⟨s4, hset, h⟩ := h.seq
  have e4 := setTotalSupply_book hset
  have hread : s3.totalSupply = s.book.supply := congrArg Book.supply e3
  rw [e3, hread] at e4
  rw [hread] at hfits
  rw [h.last e4]
  exact posts_issue hfits

theorem each_mintItem_posting
    (h : Returns (each (fun item : BatchVoucherItem1155 =>
      mintItem buyer item.voucher item.amount creator) items) s u s') :
    Posting u128Max (items.map fun item => issue buyer item.voucher.tokenId item.amount) s.book
      s'.book := by
  induction items generalizing s with
  | nil => exact congrArg State.book (h.done)
  | cons item items ih =>
    obtain ⟨s1, hitem, h⟩ := h.next
    exact ⟨s1.book, mintItem_posts hitem, ih h⟩

theorem transferUnits_posts (h : Returns (transferUnits src dst i n) s u s') :
    Posts u128Max (move src dst i n) s.book s'.book := by
  obtain ⟨henough, h⟩ := h.check
  obtain ⟨s1, hset, h⟩ := h.seq
  have e1 := setBalance_book hset
  -- the destination is read after the source has been written: they may be the same
  replace h := h.view
  obtain ⟨-, h⟩ := returns_addUpTo_bind.mp h
  obtain ⟨s2, hset, h⟩ := h.seq
  have e2 := setBalance_book hset
  have hread : s1.balance (dst, i) = s1.book.balance (dst, i) := rfl
  rw [hread, e1] at e2
  rw [h.last e2]
  exact posts_move (Nat.le_of_not_lt henough)

theorem each_transferUnits_posting
    (h : Returns (each (fun p : Nat × Nat => transferUnits src dst p.1 p.2) items) s u s') :
    Posting u128Max (items.map fun item => move src dst item.1 item.2) s.book s'.book := by
  induction items generalizing s with
  | nil => exact congrArg State.book (h.done)
  | cons item items ih =>
    obtain ⟨s1, hitem, h⟩ := h.next
    exact ⟨s1.book, transferUnits_posts hitem, ih h⟩

theorem burn_posts (hs : Sound u128Max s.book) (h : Returns (burn env spender src i n) s u s') :
    Posts u128Max (retire src i n) s.book s'.book := by
  obtain ⟨_, h⟩ := h.pass
  obtain ⟨s1, hoperator, h⟩ := h.seq
  simp only [returns_bind, returns_abortIf] at hoperator
  obtain ⟨_, s2, ⟨-, rfl⟩, -, rfl⟩ := hoperator
  obtain ⟨henough, h⟩ := h.check
  obtain ⟨s1, hset, h⟩ := h.seq
  have e1 := setBalance_book hset
  replace h := h.view
  obtain ⟨s2, hset, h⟩ := h.seq
  have e2 := setTotalSupply_book hset
  have hread : s1.totalSupply = s.book.supply := congrArg Book.supply e1
  rw [e1, hread] at e2
  rw [h.last e2]
  exact posts_retire (Nat.le_of_not_lt henough) (hs.circulates i)

/-- **Every invocation that returns posts its journal.** -/
theorem op_posts {op : Op} (hs : Sound u128Max s.book) (h : Returns (op.exec dep env) s u s') :
    Posting u128Max op.journal s.book s'.book := by
  cases op with
  | redeem =>
    obtain ⟨creator, paid, -, hminted⟩ := (order_phases rfl h).minted
    have hposting := each_mintItem_posting hminted
    exact hposting
  | redeemBatch =>
    obtain ⟨creator, paid, -, hminted⟩ := (order_phases rfl h).minted
    have hposting := each_mintItem_posting hminted
    exact hposting
  | transfer src dst i n =>
    obtain ⟨_, s1, e, h⟩ := h.skip (f := State.book) rfl
    rw [← e]
    exact posting_singleton (transferUnits_posts h)
  | transferFrom operator src dst i n =>
    obtain ⟨_, s1, e, h⟩ := h.skip (f := State.book) rfl
    obtain ⟨_, s2, e, h⟩ := h.skip e
    rw [← e]
    exact posting_singleton (transferUnits_posts h)
  | batchTransfer spender src dst is ns =>
    obtain ⟨_, _, _, _, s4, e, h⟩ := h.skip₄ (f := State.book) rfl
    obtain ⟨_, _, s6, e, h⟩ := h.skip₂ e
    rw [← e]
    exact each_transferUnits_posting h
  | burn => exact posting_singleton (burn_posts hs h)
  | _ =>
    unfold Op.exec at h
    exact (Preserves.eq h).symm

theorem book_run (dep : Deployment) (balances : Address × Address → Int)
    (calls : List (Env × Op)) : Sound u128Max (run dep (.fresh balances) calls).book := by
  refine Run.invariant (I := fun s : State => Sound u128Max s.book) (.empty u128Max) ?_
  rintro s ⟨env, op⟩ hs
  unfold step
  split
  · rename_i u s' h
    exact hs.posting (op_posts hs h)
  · exact hs

end ElcareHub.LazyMint1155

/-! ### Conservation -/

namespace ElcareHub.Collection

open Call MultiToken

/-- **Conservation of units.** In both multi-token contracts, in every state a run reaches, the
balances of every token add up to its supply and neither a balance nor a supply is larger than what
is stored can hold; and an invocation that returns has changed them by exactly what it was asked to
mint, transfer and burn. -/
theorem units_conserved :
    (∀ calls : List (Env × NormalNFT1155.Op),
      let s := NormalNFT1155.run .fresh calls
      (∀ i, (Function.support fun a => s.balance (a, i)).Finite ∧
        ∑ᶠ a, s.balance (a, i) = s.totalSupply i) ∧
      (∀ a i, s.balance (a, i) ≤ u128Max) ∧ (∀ i, s.totalSupply i ≤ u128Max) ∧
      ∀ (env : Env) (op : NormalNFT1155.Op) (u : Unit) (s' : NormalNFT1155.State),
        Returns (op.exec env) s u s' → Posting u128Max (op.journal s.nextTokenId) s.book s'.book) ∧
    ∀ (dep : Deployment) (balances : Address × Address → Int)
      (calls : List (Env × LazyMint1155.Op)),
      let s := LazyMint1155.run dep (.fresh balances) calls
      (∀ i, (Function.support fun a => s.balance (a, i)).Finite ∧
        ∑ᶠ a, s.balance (a, i) = s.totalSupply i) ∧
      (∀ a i, s.balance (a, i) ≤ u128Max) ∧ (∀ i, s.totalSupply i ≤ u128Max) ∧
      ∀ (env : Env) (op : LazyMint1155.Op) (u : Unit) (s' : LazyMint1155.State),
        Returns (op.exec dep env) s u s' → Posting u128Max op.journal s.book s'.book := by
  constructor
  · intro calls
    have hsound := NormalNFT1155.book_run calls
    exact ⟨hsound.circulates, hsound.balance_le, hsound.supply_le,
      fun _ _ _ _ h => NormalNFT1155.op_posts hsound h⟩
  · intro dep balances calls
    have hsound := LazyMint1155.book_run dep balances calls
    exact ⟨hsound.circulates, hsound.balance_le, hsound.supply_le,
      fun _ _ _ _ h => LazyMint1155.op_posts hsound h⟩

/-- A batch that mints one token twice, and a transfer of all of it to its holder. -/
def mintedTwice : List (Env × NormalNFT1155.Op) :=
  [(.signedBy ⟨1⟩ 100, .initializeCollection ⟨1⟩ "Collection" 500 ⟨1⟩),
    (.signedBy ⟨1⟩ 100, .mintBatch ⟨2⟩ [4, 4] [5, 7] ["ipfs", "ipfs"]),
    (.signedBy ⟨2⟩ 100, .transfer ⟨2⟩ ⟨2⟩ 4 12)]

theorem units_conserved_mintedTwice :
    ∃ s', Returns ((NormalNFT1155.Op.burn ⟨2⟩ ⟨2⟩ 4 10).exec (.signedBy ⟨2⟩ 100))
        (NormalNFT1155.run .fresh mintedTwice) () s' ∧ s'.totalSupply 4 = 2 ∧
      Posting u128Max [retire ⟨2⟩ 4 10] (NormalNFT1155.run .fresh mintedTwice).book s'.book ∧
      ∑ᶠ a, (NormalNFT1155.run .fresh mintedTwice).balance (a, 4) = 12 := by
  obtain ⟨⟨⟩, s', h, hsupply⟩ := exists_returns
    (c := (NormalNFT1155.Op.burn ⟨2⟩ ⟨2⟩ 4 10).exec (.signedBy ⟨2⟩ 100))
    (s := NormalNFT1155.run .fresh mintedTwice) (p := fun _ s' => s'.totalSupply 4 == 2)
    (by decide +kernel)
  obtain ⟨hsum, -, -, hposts⟩ := units_conserved.1 mintedTwice
  have hminted : (NormalNFT1155.run .fresh mintedTwice).totalSupply 4 = 12 := by decide +kernel
  exact ⟨s', h, by simpa using hsupply, hposts _ _ _ _ h, (hsum 4).2.trans hminted⟩

end ElcareHub.Collection
