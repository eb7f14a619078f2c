import ElcareHub.Collections.NormalNFT1155.Caps

/-!
# Minting in a batch and one by one

`mint_batch` checks what is asked of a token together, in the state it is called in; `mint`, called for
one item after the other, checks every item in the state its predecessors leave. The last check of a
token is then the one for the whole of it, and it implies those before (`Issued.admits_iff`). So the
two agree, but for what only the batch looks at: its length, the URIs, and the room for the next id.
-/

namespace ElcareHub.NormalNFT1155

open Collection Call

variable {env : Env} {s s' : State} {u : Unit} {a : Address} {items : List BatchItem}

namespace Stocks

/-- The checks of `mint`, when the items are minted to `a` one after the other. -/
def Admits (a : Address) : List (Nat × Nat) → Stocks → Prop
  | [], _ => True
  | (i, n) :: items, t =>
    (0 < n ∧ t.Room i n ∧ t.Allows a i n) ∧ Admits a items (t.issue a i n)

/-- What is checked of an amount before it is minted can be checked afterwards. -/
theorem Issued.passes_iff (h : Issued a l t t') (i : Nat) :
    (t.Room i (asked l i) ∧ t.Allows a i (asked l i)) ↔ t'.Room i 0 ∧ t'.Allows a i 0 := by
  unfold Room Allows
  rw [h.caps.1, h.caps.2, h.totalSupply, h.walletMinted, if_pos rfl]
  rfl

/-- The checks of `mint` item by item are the checks of `mint_batch`. -/
theorem Issued.admits_iff {items : List (Nat × Nat)} (h : Issued a items t t') :
    Admits a items t ↔ (∀ item ∈ items, 0 < item.2) ∧
      ∀ item ∈ items, t.Room item.1 (asked items item.1) ∧ t.Allows a item.1 (asked items item.1) := by
  -- in terms of the state afterwards
  simp only [h.passes_iff]
  induction items generalizing t with
  | nil => simp [Admits]
  | cons item items ih =>
    obtain ⟨i, n⟩ := item
    have hone := passes_iff (l := [(i, n)]) ⟨h.1, h.2.1, rfl⟩ i
    have hrest := h.2.2.passes_iff i
    simp only [asked_cons, asked_nil, if_true, Nat.add_zero] at hone
    rw [Admits, ih h.2.2, hone, List.forall_mem_cons, List.forall_mem_cons]
    constructor
    · rintro ⟨⟨hn, hpass⟩, hpositive, hitems⟩
      refine ⟨⟨hn, hpositive⟩, ?_, hitems⟩
      by_cases hi : i ∈ items.map Prod.fst
      · obtain ⟨item, hitem, rfl⟩ := List.mem_map.mp hi
        exact hitems item hitem
      · rw [asked_eq_zero hi] at hrest
        exact hrest.mp hpass
    · rintro ⟨⟨hn, hpositive⟩, hpass, hitems⟩
      exact ⟨⟨hn, passes_mono (hrest.mpr hpass) (by omega)⟩, hpositive, hitems⟩

end Stocks

/-- Whether the creator has signed and the contract is paused does not change between items. -/
theorem Guarded.mintItem (h : Guarded env s)
    (hitem : Returns (mintItem a item) s u s') : Guarded env s' := by
  cases huri : s.tokenUri item.tokenId <;> simp [NormalNFT1155.mintItem, addUpTo, huri] at hitem <;>
    obtain ⟨-, -, -, c, -, rfl⟩ := hitem <;> exact h

theorem returns_mints (h : Guarded env s) :
    Returns (each (fun item => mint env a item.tokenId item.amount item.uri) items) s u s' ↔
      Stocks.Admits a (items.map fun item => (item.tokenId, item.amount)) s.stocks ∧
        Returns (each (mintItem a) items) s u s' := by
  induction items generalizing s with
  | nil => simp [Stocks.Admits]
  | cons item items ih =>
    rw [returns_each_cons, returns_each_cons]
    constructor
    · rintro ⟨s1, hmint, hrest⟩
      obtain ⟨-, hn, hroom, hallows, hitem⟩ := returns_mint.mp hmint
      obtain ⟨hadmits, hrest⟩ := (ih (h.mintItem hitem)).mp hrest
      rw [(mintItem_stocks hitem).2.2] at hadmits
      exact ⟨⟨⟨hn, hroom, hallows⟩, hadmits⟩, s1, hitem, hrest⟩
    · rintro ⟨⟨⟨hn, hroom, hallows⟩, hadmits⟩, s1, hitem, hrest⟩
      rw [← (mintItem_stocks hitem).2.2] at hadmits
      exact ⟨s1, returns_mint.mpr ⟨h, hn, hroom, hallows, hitem⟩,
        (ih (h.mintItem hitem)).mpr ⟨hadmits, hrest⟩⟩

theorem mintItems_of_each (hids : ∀ item ∈ items, item.tokenId < u64Max)
    (h : Returns (each (mintItem a) items) s u s') :
    Returns (mintItems a next items) s (Stocks.numbered next (items.map BatchItem.tokenId)) s' := by
  induction items generalizing next s with
  | nil => exact returns_pure.mpr ⟨rfl, h.done⟩
  | cons item items ih =>
    obtain ⟨s1, hitem, h⟩ := h.next
    obtain ⟨hid, hids⟩ := List.forall_mem_cons.mp hids
    exact returns_mintItems_cons.mpr ⟨fun _ => hid, s1, hitem, ih hids h⟩

end ElcareHub.NormalNFT1155
