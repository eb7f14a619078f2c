import ElcareHub.Collections.NormalNFT721.Holding
import ElcareHub.Joint.System
import ElcareHub.Marketplace.Refine.Handover
import ElcareHub.Marketplace.Safety.Custody

/-!
# A NormalNFT721 token does not leave escrow

The marketplace hands an NFT out by `transfer_from` with itself as spender and source. The collection
asks every spender for an approval, its owner included, and the transfer into escrow has cleared the
approval of the token; the marketplace never gives itself a new one. So every token with an escrow
record is held (`Tokens.Held`), and the collection refuses to release it.
-/

namespace ElcareHub.Joint

open Call hiding update
open Marketplace NormalNFT721 Function

variable {D : Type} {base : Host D} {address : Address}
variable {collection : Address} {i : Nat} {α : Type} {a : α}

/-- Everything with an escrow record is held by the marketplace, which has no operators. -/
structure InCustody (holder address : Address) (p : Chain D × EscrowRecords) : Prop where
  wellFormed : p.1.nft.tokens.WellFormed
  operators : p.1.nft.tokens.NoOperators holder
  held : ∀ {i r}, p.2 (address, i) = some r → p.1.nft.tokens.Held holder i

namespace InCustody

variable {holder : Address} {c c' : Chain D} {e : EscrowRecords}

/-- Only the collection and the records matter. -/
theorem congr (h : InCustody holder address (c, e)) (hnft : c'.nft.tokens = c.nft.tokens) :
    InCustody holder address (c', e) := by
  constructor
  · exact hnft ▸ h.wellFormed
  · exact hnft ▸ h.operators
  · exact hnft ▸ h.held

/-- Records of other collections do not matter. -/
theorem update_other (h : InCustody holder address (c, e)) (hne : collection ≠ address) (i : Nat)
    (r : Option EscrowRecord) : InCustody holder address (c, update e (collection, i) r) := by
  refine ⟨h.wellFormed, h.operators, fun {j r'} hj => h.held (r := r') ?_⟩
  have hkey : (address, j) ≠ (collection, i) := fun heq => hne (congrArg Prod.fst heq).symm
  exact (update_of_ne hkey r e).symm.trans hj

theorem clear (h : InCustody holder address (c, e)) (key : Address × Nat) :
    InCustody holder address (c, update e key none) := by
  refine ⟨h.wellFormed, h.operators, fun {j r'} hj => h.held (r := r') ?_⟩
  change update e key none (address, j) = some r' at hj
  rw [update_apply] at hj
  split at hj
  · cases hj
  · exact hj

/-- A transfer made by the marketplace leaves what it holds in place. -/
theorem transferFrom (h : InCustody holder address (c, e))
    (htransfer : Returns (NormalNFT721.transferFrom env holder src dst i) c.nft () nft) :
    InCustody holder address ({ c with nft }, e) := by
  obtain ⟨-, howner, hmay, htokens⟩ := transferFrom_tokens htransfer
  constructor
  · have hcall : Returns ((Op.transferFrom holder src dst i).exec env) c.nft () nft := htransfer
    exact (op_moves hcall).wellFormed h.wellFormed
  · rw [htokens]
    exact h.operators
  · intro j r hj
    rw [htokens]
    exact (h.held hj).transfer_other h.operators howner hmay

/-- A token that the marketplace takes in may be recorded. -/
theorem record (h : InCustody holder address (c, e)) (hheld : c.nft.tokens.Held holder i)
    (r : EscrowRecord) : InCustody holder address (c, update e (address, i) (some r)) := by
  refine ⟨h.wellFormed, h.operators, fun {j r'} hj => ?_⟩
  by_cases hij : j = i
  · exact hij ▸ hheld
  · refine h.held (r := r') ?_
    have hkey : (address, j) ≠ (address, i) := fun heq => hij (congrArg Prod.snd heq)
    exact (update_of_ne hkey (some r) e).symm.trans hj

end InCustody

/-! ### The marketplace's invocations -/

theorem invoke_eq {c : Chain D} (h : c.invoke tx = some (a, c')) :
    ∃ nft, Returns tx c.nft a nft ∧ c' = { c with nft } := by
  unfold Chain.invoke at h
  split at h
  · rename_i b nft htx
    cases h
    exact ⟨nft, htx, rfl⟩
  · cases h

theorem elsewhere_eq {c : Chain D} (h : c.elsewhere r = some (a, c')) : c'.nft = c.nft := by
  obtain ⟨p, -, hp⟩ := Option.map_eq_some_iff.mp h
  cases hp
  rfl

/-- A query that leaves the tokens of the collection alone. -/
theorem InCustody.query
    [Preserves State.tokens x]
    (h : (if collection = address then c.invoke x else c.elsewhere r) = some (a, c'))
    (hcustody : InCustody holder address (c, e)) : InCustody holder address (c', e) := by
  split at h
  · obtain ⟨nft, hx, rfl⟩ := invoke_eq h
    exact hcustody.congr (Preserves.eq hx)
  · exact hcustody.congr (congrArg State.tokens (elsewhere_eq h))

/-- The two ways a `transfer_from` of the marketplace succeeds. -/
theorem transferFrom_cases
    (h : (host base address).transferFrom c collection spender src dst i = some c') :
    (collection = address ∧ ∃ nft, c' = { c with nft } ∧
      Returns (NormalNFT721.transferFrom (c.env base.self) spender src dst i) c.nft () nft) ∨
    (collection ≠ address ∧ c'.nft = c.nft) := by
  change (if collection = address then _ else _) = _ at h
  split at h
  · rename_i haddress
    obtain ⟨⟨⟨⟩, c''⟩, hinvoke, rfl⟩ := Option.map_eq_some_iff.mp h
    obtain ⟨nft, htx, rfl⟩ := invoke_eq hinvoke
    exact .inl ⟨haddress, nft, rfl, htx⟩
  · rename_i haddress
    obtain ⟨others, -, rfl⟩ := Option.map_eq_some_iff.mp h
    exact .inr ⟨haddress, rfl⟩

/-- Custody is kept by what the marketplace invokes. -/
instance : Custodial (host base address) (InCustody base.self address) where
  ownerOf h hP := hP.query (x := NormalNFT721.ownerOf _) h
  royaltyInfo h hP := hP.query (x := NormalNFT721.royaltyInfo) h
  contractType {c c' e collection kind} h hP := by
    change (if collection = address then some (contractType, c) else _) = _ at h
    split at h
    · cases h
      exact hP
    · exact hP.congr (congrArg State.tokens (elsewhere_eq h))
  take record h hP := by
    obtain ⟨rfl, nft, rfl, htx⟩ | ⟨hne, hnft⟩ := transferFrom_cases h
    · refine (hP.transferFrom htx).record ?_ record
      rw [(transferFrom_tokens htx).2.2.2]
      exact ⟨update_self .., update_self ..⟩
    · exact (hP.congr (congrArg State.tokens hnft)).update_other hne _ _
  give h hP := by
    obtain ⟨rfl, nft, rfl, htx⟩ | ⟨hne, hnft⟩ := transferFrom_cases h
    · exact (hP.transferFrom htx).clear _
    · exact (hP.congr (congrArg State.tokens hnft)).clear _
  giveUnits {c c' e collection recipient tokenId amount} h hP := by
    change (if collection = address then none else _) = _ at h
    split at h
    · cases h
    · obtain ⟨others, -, rfl⟩ := Option.map_eq_some_iff.mp h
      have hsame : InCustody base.self address ({ c with others }, e) := hP.congr rfl
      exact hsame.clear _

/-! ### Joint runs -/

theorem inCustody_step (s : Step base.self D) (h : InCustody base.self address w.custody) :
    InCustody base.self address (step base address w s).custody := by
  cases s with
  | market env op =>
    have hledger : InCustody base.self address (atLedger w env).custody := h.congr rfl
    obtain ⟨w', hw', hstep⟩ | hstep := step_call (host base address) (atLedger w env) env op
    · change InCustody base.self address (Marketplace.step _ _ _).custody
      rw [hstep]
      exact (keeps_op op).keeps hw' hledger
    · change InCustody base.self address (Marketplace.step _ _ _).custody
      rw [hstep]
      exact hledger
  | collection env op hself =>
    have hm := step_moves env w.collections.nft op
    exact ⟨hm.wellFormed h.wellFormed, hm.noOperators hself h.operators,
      fun hi => hm.held hself h.wellFormed h.operators (h.held hi)⟩
  | others others balances => exact h.congr rfl

theorem inCustody_run (base : Host D) (address : Address) (balances : Address × Address → Int)
    (others : D) (steps : List (Step base.self D)) :
    InCustody base.self address (run base address balances others steps).custody := by
  refine Run.invariant (I := fun w : World (Chain D) => InCustody base.self address w.custody) ?_
    fun _ s hw => inCustody_step s hw
  exact ⟨.fresh, fun _ => rfl, fun hi => by cases hi⟩

/-- **Nothing leaves escrow.** After every joint run, while a listing or auction of a token of the
collection is active, the collection refuses the `transfer_from` by which the marketplace would
release the token, whoever the recipient: the invocation fails with `NotApproved`. -/
theorem release_refused (base : Host D) (address : Address) (balances : Address × Address → Int)
    (others : D) (steps : List (Step base.self D)) (tokenId : Nat) (sale : EscrowRecord)
    (recipient : Address) (env : Env) (hauth : env.auth base.self = true)
    (hunpaused : (run base address balances others steps).collections.nft.paused = false)
    (hsale : (run base address balances others steps).ActiveSale (address, tokenId) sale) :
    transferFrom env base.self base.self recipient tokenId
      (run base address balances others steps).collections.nft = .error (.contract .notApproved) := by
  have hrecord := ((reachable_run base address balances others steps).custodyExact
    (address, tokenId) sale).mpr (activeSale_iff.mp hsale)
  have hcustody := inCustody_run base address balances others steps
  exact transferFrom_refused hauth hunpaused (hcustody.held hrecord) hcustody.operators

/-- A token is minted, the marketplace is approved for it, and its owner lists it. -/
def listedToken : List (Step ⟨0⟩ Unit) :=
  [.collection (.signedBy ⟨10⟩ 100)
      (.initializeCollection ⟨10⟩ "Care" "CARE" 1000 500 ⟨10⟩) (by decide),
    .collection (.signedBy ⟨10⟩ 100) (.mint ⟨10⟩ "ipfs://care/0") (by decide),
    .collection (.signedBy ⟨10⟩ 100) (.approve ⟨10⟩ ⟨0⟩ 0 none) (by decide),
    .market (.signedBy ⟨10⟩ 200) (.listing (.createListing ⟨10⟩
      ⟨1000000, "XLM", ⟨50⟩, ⟨60⟩, 0, 1, [⟨⟨10⟩, 10000⟩], none⟩))]

theorem release_refused_listedToken :
    let w := run (.accepting ⟨0⟩ ⟨10⟩) ⟨60⟩ (fundedBidders ⟨0⟩) () listedToken
    w.ActiveSale (⟨60⟩, 0) ⟨true, 1⟩ ∧
      transferFrom (.signedBy ⟨0⟩ 300) ⟨0⟩ ⟨0⟩ ⟨20⟩ 0 w.collections.nft =
        .error (.contract .notApproved) := by
  intro w
  have hactive : (w.listing 1).any (fun l => l.status = .active ∧ (l.collection, l.tokenId) = (⟨60⟩, 0)) =
      true := by
    decide +kernel
  have hsale : w.ActiveSale (⟨60⟩, 0) ⟨true, 1⟩ := by
    simpa [World.ActiveSale, Option.any_eq_true] using hactive
  exact ⟨hsale, release_refused (.accepting ⟨0⟩ ⟨10⟩) _ _ _ _ 0 ⟨true, 1⟩ ⟨20⟩ (.signedBy ⟨0⟩ 300)
    (by decide) (by decide +kernel) hsale⟩

/-- The listed token belongs to the marketplace and the collection is not paused, yet its release to
a buyer is refused. -/
theorem listed_token_not_released :
    let w := run (.accepting ⟨0⟩ ⟨10⟩) ⟨60⟩ (fundedBidders ⟨0⟩) () listedToken
    ((w.listing 1).map fun l => (l.status, l.quantity, l.collection, l.tokenId)) =
        some (.active, 1, ⟨60⟩, 0) ∧
      w.collections.nft.owner 0 = some ⟨0⟩ ∧ w.collections.nft.paused = false ∧
      ¬ ∃ nft, Returns (transferFrom (.signedBy ⟨0⟩ 300) ⟨0⟩ ⟨0⟩ ⟨20⟩ 0) w.collections.nft () nft := by
  intro w
  refine ⟨by decide +kernel, by decide +kernel, by decide +kernel, ?_⟩
  have hrefused : passes (transferFrom (.signedBy ⟨0⟩ 300) ⟨0⟩ ⟨0⟩ ⟨20⟩ 0) w.collections.nft
      (fun _ _ => true) = false := by
    decide +kernel
  rintro ⟨nft, h⟩
  simp [passes, show transferFrom _ _ _ _ _ _ = _ from h] at hrefused

end ElcareHub.Joint
