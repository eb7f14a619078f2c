import ElcareHub.Collections.LazyMint1155
import ElcareHub.Collections.Vouchers.Register
import ElcareHub.Lib.Tally

/-!
# What an invocation can do to the editions

`Editions` is the part of the state that says how many units of each token there may be, how many
there are and how many each buyer has had minted, with the redemptions on record. `Editions.Move` are
the moves an invocation can make on it. A redemption mints every item of its order, in turn; what has
been checked by then is that each item *on its own* fits the caps in the state before the first mint
(`Editions.Admits`).
-/

namespace ElcareHub.LazyMint1155

open Collection Call

set_option synthInstance.maxSize 100000000

variable {buyer creator : Address} {items : List BatchVoucherItem1155} {i n : Nat}
variable {α : Type} {pubkey : Bytes} {op : Op}

/-! ### Editions and moves -/

structure Editions where
  editionMaxSupply : Nat → Option Nat
  totalSupply : Nat → Nat
  mintedPerBuyer : Address × Nat → Nat
  redemptions : List Redemption

def State.editions (s : State) : Editions where
  editionMaxSupply := s.editionMaxSupply
  totalSupply := s.totalSupply
  mintedPerBuyer := s.mintedPerBuyer
  redemptions := s.lazyBase.register.redemptions

/-- What a buyer asks to redeem. -/
structure Order where
  buyer : Address
  items : List BatchVoucherItem1155

/-- The order an invocation places. -/
def Op.order : Op → Option Order
  | .redeem buyer v amount signature merkleProof =>
    some ⟨buyer, [⟨v, amount, signature, merkleProof⟩]⟩
  | .redeemBatch buyer items => some ⟨buyer, items⟩
  | _ => none

def BatchVoucherItem1155.redemption (buyer : Address) (item : BatchVoucherItem1155) : Redemption :=
  ⟨buyer, item.voucher.tokenId, item.voucher.nonce, item.amount⟩

namespace Editions

def setSupply (t : Editions) (i n : Nat) : Editions :=
  { t with totalSupply := Function.update t.totalSupply i n }

def setMinted (t : Editions) (buyer : Address) (i n : Nat) : Editions :=
  { t with mintedPerBuyer := Function.update t.mintedPerBuyer (buyer, i) n }

def record (t : Editions) (x : Redemption) : Editions :=
  { t with redemptions := t.redemptions ++ [x] }

/-- The units of an item are minted to `buyer`. -/
def mint (buyer : Address) (t : Editions) (item : BatchVoucherItem1155) : Editions :=
  let i := item.voucher.tokenId
  ((t.setSupply i (t.totalSupply i + item.amount)).setMinted buyer i
    (t.mintedPerBuyer (buyer, i) + item.amount)).record (item.redemption buyer)

/-- An item on its own fits the edition and the quota of its voucher. -/
def Admits (t : Editions) (buyer : Address) (item : BatchVoucherItem1155) : Prop :=
  (∃ max, t.editionMaxSupply item.voucher.tokenId = some max ∧
    t.totalSupply item.voucher.tokenId + item.amount ≤ max) ∧
  t.mintedPerBuyer (buyer, item.voucher.tokenId) + item.amount ≤ item.voucher.buyerQuota

/-- What a redemption does, and what has been checked before. -/
structure Redeems (o : Order) (t t' : Editions) : Prop where
  admits : ∀ item ∈ o.items, t.Admits o.buyer item
  mints : t' = o.items.foldl (mint o.buyer) t

/-- One invocation that places `order`, if any. -/
inductive Move (order : Option Order) (t : Editions) : Editions → Prop
  | skip : Move order t t
  | redeem {o : Order} {t' : Editions} (ho : order = some o) (h : Redeems o t t') : Move order t t'
  | register (i max : Nat) (hnew : t.editionMaxSupply i = none) :
      Move order t
        { t with editionMaxSupply := Function.update t.editionMaxSupply i (some max) }
  | burn (i n : Nat) : Move order t (t.setSupply i (t.totalSupply i - n))

end Editions

/-! ### Calls that leave the editions alone -/

/-- The part of the shared storage that the editions include. -/
def redemptionsOf (l : LazyBase) : List Redemption := l.register.redemptions

section Frames

variable {τ : Type} {dep : Deployment} {env : Env}

instance (priority := low) (c : Call (Fault Error) LazyBase α)
    [Preserves LazyBase.register c] : Preserves redemptionsOf c where
  eq h := congrArg Register.redemptions (Preserves.eq (f := LazyBase.register) h)

instance (c : Call (Fault Error) LazyBase α) [Preserves redemptionsOf c] :
    Preserves State.editions (onLazy c) :=
  .zoom redemptionsOf fun s _ => congrArg fun redemptions => { s.editions with redemptions }

instance (bps : Nat) (receiver feeReceiver : Address) (feeBps : Nat) (passphrase : String) :
    Preserves redemptionsOf (initializeLazy creator pubkey bps receiver feeReceiver feeBps passphrase :
      Call (Fault Error) LazyBase Unit) where
  eq h := by
    obtain ⟨-, l, ⟨b, rfl, rfl⟩, rfl⟩ := h
    rfl

instance (g : LazyBase → Nat → Bool) :
    Preserves redemptionsOf (update fun l => { l with usedVoucher := g l } :
      Call (Fault Error) LazyBase Unit) := .update fun _ => rfl

instance : Preserves redemptionsOf (Collection.revokeVoucher env errors n) where
  eq h := (congrArg Register.redemptions (revokeVoucher_register h).2).trans rfl

instance (ns : List Nat) : Preserves redemptionsOf (Collection.revokeVouchers env errors ns) where
  eq h := (congrArg Register.redemptions (revokeVouchers_register h).2).trans rfl

instance (a : Address) :
    Preserves State.editions (setBalance a i n) := .update fun _ => rfl

instance (g : State → Nat → Option String) :
    Preserves State.editions (update fun s => { s with tokenUri := g s } : Tx Unit) :=
  .update fun _ => rfl

instance (name : Option String) :
    Preserves State.editions (update fun s => { s with name } : Tx Unit) :=
  .update fun _ => rfl

end Frames

/-! ### The parts of the entry points -/

section Parts

variable {dep : Deployment} {env : Env} {s s' : State} {u : Unit}

theorem returns_checkCaps (item : BatchVoucherItem1155)
    (h : Returns (checkCaps item.voucher item.amount buyer) s u s') :
    s.editions.Admits buyer item ∧ s = s' := by
  simp only [returns_bind, returns_orAbort, returns_abortIf] at h
  obtain ⟨stored, s1, ⟨rfl, rfl⟩, max, s2, ⟨hmax, rfl⟩, supply, s3, ⟨rfl, rfl⟩, n, s4, hsupply, -, s5,
    ⟨hfits, rfl⟩, already, s6, ⟨rfl, rfl⟩, m, s7, hminted, hquota, rfl⟩ := h
  obtain ⟨rfl, rfl⟩ := returns_addUpTo hsupply
  obtain ⟨rfl, rfl⟩ := returns_addUpTo hminted
  exact ⟨⟨⟨max, hmax, Nat.le_of_not_lt hfits⟩, Nat.le_of_not_lt hquota⟩, rfl⟩

/-- What is checked of an item: it fits, and its voucher is signed. -/
def Checked (dep : Deployment) (buyer : Address) (pubkey : Bytes) (s : State)
    (item : BatchVoucherItem1155) : Prop :=
  s.editions.Admits buyer item ∧
    dep.crypto.ed25519Verify pubkey (voucherDigest dep s.lazyBase.networkPassphrase item.voucher)
      item.signature = true

theorem returns_checkVoucher (item : BatchVoucherItem1155) (h : Returns (checkVoucher dep env item.voucher item.amount item.signature pubkey buyer)
      s u s') : Checked dep buyer pubkey s item ∧ s = s' := by
  obtain ⟨s1, hlive, h⟩ := h.seq
  obtain ⟨l, hfirst, rfl⟩ := hlive.zoom
  obtain ⟨-, rfl⟩ := returns_checkVoucherLive hfirst
  obtain ⟨s1, hcaps, h⟩ := h.seq
  obtain ⟨hadmits, rfl⟩ := returns_checkCaps item hcaps
  simp only [onLazy, returns_bind, returns_abortIf, returns_zoom] at h
  obtain ⟨p, s2, ⟨rfl, rfl⟩, l, ⟨hsigned, rfl⟩, rfl⟩ := h
  exact ⟨⟨hadmits, by simpa using hsigned⟩, rfl⟩

/-- Phase 1 of `redeem_batch` reads only: every item is checked against one and the same state. -/
theorem returns_validateItems (h : Returns (validateItems dep env buyer pubkey seen items) s u s') :
    (∀ item ∈ items, Checked dep buyer pubkey s item) ∧ s = s' := by
  induction items generalizing seen s with
  | nil =>
    obtain ⟨-, rfl⟩ := h.pure
    exact ⟨by simp, rfl⟩
  | cons item items ih =>
    obtain ⟨-, h⟩ := h.check
    obtain ⟨-, h⟩ := h.check
    obtain ⟨_, h⟩ := h.pass
    obtain ⟨s1, hcheck, h⟩ := h.seq
    obtain ⟨hchecked, rfl⟩ := returns_checkVoucher item hcheck
    obtain ⟨hrest, rfl⟩ := ih h
    exact ⟨List.forall_mem_cons.mpr ⟨hchecked, hrest⟩, rfl⟩

theorem setTotalSupply_editions (h : Returns (setTotalSupply i n) s u s') :
    s'.editions = s.editions.setSupply i n := by
  rw [← h.update]
  rfl

/-- The event of a redemption goes on record. -/
theorem redeemed_editions (h : Returns (emit (.redeemed creator buyer i n k)) s u s') :
    s'.editions = s.editions.record ⟨buyer, i, n, k⟩ := by
  obtain ⟨l, ⟨b, rfl, rfl⟩, rfl⟩ := h
  simp [State.editions, Editions.record, Event.redemption]

theorem mintItem_editions (item : BatchVoucherItem1155)
    (h : Returns (mintItem buyer item.voucher item.amount creator) s u s') :
    s'.editions = s.editions.mint buyer item := by
  obtain ⟨bal, s1, e1, h⟩ := h.skip (f := State.editions) rfl
  obtain ⟨bal', s2, e2, h⟩ := h.skip e1
  obtain ⟨_, s3, e3, h⟩ := h.skip e2
  obtain ⟨uri, s4, e4, h⟩ := h.skip e3
  obtain ⟨_, s5, e5, h⟩ := h.skip e4
  replace h := h.view
  obtain ⟨-, h⟩ := returns_addUpTo_bind.mp h
  obtain ⟨s6, hset, h⟩ := h.seq
  have e6 := setTotalSupply_editions hset
  obtain ⟨-, h⟩ := returns_addUpTo_bind.mp h
  obtain ⟨s7, hset, h⟩ := h.seq
  have e7 : s7.editions = s6.editions.setMinted buyer item.voucher.tokenId
      (s6.editions.mintedPerBuyer (buyer, item.voucher.tokenId) + item.amount) := by
    rw [← hset.update]
    rfl
  obtain ⟨_, s8, e8, h⟩ := h.skip e7
  have hread : s5.totalSupply item.voucher.tokenId =
      s.editions.totalSupply item.voucher.tokenId :=
    congrFun (congrArg Editions.totalSupply e5) _
  rw [redeemed_editions h, e8, e6, e5, hread]
  rfl

/-- Phase 4 of `redeem_batch` mints every item, in turn. -/
theorem each_mintItem_editions (h : Returns (each (fun item : BatchVoucherItem1155 =>
      mintItem buyer item.voucher item.amount creator) items) s u s') :
    s'.editions = items.foldl (Editions.mint buyer) s.editions := by
  refine h.each_induction
    (R := fun items s s' => s'.editions = items.foldl (Editions.mint buyer) s.editions)
    (fun _ => rfl) ?_
  intro item items s s1 s2 hitem hitems
  rw [hitems, mintItem_editions item hitem]
  rfl

end Parts

/-! ### Entry points -/

section Ops

variable {dep : Deployment} {env : Env} {s s' : State} {u : Unit} {order : Option Order}

/-- The phases of a redemption: what has been checked, the payment, which leaves the register alone, and
the mints. -/
structure Phases (dep : Deployment) (o : Order) (s s' : State) : Prop where
  checked : ∃ pubkey, ∀ item ∈ o.items, Checked dep o.buyer pubkey s item
  minted : ∃ creator paid, paid.register = s.lazyBase.register ∧
    Returns (each (fun item : BatchVoucherItem1155 =>
      mintItem o.buyer item.voucher item.amount creator) o.items) { s with lazyBase := paid } () s'

theorem redeem_phases (h : Returns (redeem dep env buyer v amount signature proof) s u s') :
    Phases dep ⟨buyer, [⟨v, amount, signature, proof⟩]⟩ s s' := by
  obtain ⟨-, h⟩ := h.check
  obtain ⟨-, h⟩ := h.check
  obtain ⟨_, h⟩ := h.pass
  replace h := h.view
  obtain ⟨pubkey, -, h⟩ := h.found
  obtain ⟨s1, hcheck, h⟩ := h.seq
  obtain ⟨hchecked, rfl⟩ := returns_checkVoucher ⟨v, amount, signature, proof⟩ hcheck
  obtain ⟨creator, -, h⟩ := h.found
  obtain ⟨s1, hpay, h⟩ := h.seq
  obtain ⟨paid, hpaid, rfl⟩ := hpay.zoom
  exact ⟨⟨pubkey, List.forall_mem_singleton.mpr hchecked⟩, creator, paid, Preserves.eq hpaid,
    returns_each_cons.mpr ⟨s', h, returns_each_nil.mpr rfl⟩⟩

theorem redeemBatch_phases (h : Returns (redeemBatch dep env buyer items) s u s') :
    Phases dep ⟨buyer, items⟩ s s' := by
  obtain ⟨-, h⟩ := h.check
  obtain ⟨-, h⟩ := h.check
  obtain ⟨-, h⟩ := h.check
  replace h := h.view
  obtain ⟨pubkey, -, h⟩ := h.found
  obtain ⟨creator, -, h⟩ := h.found
  obtain ⟨s1, hvalid, h⟩ := h.seq
  obtain ⟨hchecked, rfl⟩ := returns_validateItems hvalid
  obtain ⟨s1, hpay, h⟩ := h.seq
  obtain ⟨paid, hpaid, rfl⟩ := hpay.zoom
  exact ⟨⟨pubkey, hchecked⟩, creator, paid, Preserves.eq hpaid, h⟩

/-- An invocation that places an order and returns passes through the phases. -/
theorem order_phases (ho : op.order = some o) (h : Returns (op.exec dep env) s u s') :
    Phases dep o s s' := by
  cases op with
  | redeem =>
    cases ho
    exact redeem_phases h
  | redeemBatch =>
    cases ho
    exact redeemBatch_phases h
  | _ => cases ho

theorem registerEdition_move {max : Nat} (h : Returns (registerEdition env i max) s u s') :
    s.editions.Move order s'.editions := by
  obtain ⟨creator, s1, e1, h⟩ := h.skip (f := State.editions) rfl
  obtain ⟨hnew, h⟩ := h.check
  obtain ⟨s2, hset, h⟩ := h.seq
  have hnone : s1.editions.editionMaxSupply i = none :=
    Option.not_isSome_iff_eq_none.mp hnew
  rw [h.last (f := State.editions) rfl, ← hset.update, ← e1]
  exact .register i max hnone

theorem burn_move (h : Returns (burn env spender src i n) s u s') :
    s.editions.Move order s'.editions := by
  obtain ⟨_, _, s2, e, h⟩ := h.skip₂ (f := State.editions) rfl
  obtain ⟨bal, s3, e, h⟩ := h.skip e
  obtain ⟨_, _, s5, e, h⟩ := h.skip₂ e
  replace h := h.view
  obtain ⟨s6, hset, h⟩ := h.seq
  rw [h.last (setTotalSupply_editions hset), ← e]
  exact .burn i n

/-! ### Every entry point makes one move -/

/-- An invocation that places an order and returns redeems it. -/
theorem order_redeems (ho : op.order = some o) (h : Returns (op.exec dep env) s u s') :
    Editions.Redeems o s.editions s'.editions := by
  have hphases := order_phases ho h
  obtain ⟨pubkey, hchecked⟩ := hphases.checked
  obtain ⟨creator, paid, hpaid, hminted⟩ := hphases.minted
  refine ⟨fun item hitem => (hchecked item hitem).1, ?_⟩
  have heditions : State.editions { s with lazyBase := paid } = s.editions :=
    congrArg (fun r => { s.editions with redemptions := r.redemptions }) hpaid
  rw [each_mintItem_editions hminted, heditions]

/-- The entry points that do not concern the editions. -/
theorem skip_of_preserves (hc : Preserves State.editions c) (h : Returns c s u s') :
    s.editions.Move order s'.editions := by
  rw [hc.eq h]
  exact .skip

/-- **Every invocation makes one move**, with the order it places. -/
theorem op_moves (h : Returns (op.exec dep env) s u s') : s.editions.Move op.order s'.editions := by
  cases op with
  | registerEdition => exact registerEdition_move h
  | redeem => exact .redeem rfl (order_redeems rfl h)
  | redeemBatch => exact .redeem rfl (order_redeems rfl h)
  | burn => exact burn_move h
  | _ =>
    refine skip_of_preserves ?_ h
    unfold Op.exec
    infer_instance

/-- So does every step of a run; an invocation that fails does nothing. -/
theorem step_moves (dep : Deployment) (s : State) (call : Env × Op) :
    s.editions.Move call.2.order (step dep s call).editions := by
  unfold step
  split
  · rename_i u s' h
    exact op_moves h
  · exact .skip

end Ops

end ElcareHub.LazyMint1155
