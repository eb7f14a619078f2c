import ElcareHub.Collections.LazyMint721
import ElcareHub.Collections.Vouchers.Register

/-!
# What an invocation can do to the tokens of a lazy collection

`Tokens` is the part of the state that says which token is whose, with the counters kept beside it
and the voucher register. `Tokens.Move vs` are the moves an invocation that presents the vouchers `vs`
can make on it. A redemption mints for every voucher presented, in order: what has been *checked* by
then is that every nonce was live before the first mint and that no two vouchers name one token.
-/

namespace ElcareHub.LazyMint721

open Collection Call

variable {max nextStart next k : Nat} {seen ids : List Nat} {op : Op}

/-- The vouchers an invocation presents, with their signatures. -/
def Op.items : Op → List BatchVoucherItem
  | .redeem _ v signature merkleProof => [⟨v, signature, merkleProof⟩]
  | .redeemBatch _ items => items
  | _ => []

variable {i n nextId : Nat} {a buyer creator src dst : Address} {v : MintVoucher} {pubkey : Bytes}
  {items : List BatchVoucherItem}

/-! ### Tokens and moves -/

structure Tokens where
  register : Register
  owner : Nat → Option Address
  balanceOf : Address → Nat
  totalSupply : Nat

def State.tokens (s : State) : Tokens where
  register := s.lazyBase.register
  owner := s.owner
  balanceOf := s.balanceOf
  totalSupply := s.totalSupply

/-- The redemption of a voucher. -/
def MintVoucher.redemption (buyer : Address) (v : MintVoucher) : Redemption :=
  ⟨buyer, v.tokenId, v.nonce, 1⟩

namespace Tokens

def setOwner (t : Tokens) (i : Nat) (owner : Address) : Tokens :=
  { t with owner := Function.update t.owner i (some owner) }

def setBalance (t : Tokens) (account : Address) (n : Nat) : Tokens :=
  { t with balanceOf := Function.update t.balanceOf account n }

def setRegister (t : Tokens) (register : Register) : Tokens := { t with register }

def setSupply (t : Tokens) (n : Nat) : Tokens := { t with totalSupply := n }

/-- The token a voucher names is minted to `buyer`. -/
def mint (buyer : Address) (t : Tokens) (v : MintVoucher) : Tokens :=
  (((t.setOwner v.tokenId buyer).setBalance buyer (t.balanceOf buyer + 1)).setSupply
    (t.totalSupply + 1)).setRegister (t.register.redeem (v.redemption buyer))

def transfer (t : Tokens) (src dst : Address) (i : Nat) : Tokens :=
  let t' := t.setBalance src (t.balanceOf src - 1)
  (t'.setBalance dst (t'.balanceOf dst + 1)).setOwner i dst

/-- What a redemption of the vouchers `vs` does, and what has been checked before. -/
structure Redeems (vs : List MintVoucher) (t t' : Tokens) : Prop where
  installed : t.register.installed = true
  live : ∀ v ∈ vs, t.register.Live v.nonce
  ids : (vs.map MintVoucher.tokenId).Nodup
  mints : ∃ buyer, t' = vs.foldl (mint buyer) t

/-- One invocation that presents the vouchers `vs`. -/
inductive Move (vs : List MintVoucher) (t : Tokens) : Tokens → Prop
  | skip : Move vs t t
  | setUp (hfresh : t.register.initialized = false) :
      Move vs t
        { t with
          register := { t.register with initialized := true, installed := true }
          totalSupply := 0 }
  | redeem {t' : Tokens} (h : Redeems vs t t') : Move vs t t'
  | revoke (nonces : List Nat) (hunused : ∀ n ∈ nonces, t.register.used n = false) :
      Move vs t (t.setRegister (t.register.revoke nonces))
  | transfer (src dst : Address) (i : Nat) (howner : t.owner i = some src) :
      Move vs t (t.transfer src dst i)

end Tokens

/-- The entry points that redeem vouchers. -/
def Op.isRedemption : Op → Bool
  | .redeem .. | .redeemBatch .. => true
  | _ => false

/-- The vouchers an invocation presents. -/
def Op.vouchers : Op → List MintVoucher
  | .redeem _ v _ _ => [v]
  | .redeemBatch _ items => items.map BatchVoucherItem.voucher
  | _ => []

theorem vouchers_eq_items (op : Op) : op.vouchers = op.items.map BatchVoucherItem.voucher := by
  cases op <;> rfl

/-! ### Calls that leave the tokens alone -/

section Frames

variable {τ : Type} {dep : Deployment} {env : Env}

instance (c : Call (Fault Error) LazyBase α)
    [Preserves LazyBase.register c] : Preserves State.tokens (onLazy c) :=
  .zoom LazyBase.register fun s l hregister => by simp only [State.tokens, hregister]

instance (g : State → Nat → Option Address) :
    Preserves State.tokens (update fun s => { s with approved := g s } : Tx Unit) :=
  .update fun _ => rfl

instance (g : State → Nat → Option String) :
    Preserves State.tokens (update fun s => { s with tokenUri := g s } : Tx Unit) :=
  .update fun _ => rfl

instance :
    Preserves State.tokens (update fun s => { s with nextTokenId := n } : Tx Unit) :=
  .update fun _ => rfl

end Frames

/-! ### The parts of the entry points -/

section Parts

variable {dep : Deployment} {env : Env} {s s' : State} {u : Unit}

theorem setOwner_tokens (h : Returns (setOwner i a) s u s') : s'.tokens = s.tokens.setOwner i a := by
  rw [← h.update]
  rfl

theorem setBalance_tokens (h : Returns (setBalance a n) s u s') :
    s'.tokens = s.tokens.setBalance a n := by
  rw [← h.update]
  rfl

/-- A balance that is read is that of the tokens. -/
theorem returns_balance (e : s.tokens = t)
    (h : Returns (view fun s => s.balanceOf a : Tx Nat) s n s') :
    n = t.balanceOf a ∧ s'.tokens = t := by
  obtain ⟨rfl, rfl⟩ := h.read
  exact ⟨congrFun (congrArg Tokens.balanceOf e) a, e⟩

/-- What is checked of an item: its nonce is live, and its voucher signed. -/
def Checked (dep : Deployment) (pubkey : Bytes) (s : State) (item : BatchVoucherItem) : Prop :=
  s.tokens.register.Live item.voucher.nonce ∧
    dep.crypto.ed25519Verify pubkey (voucherDigest dep s.lazyBase.networkPassphrase item.voucher)
      item.signature = true

/-- A voucher passes while the id it is checked with is below the cap. -/
theorem returns_checkVoucher (item : BatchVoucherItem)
    (h : Returns (checkVoucher dep env item.voucher item.signature pubkey max nextId) s u s') :
    Checked dep pubkey s item ∧ nextId < max ∧ s = s' := by
  obtain ⟨s1, hcheck, h⟩ := h.seq
  obtain ⟨l, hfirst, rfl⟩ := hcheck.zoom
  obtain ⟨hlive, rfl⟩ := returns_checkVoucherLive hfirst
  simp only [onLazy, returns_bind, returns_abortIf, returns_zoom] at h
  obtain ⟨-, s2, ⟨hroom, rfl⟩, p, s3, ⟨rfl, rfl⟩, l, ⟨hsigned, rfl⟩, rfl⟩ := h
  exact ⟨⟨hlive, by simpa using hsigned⟩, Nat.lt_of_not_le hroom, rfl⟩

/-- Phase 1 of `redeem_batch` reads only. Every nonce is live in the state before the batch; that they
differ from each other is not checked. -/
theorem returns_validateItems
    (h : Returns (validateItems dep env buyer pubkey max nextStart seen n items) s u s') :
    (∀ item ∈ items, Checked dep pubkey s item) ∧
      (seen.Nodup → (seen ++ (items.map BatchVoucherItem.voucher).map MintVoucher.tokenId).Nodup) ∧
        s = s' := by
  induction items generalizing seen n s with
  | nil =>
    obtain ⟨-, rfl⟩ := h.pure
    exact ⟨by simp, by simp, rfl⟩
  | cons item items ih =>
    obtain ⟨hnew, h⟩ := h.check
    obtain ⟨_, h⟩ := h.pass
    obtain ⟨s1, hcheck, h⟩ := h.seq
    obtain ⟨hchecked, -, rfl⟩ := returns_checkVoucher item hcheck
    obtain ⟨hrest, hids, rfl⟩ := ih h
    refine ⟨List.forall_mem_cons.mpr ⟨hchecked, hrest⟩, fun hseen => ?_, rfl⟩
    have hext : (seen ++ [item.voucher.tokenId]).Nodup := by
      refine List.nodup_append.mpr ⟨hseen, by simp, ?_⟩
      rintro i hi j hj rfl
      exact hnew (List.mem_singleton.mp hj ▸ hi)
    simpa using hids hext

theorem saturatingAdd_last (h : saturatingAddU64 next k < max) :
    saturatingAddU64 next (saturatingAddU64 k 0) < max := by
  unfold saturatingAddU64 at h ⊢
  omega

/-- Phase 1 of `redeem_batch` counts on from the next id; the last item is the one that decides. -/
theorem room_of_validateItems
    (h : Returns (validateItems dep env buyer pubkey max nextStart seen n items) s u s')
    (hsome : items ≠ []) :
    saturatingAddU64 nextStart (saturatingAddU64 n (items.length - 1)) < max := by
  induction items generalizing seen n s with
  | nil => exact absurd rfl hsome
  | cons item items ih =>
    obtain ⟨s1, -, h⟩ := h.seq
    obtain ⟨s2, -, h⟩ := h.seq
    obtain ⟨s3, hcheck, h⟩ := h.seq
    have hitem := (returns_checkVoucher item hcheck).2.1
    by_cases hlast : items = []
    · subst hlast
      exact saturatingAdd_last hitem
    · -- counting one by one comes to the same as counting at once
      have hroom := ih h hlast
      rw [List.length_cons]
      unfold saturatingAddU64 at hroom ⊢
      generalize u64Max = top at hroom ⊢
      omega

/-- The event of a redemption goes on record. -/
theorem redeemed_tokens (h : Returns (emit (.redeemed creator buyer i n k)) s u s') :
    s'.tokens = s.tokens.setRegister { s.tokens.register with
      redemptions := s.tokens.register.redemptions ++ [⟨buyer, i, n, k⟩] } := by
  obtain ⟨l, ⟨b, rfl, rfl⟩, rfl⟩ := h
  simp [State.tokens, Tokens.setRegister, Event.redemption]

/-- A mint and the event that reports it. -/
theorem mintToken_tokens (h : Returns (mintToken buyer v.tokenId v.nonce v.uri nextId) s u s1)
    (hevent : Returns (emit (.redeemed creator buyer v.tokenId v.nonce 1)) s1 u s') :
    s'.tokens = s.tokens.mint buyer v := by
  obtain ⟨s2, hown, h⟩ := h.seq
  have e2 := setOwner_tokens hown
  obtain ⟨_, s3, e3, h⟩ := h.skip e2
  obtain ⟨s4, hused, h⟩ := h.seq
  have e4 : s4.tokens = s3.tokens.setRegister { s3.tokens.register with
      used := Function.update s3.tokens.register.used v.nonce true } := by
    obtain ⟨l, hl, rfl⟩ := hused.zoom
    rw [← hl.update]
    rfl
  obtain ⟨bal, s5, hbal, h⟩ := h.bind
  obtain ⟨rfl, e5⟩ := returns_balance e4 hbal
  obtain ⟨-, h⟩ := returns_addUpTo_bind.mp h
  obtain ⟨s6, hset, h⟩ := h.seq
  have e6 := setBalance_tokens hset
  obtain ⟨-, h⟩ := returns_addUpTo_bind.mp h
  obtain ⟨s7, hset, h⟩ := h.seq
  have e7 : s7.tokens = s6.tokens.setSupply (s6.tokens.totalSupply + 1) := by
    rw [← hset.update]
    rfl
  have e1 := h.last e7
  rw [redeemed_tokens hevent, e1, e6, e5, e3]
  rfl

/-- Phase 4 of `redeem_batch` mints for every item, in order. -/
theorem mintItems_tokens (h : Returns (mintItems creator buyer nextId items) s ids s') :
    s'.tokens = (items.map BatchVoucherItem.voucher).foldl (Tokens.mint buyer) s.tokens := by
  induction items generalizing nextId ids s with
  | nil =>
    obtain ⟨-, rfl⟩ := h.pure
    rfl
  | cons item items ih =>
    obtain ⟨s1, hmint, h⟩ := h.seq
    obtain ⟨s2, hevent, h⟩ := h.seq
    obtain ⟨ids', s3, hrest, h⟩ := h.bind
    obtain ⟨-, rfl⟩ := h.pure
    rw [ih hrest, mintToken_tokens hmint hevent]
    rfl

theorem transferToken_tokens (h : Returns (transferToken src dst i) s u s') :
    s.tokens.owner i = some src ∧ s'.tokens = s.tokens.transfer src dst i := by
  obtain ⟨_, s1, e1, h⟩ := h.skip (f := State.tokens) rfl
  obtain ⟨a, s2, hfound, h⟩ := h.bind
  obtain ⟨howner, rfl⟩ : s1.owner i = some a ∧ s1 = s2 := by simpa using hfound
  obtain ⟨hsrc, h⟩ := h.check
  obtain rfl : a = src := by simpa using hsrc
  obtain ⟨bal, s2, hbal, h⟩ := h.bind
  obtain ⟨rfl, e2⟩ := returns_balance e1 hbal
  obtain ⟨-, h⟩ := h.check
  obtain ⟨s3, hset, h⟩ := h.seq
  have e3 := (setBalance_tokens hset).trans (congrArg (Tokens.setBalance · _ _) e2)
  obtain ⟨bal', s4, hbal', h⟩ := h.bind
  obtain ⟨rfl, e4⟩ := returns_balance e3 hbal'
  obtain ⟨-, h⟩ := returns_addUpTo_bind.mp h
  obtain ⟨s6, hset', h⟩ := h.seq
  have e6 := setBalance_tokens hset'
  obtain ⟨s7, hown, h⟩ := h.seq
  refine ⟨(congrFun (congrArg Tokens.owner e1) i).symm.trans howner, ?_⟩
  rw [h.last (setOwner_tokens hown), e6, e4]
  rfl

end Parts

/-! ### Entry points -/

section Ops

variable {dep : Deployment} {env : Env} {s s' : State} {u : Unit} {vs : List MintVoucher}

theorem initializeCollection_move
    (h : Returns (initializeCollection creator pubkey name symbol maxSupply bps receiver feeReceiver
      feeBps passphrase) s u s') : s.tokens.Move vs s'.tokens := by
  simp only [returns_bind, returns_abortIf, returns_update] at h
  obtain ⟨init, s1, ⟨rfl, rfl⟩, -, s2, ⟨hfresh, rfl⟩, -, s3, ⟨-, s4, ⟨-, rfl⟩, -, rfl⟩, -, s5,
    ⟨-, s6, ⟨-, rfl⟩, -, rfl⟩, -, s7, ⟨-, rfl⟩, -, s8, ⟨-, rfl⟩, -, s9,
    ⟨l, ⟨-, l', ⟨b, rfl, rfl⟩, rfl⟩, rfl⟩, rfl⟩ := h
  exact .setUp (eq_false_of_ne_true hfresh)

/-- The phases of a redemption: what has been checked, the payment, which leaves the register alone, and
the mints. -/
structure Phases (dep : Deployment) (op : Op) (s s' : State) : Prop where
  installed : s.tokens.register.installed = true
  checked : ∃ pubkey, ∀ item ∈ op.items, Checked dep pubkey s item
  ids : (op.vouchers.map MintVoucher.tokenId).Nodup
  room : s.maxSupply.getD u64Max ≤ u64Max → s.nextTokenId + op.items.length ≤ s.maxSupply.getD u64Max
  minted : ∃ creator buyer paid ids, paid.register = s.lazyBase.register ∧
    Returns (mintItems creator buyer s.nextTokenId op.items) { s with lazyBase := paid } ids s'

theorem redeem_phases (h : Returns (redeem dep env buyer v signature proof) s i s') :
    Phases dep (.redeem buyer v signature proof) s s' := by
  obtain ⟨-, h⟩ := h.check
  obtain ⟨_, h⟩ := h.pass
  replace h := h.view
  obtain ⟨pubkey, -, h⟩ := h.found
  replace h := h.view.view
  obtain ⟨s1, hcheck, h⟩ := h.seq
  obtain ⟨hchecked, hroom, rfl⟩ := returns_checkVoucher ⟨v, signature, proof⟩ hcheck
  obtain ⟨creator, hcreator, h⟩ := h.found
  obtain ⟨s1, hpay, h⟩ := h.seq
  obtain ⟨paid, hpaid, rfl⟩ := hpay.zoom
  obtain ⟨s2, hmint, h⟩ := h.seq
  obtain ⟨s3, hevent, h⟩ := h.seq
  obtain ⟨-, rfl⟩ := h.pure
  refine ⟨Option.isSome_iff_exists.mpr ⟨creator, hcreator⟩,
    ⟨pubkey, List.forall_mem_singleton.mpr hchecked⟩, by simp [Op.vouchers], fun _ => hroom,
    creator, buyer, paid, [v.tokenId], Preserves.eq hpaid, ?_⟩
  refine returns_seq.mpr ⟨s2, hmint, returns_seq.mpr ⟨s3, hevent, ?_⟩⟩
  exact returns_bind.mpr ⟨[], s3, returns_pure.mpr ⟨rfl, rfl⟩, returns_pure.mpr ⟨rfl, rfl⟩⟩

theorem redeemBatch_phases (h : Returns (redeemBatch dep env buyer items) s ids s') :
    Phases dep (.redeemBatch buyer items) s s' := by
  obtain ⟨-, h⟩ := h.check
  obtain ⟨hsome, h⟩ := h.check
  obtain ⟨-, h⟩ := h.check
  replace h := h.view
  obtain ⟨pubkey, -, h⟩ := h.found
  replace h := h.view.view
  obtain ⟨creator, hcreator, h⟩ := h.found
  obtain ⟨s1, hvalid, h⟩ := h.seq
  have hroom := room_of_validateItems hvalid fun hnil => hsome (by rw [hnil]; rfl)
  obtain ⟨hchecked, hids, rfl⟩ := returns_validateItems hvalid
  obtain ⟨s1, hpay, h⟩ := h.seq
  obtain ⟨paid, hpaid, rfl⟩ := hpay.zoom
  refine ⟨Option.isSome_iff_exists.mpr ⟨creator, hcreator⟩, ⟨pubkey, hchecked⟩,
    hids List.nodup_nil, fun hproper => ?_, creator, buyer, paid, ids,
    Preserves.eq hpaid, h⟩
  change s.nextTokenId + items.length ≤ s.maxSupply.getD u64Max
  unfold saturatingAddU64 at hroom
  omega

theorem redemption_phases (hop : op.isRedemption = true) (h : Returns (op.exec dep env) s u s') :
    Phases dep op s s' := by
  cases op with
  | redeem =>
    obtain ⟨i, h⟩ := h.discard
    exact redeem_phases h
  | redeemBatch =>
    obtain ⟨ids, h⟩ := h.discard
    exact redeemBatch_phases h
  | _ => cases hop

theorem redemption_redeems (hop : op.isRedemption = true) (h : Returns (op.exec dep env) s u s') :
    Tokens.Redeems op.vouchers s.tokens s'.tokens := by
  have hphases := redemption_phases hop h
  obtain ⟨pubkey, hchecked⟩ := hphases.checked
  obtain ⟨creator, buyer, paid, ids, hpaid, hminted⟩ := hphases.minted
  refine ⟨hphases.installed, ?_, hphases.ids, buyer, ?_⟩
  · rw [vouchers_eq_items]
    exact List.forall_mem_map.mpr fun item hitem => (hchecked item hitem).1
  · rw [mintItems_tokens hminted, vouchers_eq_items]
    simp only [State.tokens, hpaid]

theorem revoke_move (hc : ∀ {l u l'}, Returns c l u l' →
      (∀ n ∈ nonces, l.register.used n = false) ∧ l'.register = l.register.revoke nonces)
    (h : Returns (onLazy c) s u s') : s.tokens.Move vs s'.tokens := by
  obtain ⟨l, hl, rfl⟩ := h.zoom
  obtain ⟨hunused, hregister⟩ := hc hl
  have hmove : s.tokens.Move vs _ := .revoke nonces hunused
  simpa only [State.tokens, Tokens.setRegister, hregister] using hmove

theorem transfer_move (h : Returns (transfer env src dst i) s u s') : s.tokens.Move vs s'.tokens := by
  obtain ⟨-, h⟩ := h.check
  obtain ⟨howner, htokens⟩ := transferToken_tokens h
  rw [htokens]
  exact .transfer src dst i howner

theorem transferFrom_move
    (h : Returns (transferFrom env spender src dst i) s u s') : s.tokens.Move vs s'.tokens := by
  obtain ⟨_, _, _, s3, e, h⟩ := h.skip₃ (f := State.tokens) rfl
  obtain ⟨howner, htokens⟩ := transferToken_tokens h
  rw [htokens, e]
  exact .transfer src dst i (e ▸ howner)

/-! ### Every entry point makes one move -/

/-- The entry points that do not concern the tokens. -/
theorem skip_of_preserves (hc : Preserves State.tokens c) (h : Returns c s u s') :
    s.tokens.Move vs s'.tokens := by
  rw [hc.eq h]
  exact .skip

/-- **Every invocation makes one move**, with the vouchers it presents. -/
theorem op_moves (h : Returns (op.exec dep env) s u s') : s.tokens.Move op.vouchers s'.tokens := by
  cases op with
  | initializeCollection => exact initializeCollection_move h
  | redeem => exact .redeem (redemption_redeems rfl h)
  | redeemBatch => exact .redeem (redemption_redeems rfl h)
  | revokeVoucher n => exact revoke_move revokeVoucher_register h
  | revokeVouchers ns => exact revoke_move revokeVouchers_register h
  | transfer => exact transfer_move h
  | transferFrom => exact transferFrom_move h
  | _ =>
    refine skip_of_preserves ?_ h
    unfold Op.exec
    infer_instance

/-- So does every step of a run; an invocation that fails does nothing. -/
theorem step_moves (dep : Deployment) (s : State) (call : Env × Op) :
    s.tokens.Move call.2.vouchers (step dep s call).tokens := by
  unfold step
  split
  · rename_i u s' h
    exact op_moves h
  · exact .skip

/-- A redemption in a run that fails leaves the state alone. -/
theorem step_redemption (dep : Deployment) (s : State) (hop : c.2.isRedemption = true) :
    step dep s c = s ∨ Tokens.Redeems c.2.vouchers s.tokens (step dep s c).tokens := by
  unfold step
  split
  · rename_i u s' h
    exact .inr (redemption_redeems hop h)
  · exact .inl rfl

end Ops

end ElcareHub.LazyMint721
