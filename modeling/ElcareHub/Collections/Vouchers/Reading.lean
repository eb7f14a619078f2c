import ElcareHub.Collections.Metadata
import ElcareHub.Lib.Avoid

/-!
# What a voucher says

A voucher is read twice. Its fields are put one behind the other and signed; where the encodings of
strings and addresses say where they end, nothing but the fields that are signed can have led to the
bytes that are (`eq_of_voucherBytes`, of both contracts). And its validity is compared with the ledger, by
`check_voucher` in 32 bits and by `voucher_expiry_info` in 64.
-/

namespace ElcareHub.Collection

variable {width m n : Nat} {x y signature pubkey : Bytes} {p q : Option String} {c : Crypto}
  {a b : Address} {v : MintVoucher1155} {dep : Deployment} {env : Env} {s : State}

/-! ### Fields -/

/-- The bytes of a number are its digits. -/
theorem mod_eq_of_beBytes (h : beBytes width m = beBytes width n) :
    m % 256 ^ width = n % 256 ^ width := by
  have hdigit (j : Nat) (hj : j < width) : m / 256 ^ j % 256 = n / 256 ^ j % 256 := by
    have hbyte := List.map_inj_left.mp h (width - 1 - j) (List.mem_range.mpr (by omega))
    rw [show width - 1 - (width - 1 - j) = j by omega] at hbyte
    simpa using congrArg UInt8.toNat hbyte
  clear h
  induction width with
  | zero => simp [Nat.mod_one]
  | succ k ih =>
    rw [Nat.mod_pow_succ, Nat.mod_pow_succ, ih fun j hj => hdigit j (by omega), hdigit k (by omega)]

/-- A number that fits its field is taken off. -/
theorem beBytes_field (hm : m < 256 ^ width) (hn : n < 256 ^ width)
    (h : beBytes width m ++ x = beBytes width n ++ y) : m = n ∧ x = y := by
  obtain ⟨hbytes, hrest⟩ := beBytes_split h
  have hmod := mod_eq_of_beBytes hbytes
  rw [Nat.mod_eq_of_lt hm, Nat.mod_eq_of_lt hn] at hmod
  exact ⟨hmod, hrest⟩

theorem beBytesI128_field {p q : Int} (hp : i128Min ≤ p ∧ p ≤ i128Max)
    (hq : i128Min ≤ q ∧ q ≤ i128Max) (h : beBytesI128 p ++ x = beBytesI128 q ++ y) :
    p = q ∧ x = y := by
  obtain ⟨hmod, hrest⟩ := beBytes_field (by omega) (by omega) h
  simp only [i128Min, i128Max] at hp hq
  exact ⟨by omega, hrest⟩

/-- The encoding is injective, and no encoding begins another. -/
def PrefixFree {α : Type} (enc : α → Bytes) : Prop :=
  ∀ {a b : α} {x y : Bytes}, enc a ++ x = enc b ++ y → a = b ∧ x = y

/-- One signature validates both digests. -/
def Crypto.SharesSignature (c : Crypto) (d d' : Bytes) : Prop :=
  ∃ k k' signature, c.ed25519Verify k d signature = true ∧ c.ed25519Verify k' d' signature = true

theorem Crypto.Ideal.eq_of_shared (hc : c.Ideal) (h : c.SharesSignature (c.sha256 x) (c.sha256 y)) :
    x = y := by
  obtain ⟨k, k', signature, hx, hy⟩ := h
  exact hc.collisionFree (hc.unforgeable hx hy)

end ElcareHub.Collection

namespace ElcareHub.LazyMint721

open Collection Call

/-- The fields are of the types they have in the contract. -/
structure MintVoucher.Fits (v : MintVoucher) : Prop where
  nonce : v.nonce < 256 ^ 8
  tokenId : v.tokenId < 256 ^ 8
  price : i128Min ≤ v.price ∧ v.price ≤ i128Max
  validUntil : v.validUntil < 256 ^ 8
  uriHash : v.uriHash.length = 32

theorem eq_of_voucherBytes (hstring : PrefixFree c.stringXdr) (haddress : PrefixFree c.addressXdr)
    (hv : v.Fits) (hw : w.Fits)
    (h : voucherBytes ⟨a, c⟩ p v = voucherBytes ⟨b, c⟩ q w) :
    p.getD "" = q.getD "" ∧ a = b ∧ v = { w with uri := v.uri } := by
  simp only [voucherBytes, List.append_assoc] at h
  obtain ⟨hpassphrase, h⟩ := hstring h
  obtain ⟨hself, h⟩ := haddress h
  obtain ⟨hnonce, h⟩ := beBytes_field hv.nonce hw.nonce h
  obtain ⟨htokenId, h⟩ := beBytes_field hv.tokenId hw.tokenId h
  obtain ⟨hprice, h⟩ := beBytesI128_field hv.price hw.price h
  obtain ⟨hvalidUntil, h⟩ := beBytes_field hv.validUntil hw.validUntil h
  obtain ⟨huriHash, h⟩ := List.append_inj h (hv.uriHash.trans hw.uriHash.symm)
  obtain ⟨hcurrency, -⟩ := haddress (congrArg (· ++ []) h)
  refine ⟨hpassphrase, hself, ?_⟩
  rw [← htokenId, ← hnonce, ← hprice, ← hcurrency, ← huriHash, ← hvalidUntil]

/-- `check_voucher` reports that a voucher has expired, whatever else may be wrong with it. -/
theorem checkVoucher_expired_iff {max : Nat} :
    checkVoucher dep env v signature pubkey max nextId s = .error (.contract .voucherExpired) ↔
      voucherExpired env.sequence v.validUntil = true := by
  simp [onLazy, bind_eq_error, abortIf_eq_error, zoom_eq_error, view, errors]

end ElcareHub.LazyMint721

namespace ElcareHub.LazyMint1155

open Collection Call

/-- The fields are of the types they have in the contract. -/
structure MintVoucher1155.Fits (v : MintVoucher1155) : Prop where
  tokenId : v.tokenId < 256 ^ 8
  nonce : v.nonce < 256 ^ 8
  buyerQuota : v.buyerQuota < 256 ^ 16
  pricePerUnit : i128Min ≤ v.pricePerUnit ∧ v.pricePerUnit ≤ i128Max
  validUntil : v.validUntil < 256 ^ 8
  uriHash : v.uriHash.length = 32

theorem eq_of_voucherBytes (hstring : PrefixFree c.stringXdr) (haddress : PrefixFree c.addressXdr)
    (hv : v.Fits) (hw : w.Fits)
    (h : voucherBytes ⟨a, c⟩ p v = voucherBytes ⟨b, c⟩ q w) :
    p.getD "" = q.getD "" ∧ a = b ∧ v = { w with uri := v.uri } := by
  simp only [voucherBytes, List.append_assoc] at h
  obtain ⟨hpassphrase, h⟩ := hstring h
  obtain ⟨hself, h⟩ := haddress h
  obtain ⟨htokenId, h⟩ := beBytes_field hv.tokenId hw.tokenId h
  obtain ⟨hnonce, h⟩ := beBytes_field hv.nonce hw.nonce h
  obtain ⟨hquota, h⟩ := beBytes_field hv.buyerQuota hw.buyerQuota h
  obtain ⟨hprice, h⟩ := beBytesI128_field hv.pricePerUnit hw.pricePerUnit h
  obtain ⟨hvalidUntil, h⟩ := beBytes_field hv.validUntil hw.validUntil h
  obtain ⟨huriHash, h⟩ := List.append_inj h (hv.uriHash.trans hw.uriHash.symm)
  obtain ⟨hcurrency, -⟩ := haddress (congrArg (· ++ []) h)
  refine ⟨hpassphrase, hself, ?_⟩
  rw [← htokenId, ← hnonce, ← hquota, ← hprice, ← hcurrency, ← huriHash, ← hvalidUntil]

theorem checkVoucher_expired_iff :
    checkVoucher dep env v amount signature pubkey buyer s = .error (.contract .voucherExpired) ↔
      voucherExpired env.sequence v.validUntil = true := by
  simp [onLazy, addUpTo,
    bind_eq_error, abortIf_eq_error, orAbort_eq_error, zoom_eq_error, view, errors]

end ElcareHub.LazyMint1155

namespace ElcareHub.Collection

open Call

/-! ### Digests -/

/-- **Digests.** Two vouchers for which the same bytes are hashed, or which one signature validates, agree
in all but the URI, which is not signed, and so do the contracts they are for and their networks. -/
theorem voucher_digest_injective (c : Crypto) (hstring : PrefixFree c.stringXdr)
    (haddress : PrefixFree c.addressXdr) (a b : Address) (p q : Option String) :
    (∀ v w : LazyMint721.MintVoucher, v.Fits → w.Fits →
      LazyMint721.voucherBytes ⟨a, c⟩ p v = LazyMint721.voucherBytes ⟨b, c⟩ q w ∨
        c.Ideal ∧ c.SharesSignature (LazyMint721.voucherDigest ⟨a, c⟩ p v)
          (LazyMint721.voucherDigest ⟨b, c⟩ q w) →
      p.getD "" = q.getD "" ∧ a = b ∧ v = { w with uri := v.uri }) ∧
    ∀ v w : LazyMint1155.MintVoucher1155, v.Fits → w.Fits →
      LazyMint1155.voucherBytes ⟨a, c⟩ p v = LazyMint1155.voucherBytes ⟨b, c⟩ q w ∨
        c.Ideal ∧ c.SharesSignature (LazyMint1155.voucherDigest ⟨a, c⟩ p v)
          (LazyMint1155.voucherDigest ⟨b, c⟩ q w) →
      p.getD "" = q.getD "" ∧ a = b ∧ v = { w with uri := v.uri } := by
  constructor
  · intro v w hv hw h
    have hbytes := h.elim id fun h => h.1.eq_of_shared h.2
    exact LazyMint721.eq_of_voucherBytes hstring haddress hv hw hbytes
  · intro v w hv hw h
    have hbytes := h.elim id fun h => h.1.eq_of_shared h.2
    exact LazyMint1155.eq_of_voucherBytes hstring haddress hv hw hbytes

/-- A one before every byte, and a zero at the end. -/
def delimited (bytes : Bytes) : Bytes := bytes.flatMap (fun byte => [1, byte]) ++ [0]

theorem delimited_prefixFree : PrefixFree delimited := by
  intro bytes
  induction bytes with
  | nil =>
    intro bytes' x y h
    cases bytes' <;> simp_all [delimited]
  | cons byte bytes ih =>
    intro bytes' x y h
    cases bytes' with
    | nil => simp [delimited] at h
    | cons byte' bytes' =>
      simp only [delimited, List.flatMap_cons, List.cons_append, List.cons.injEq, true_and] at h
      obtain ⟨rfl, hrest⟩ := ih h.2
      exact ⟨by rw [h.1], hrest⟩

/-- A host whose encodings are delimited. -/
def Crypto.delimiting : Crypto :=
  { Crypto.plain with
    addressXdr := fun a => delimited (List.replicate a.num 0)
    stringXdr := fun p => delimited (uriBytes p) }

/-- What is signed for one contract is not what is signed for another. -/
theorem voucher_digest_injective_twoContracts :
    let v := voucherFor (List.replicate 32 7) "ipfs"
    LazyMint721.voucherBytes ⟨⟨1⟩, .delimiting⟩ none v ≠
      LazyMint721.voucherBytes ⟨⟨2⟩, .delimiting⟩ none v := by
  intro v h
  have hfits : v.Fits := ⟨by decide, by decide, by decide, by decide, rfl⟩
  have hstring : PrefixFree Crypto.delimiting.stringXdr := fun {_ _ _ _} h =>
    (delimited_prefixFree h).imp_left (uriBytes_injective ·)
  have haddress : PrefixFree Crypto.delimiting.addressXdr := fun {a b _ _} h =>
    (delimited_prefixFree h).imp_left fun h => by
      cases a; cases b; simpa using congrArg List.length h
  exact absurd ((voucher_digest_injective _ hstring haddress _ _ _ _).1 v v hfits hfits (.inl h)).2.1
    (by decide)

/-! ### Expiry -/

/-- `voucher_expiry_info`, of both contracts. -/
def voucherExpiryInfo (sequence validUntil : Nat) : Nat × Bool :=
  (sequence, validUntil ≠ 0 && decide (validUntil < sequence))

theorem voucherExpired_iff_info {sequence : Nat} (hsequence : sequence < 2 ^ 32) :
    (voucherExpired sequence validUntil = true ↔ (voucherExpiryInfo sequence validUntil).2 = true) ↔
      validUntil < 2 ^ 32 ∨ sequence ≤ validUntil % 2 ^ 32 := by
  simp only [voucherExpired, voucherExpiryInfo, Bool.and_eq_true, decide_eq_true_eq]
  omega

/-- **Expiry.** In both contracts a redemption reports that a voucher has expired exactly where
`voucher_expiry_info` does, as long as the validity fits 32 bits, or its lowest 32 bits are not before the
ledger. -/
theorem expiry_verdicts_agree_iff (dep : Deployment) (env : Env) (hsequence : env.sequence < 2 ^ 32) :
    (∀ (v : LazyMint721.MintVoucher) (signature pubkey : Bytes) (max nextId : Nat)
        (s : LazyMint721.State), (LazyMint721.checkVoucher dep env v signature pubkey max nextId s =
          .error (.contract .voucherExpired) ↔
        (voucherExpiryInfo env.sequence v.validUntil).2 = true) ↔
      v.validUntil < 2 ^ 32 ∨ env.sequence ≤ v.validUntil % 2 ^ 32) ∧
    ∀ (v : LazyMint1155.MintVoucher1155) (amount : Nat) (signature pubkey : Bytes) (buyer : Address)
        (s : LazyMint1155.State),
      (LazyMint1155.checkVoucher dep env v amount signature pubkey buyer s =
          .error (.contract .voucherExpired) ↔
        (voucherExpiryInfo env.sequence v.validUntil).2 = true) ↔
      v.validUntil < 2 ^ 32 ∨ env.sequence ≤ v.validUntil % 2 ^ 32 := by
  constructor
  · intro v signature pubkey max nextId s
    rw [LazyMint721.checkVoucher_expired_iff]
    exact voucherExpired_iff_info hsequence
  · intro v amount signature pubkey buyer s
    rw [LazyMint1155.checkVoucher_expired_iff]
    exact voucherExpired_iff_info hsequence

/-- The voucher for token 0, valid up to the given ledger. -/
def voucherUntil (validUntil : Nat) : LazyMint721.MintVoucher :=
  { voucherFor (uriBytes "ipfs") "ipfs" with validUntil }

/-- Account 20 calls at ledger 100. -/
def atLedger100 : Env := { Env.signedBy ⟨20⟩ 100 with sequence := 100 }

theorem expiry_verdicts_agree_iff_expired :
    LazyMint721.checkVoucher LazyMint721.collection atLedger100 (voucherUntil 50) [] [] 1 0 onSale721 =
      .error (.contract .voucherExpired) :=
  (((expiry_verdicts_agree_iff LazyMint721.collection atLedger100 (by decide)).1 (voucherUntil 50) [] [] 1
    0 onSale721).mpr (.inl (by decide))).mpr (by decide)

/-- A voucher that is valid for another four billion ledgers is rejected as expired, alone and in a
batch. -/
theorem live_voucher_expired :
    let item := LazyMint721.signed (voucherUntil (2 ^ 32 + 5))
    (voucherExpiryInfo 100 item.voucher.validUntil).2 = false ∧
      LazyMint721.redeem LazyMint721.collection atLedger100 ⟨20⟩ item.voucher item.signature []
        onSale721 = .error (.contract .voucherExpired) ∧
      LazyMint721.redeemBatch LazyMint721.collection atLedger100 ⟨20⟩ [item] onSale721 =
        .error (.contract .voucherExpired) :=
  ⟨by decide, by rfl, by rfl⟩

end ElcareHub.Collection
