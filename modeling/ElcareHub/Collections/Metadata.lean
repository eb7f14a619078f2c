import ElcareHub.Collections.LazyMint721.Tokens
import ElcareHub.Collections.LazyMint1155.Editions

/-!
# Signed metadata

The creator of a lazy collection signs a digest of the voucher that holds, in place of the URI, its hash.
The URI itself is presented with the voucher, and what is presented is stored. That binds the stored
URI to the signature only where the URI is hashed and compared with the signed hash, which neither
contract does: whoever redeems a voucher chooses the URI.

* `LazyMint721` stores the URI of every voucher it redeems, so the stored URI has the signed hash exactly
  where the presented one has (`LazyMint721.binds_iff`).
* `LazyMint1155` stores a URI once for every edition. Whether the hash a voucher is signed with is that of
  the stored URI depends on what is stored already, or on the first item of a batch that names the
  edition (`LazyMint1155.binds_iff`).

Where the hashes are right, a signature determines the URI: it determines the digest, the digest the
bytes that are hashed, and those the hash of the URI (`uriHash_eq_of_digest`).
-/

/-! ### The host functions -/

set_option synthInstance.maxSize 100000000

namespace ElcareHub.Collection

open Call

/-- The bytes of a URI. -/
def uriBytes (uri : String) : Bytes := uri.toByteArray.data.toList

/-- What is assumed of the host: hashes do not collide, a signature is one of a single digest, and the
encoding of a string says where it ends. -/
structure Crypto.Ideal (c : Crypto) : Prop where
  collisionFree : Function.Injective c.sha256
  unforgeable : ∀ {k k' d d' signature : Bytes}, c.ed25519Verify k d signature = true →
    c.ed25519Verify k' d' signature = true → d = d'
  selfDelimiting : ∀ {p q : String} {x y : Bytes}, c.stringXdr p ++ x = c.stringXdr q ++ y → x = y

/-- The URI stored for token `i` hashes to `hash`. -/
def Binds (c : Crypto) (uris : Nat → Option String) (i : Nat) (hash : Bytes) : Prop :=
  ∃ uri, uris i = some uri ∧ c.sha256 (uriBytes uri) = hash

/-- A field of fixed width is taken off. -/
theorem beBytes_split (h : beBytes width m ++ x = beBytes width n ++ y) :
    beBytes width m = beBytes width n ∧ x = y :=
  List.append_inj h (by simp [beBytes])

theorem uriBytes_injective : Function.Injective uriBytes := fun _ _ h =>
  String.toByteArray_inj.mp (ByteArray.ext (Array.toList_inj.mp h))

/-- The URIs stored for one hash are one. -/
theorem Binds.eq (hc : c.Ideal)
    {hash : Bytes} (h : Binds c uris i hash) (h' : Binds c uris' j hash) : uris i = uris' j := by
  obtain ⟨uri, huri, hhash⟩ := h
  obtain ⟨uri', huri', hhash'⟩ := h'
  have hsame : uri = uri' := uriBytes_injective (hc.collisionFree (hhash.trans hhash'.symm))
  rw [huri, huri', hsame]

end ElcareHub.Collection

/-! ### LazyMint721 -/

namespace ElcareHub.LazyMint721

open Collection Call Function

variable {α : Type} {buyer : Address} {v : MintVoucher} {nextId : Nat} {op : Op}
  {item : BatchVoucherItem}

/-- Every voucher presented carries the hash of its URI. -/
def Op.HashesMatch (c : Crypto) (op : Op) : Prop :=
  ∀ item ∈ op.items, c.sha256 (uriBytes item.voucher.uri) = item.voucher.uriHash

variable {dep : Deployment} {env : Env} {s s' : State} {u : Unit}

section Frames

instance tokenUri_onLazy (c : Call (Fault Error) LazyBase α) :
    Preserves State.tokenUri (onLazy c) where
  eq h := by
    obtain ⟨l, -, rfl⟩ := h.zoom
    rfl

instance (c : Call (Fault Error) Base α) : Preserves State.tokenUri (onBase c) := tokenUri_onLazy _

end Frames

/-- A mint stores the URI of the voucher, whatever was stored before. -/
def store (uris : Nat → Option String) (v : MintVoucher) : Nat → Option String :=
  Function.update uris v.tokenId (some v.uri)

theorem mintToken_tokenUri (h : Returns (mintToken buyer v.tokenId v.nonce v.uri nextId) s u s') :
    s'.tokenUri = store s.tokenUri v := by
  obtain ⟨_, s1, e1, h⟩ := h.skip (f := State.tokenUri) rfl
  obtain ⟨s2, hset, h⟩ := h.seq
  have e2 : s2.tokenUri = store s.tokenUri v := by
    rw [← hset.update, ← e1]
    rfl
  exact h.last e2

theorem mintItems_tokenUri (h : Returns (mintItems creator buyer nextId items) s ids s') :
    s'.tokenUri = (items.map BatchVoucherItem.voucher).foldl store s.tokenUri := by
  induction items generalizing nextId ids s with
  | nil =>
    obtain ⟨-, rfl⟩ := h.pure
    rfl
  | cons item items ih =>
    obtain ⟨s1, hmint, h⟩ := h.seq
    have e1 := mintToken_tokenUri hmint
    obtain ⟨_, s2, e2, h⟩ := h.skip e1
    obtain ⟨ids', s3, hrest, h⟩ := h.bind
    obtain ⟨-, rfl⟩ := h.pure
    rw [ih hrest, e2]
    rfl

/-- Vouchers for different tokens do not overwrite each other's URIs. -/
theorem foldl_store {vs : List MintVoucher}
    (hids : (vs.map MintVoucher.tokenId).Nodup) (hv : v ∈ vs) :
    vs.foldl store uris v.tokenId = some v.uri := by
  have hother {vs : List MintVoucher} {uris : Nat → Option String}
      (hnew : v.tokenId ∉ vs.map MintVoucher.tokenId) :
      vs.foldl store uris v.tokenId = uris v.tokenId := by
    induction vs generalizing uris with
    | nil => rfl
    | cons w vs ih =>
      rw [List.map_cons, List.mem_cons, not_or] at hnew
      exact (ih hnew.2).trans (update_of_ne hnew.1 _ _)
  induction vs generalizing uris with
  | nil => cases hv
  | cons w vs ih =>
    obtain ⟨hnew, hids⟩ := List.nodup_cons.mp hids
    rcases List.mem_cons.mp hv with rfl | hv
    · exact (hother hnew).trans (update_self _ _ _)
    · exact ih hids hv

/-- Every voucher that is redeemed has been signed. -/
theorem verified_of_redemption (hop : op.isRedemption = true)
    (h : Returns (op.exec dep env) s u s') (hitem : item ∈ op.items) :
    ∃ pubkey, dep.crypto.ed25519Verify pubkey
      (voucherDigest dep s.lazyBase.networkPassphrase item.voucher) item.signature = true := by
  obtain ⟨pubkey, hchecked⟩ := (redemption_phases hop h).checked
  exact ⟨pubkey, (hchecked item hitem).2⟩

/-- A redemption stores, for every token, the URI presented for it. -/
theorem stored_of_redemption (hop : op.isRedemption = true) (h : Returns (op.exec dep env) s u s')
    (hitem : item ∈ op.items) : s'.tokenUri item.voucher.tokenId = some item.voucher.uri := by
  have hphases := redemption_phases hop h
  obtain ⟨creator, buyer, paid, ids, -, hminted⟩ := hphases.minted
  rw [mintItems_tokenUri hminted]
  refine foldl_store ?_ (List.mem_map_of_mem hitem)
  rw [← vouchers_eq_items]
  exact hphases.ids

/-- The stored URIs have the signed hashes exactly where the presented ones have. -/
theorem binds_iff (hop : op.isRedemption = true) (h : Returns (op.exec dep env) s u s') :
    (∀ item ∈ op.items, Binds dep.crypto s'.tokenUri item.voucher.tokenId item.voucher.uriHash) ↔
      op.HashesMatch dep.crypto := by
  refine forall₂_congr fun item hitem => ?_
  have hstored := stored_of_redemption hop h hitem
  constructor
  · rintro ⟨uri, huri, hhash⟩
    rw [hstored] at huri
    exact Option.some.inj huri ▸ hhash
  · exact fun hhash => ⟨item.voucher.uri, hstored, hhash⟩

/-- The signed digest determines the hash of the URI, which has 32 bytes in every voucher. -/
theorem uriHash_eq_of_digest (hc : dep.crypto.Ideal) (hlength : v.uriHash.length = w.uriHash.length)
    (h : voucherDigest dep p v = voucherDigest dep q w) : v.uriHash = w.uriHash := by
  have hbytes := hc.collisionFree h
  simp only [voucherBytes, List.append_assoc] at hbytes
  have hrest := List.append_cancel_left (hc.selfDelimiting hbytes)
  replace hrest := (beBytes_split hrest).2
  replace hrest := (beBytes_split hrest).2
  replace hrest := (beBytes_split hrest).2
  replace hrest := (beBytes_split hrest).2
  exact (List.append_inj hrest hlength).1

end ElcareHub.LazyMint721

/-! ### LazyMint1155 -/

namespace ElcareHub.LazyMint1155

open Collection Call

variable {α : Type} {buyer creator : Address} {op : Op} {o : Order}

/-- The URI stored for token `i` once the items have been minted: what is stored already, or else what
the first item that names the token presents. -/
def resolvedUri (uris : Nat → Option String) (items : List BatchVoucherItem1155) (i : Nat) :
    Option String :=
  (uris i).or ((items.find? fun item => decide (item.voucher.tokenId = i)).map (·.voucher.uri))

/-- Every item of the order is signed with the hash of the URI its token then has. -/
def Order.HashesMatch (c : Crypto) (uris : Nat → Option String) (o : Order) : Prop :=
  ∀ item ∈ o.items, Binds c (resolvedUri uris o.items) item.voucher.tokenId item.voucher.uriHash

variable {dep : Deployment} {env : Env} {s s' : State} {u : Unit}

section Frames

instance tokenUri_onLazy (c : Call (Fault Error) LazyBase α) :
    Preserves State.tokenUri (onLazy c) where
  eq h := by
    obtain ⟨l, -, rfl⟩ := h.zoom
    rfl

instance (c : Call (Fault Error) Base α) : Preserves State.tokenUri (onBase c) := tokenUri_onLazy _

end Frames

/-- A mint stores the URI of its voucher, unless the edition has one. -/
theorem mintItem_tokenUri (item : BatchVoucherItem1155)
    (h : Returns (mintItem buyer item.voucher item.amount creator) s u s') (i : Nat) :
    s'.tokenUri i = resolvedUri s.tokenUri [item] i := by
  obtain ⟨_, _, _, s3, e, h⟩ := h.skip₃ (f := State.tokenUri) rfl
  replace h := h.view
  obtain ⟨s4, hset, h⟩ := h.seq
  rw [e] at hset
  have hfirst : s4.tokenUri i = resolvedUri s.tokenUri [item] i := by
    unfold resolvedUri
    obtain ⟨hnone, hset⟩ | ⟨hsome, rfl⟩ := hset.when
    · rw [← hset.update, e]
      by_cases hi : i = item.voucher.tokenId
      · subst hi
        simp [Option.isNone_iff_eq_none.mp hnone]
      · simp [hi, Ne.symm hi]
    · rw [e]
      by_cases hi : i = item.voucher.tokenId
      · subst hi
        have hstored : s.tokenUri item.voucher.tokenId ≠ none := by simpa using hsome
        obtain ⟨uri, huri⟩ := Option.ne_none_iff_exists'.mp hstored
        simp [huri]
      · simp [Ne.symm hi]
  rw [← hfirst]
  exact congrFun (h.last (f := State.tokenUri) rfl) i

theorem each_mintItem_tokenUri (h : Returns (each (fun item : BatchVoucherItem1155 =>
      mintItem buyer item.voucher item.amount creator) items) s u s') :
    s'.tokenUri = resolvedUri s.tokenUri items := by
  induction items generalizing s with
  | nil =>
    rw [← h.done]
    funext i
    simp [resolvedUri]
  | cons item items ih =>
    obtain ⟨s1, hitem, h⟩ := h.next
    have hfirst : s1.tokenUri = resolvedUri s.tokenUri [item] :=
      funext (mintItem_tokenUri item hitem)
    rw [ih h, hfirst]
    -- what the first stores, the others find
    funext i
    unfold resolvedUri
    by_cases hi : item.voucher.tokenId = i
    · cases s.tokenUri i <;> simp [hi]
    · cases s.tokenUri i <;> simp [hi]

/-- Every voucher that is redeemed has been signed. -/
theorem verified_of_order (ho : op.order = some o)
    (h : Returns (op.exec dep env) s u s') (hitem : item ∈ o.items) :
    ∃ pubkey, dep.crypto.ed25519Verify pubkey
      (voucherDigest dep s.lazyBase.networkPassphrase item.voucher) item.signature = true := by
  obtain ⟨pubkey, hchecked⟩ := (order_phases ho h).checked
  exact ⟨pubkey, (hchecked item hitem).2⟩

/-- The stored URIs have the signed hashes exactly where the URIs the tokens resolve to have. -/
theorem binds_iff (ho : op.order = some o) (h : Returns (op.exec dep env) s u s') :
    (∀ item ∈ o.items, Binds dep.crypto s'.tokenUri item.voucher.tokenId item.voucher.uriHash) ↔
      o.HashesMatch dep.crypto s.tokenUri := by
  obtain ⟨creator, paid, -, hminted⟩ := (order_phases ho h).minted
  rw [each_mintItem_tokenUri hminted]
  exact Iff.rfl

theorem uriHash_eq_of_digest (hc : dep.crypto.Ideal) (hlength : v.uriHash.length = w.uriHash.length)
    (h : voucherDigest dep p v = voucherDigest dep q w) : v.uriHash = w.uriHash := by
  have hbytes := hc.collisionFree h
  simp only [voucherBytes, List.append_assoc] at hbytes
  have hrest := List.append_cancel_left (hc.selfDelimiting hbytes)
  replace hrest := (beBytes_split hrest).2
  replace hrest := (beBytes_split hrest).2
  replace hrest := (beBytes_split hrest).2
  replace hrest := (beBytes_split hrest).2
  replace hrest := (beBytes_split hrest).2
  exact (List.append_inj hrest hlength).1

end ElcareHub.LazyMint1155

/-! ### What a signature binds -/

namespace ElcareHub.Collection

open Call

/-- **Signed metadata.** A redemption stores URIs with the signed hashes exactly where the URIs it
presents have them; in the multi-token contract, where the URIs its tokens resolve to have them. Two
redemptions of that kind, of vouchers with one signature, leave one URI, whatever the states they are made
in; the hashes of two vouchers are equally long. -/
theorem metadata_binds_iff (dep : Deployment) :
    (∀ (env : Env) (op : LazyMint721.Op) (s s' : LazyMint721.State) (u : Unit),
      op.isRedemption = true → Returns (op.exec dep env) s u s' → ((∀ item ∈ op.items,
        Binds dep.crypto s'.tokenUri item.voucher.tokenId item.voucher.uriHash) ↔
          op.HashesMatch dep.crypto)) ∧
    (∀ (env : Env) (op : LazyMint1155.Op) (o : LazyMint1155.Order) (s s' : LazyMint1155.State)
        (u : Unit), op.order = some o → Returns (op.exec dep env) s u s' → ((∀ item ∈ o.items,
        Binds dep.crypto s'.tokenUri item.voucher.tokenId item.voucher.uriHash) ↔
          o.HashesMatch dep.crypto s.tokenUri)) ∧
    (dep.crypto.Ideal → ∀ (env₁ env₂ : Env) (op₁ op₂ : LazyMint721.Op)
        (s₁ s₁' s₂ s₂' : LazyMint721.State) (u₁ u₂ : Unit) (x y : LazyMint721.BatchVoucherItem),
      op₁.isRedemption = true → op₂.isRedemption = true →
      Returns (op₁.exec dep env₁) s₁ u₁ s₁' → Returns (op₂.exec dep env₂) s₂ u₂ s₂' →
      op₁.HashesMatch dep.crypto → op₂.HashesMatch dep.crypto → x ∈ op₁.items → y ∈ op₂.items →
      x.signature = y.signature → x.voucher.uriHash.length = y.voucher.uriHash.length →
      s₁'.tokenUri x.voucher.tokenId = s₂'.tokenUri y.voucher.tokenId) ∧
    (dep.crypto.Ideal → ∀ (env₁ env₂ : Env) (op₁ op₂ : LazyMint1155.Op) (o₁ o₂ : LazyMint1155.Order)
        (s₁ s₁' s₂ s₂' : LazyMint1155.State) (u₁ u₂ : Unit) (x y : LazyMint1155.BatchVoucherItem1155),
      op₁.order = some o₁ → op₂.order = some o₂ →
      Returns (op₁.exec dep env₁) s₁ u₁ s₁' → Returns (op₂.exec dep env₂) s₂ u₂ s₂' →
      o₁.HashesMatch dep.crypto s₁.tokenUri → o₂.HashesMatch dep.crypto s₂.tokenUri →
      x ∈ o₁.items → y ∈ o₂.items → x.signature = y.signature →
      x.voucher.uriHash.length = y.voucher.uriHash.length →
      s₁'.tokenUri x.voucher.tokenId = s₂'.tokenUri y.voucher.tokenId) := by
  refine ⟨fun _ _ _ _ _ hop h => LazyMint721.binds_iff hop h,
    fun _ _ _ _ _ _ ho h => LazyMint1155.binds_iff ho h, ?_, ?_⟩
  · intro hc env₁ env₂ op₁ op₂ s₁ s₁' s₂ s₂' u₁ u₂ x y hop₁ hop₂ h₁ h₂ hmatch₁ hmatch₂ hx hy
      hsignature hlength
    obtain ⟨k₁, hverified₁⟩ := LazyMint721.verified_of_redemption hop₁ h₁ hx
    obtain ⟨k₂, hverified₂⟩ := LazyMint721.verified_of_redemption hop₂ h₂ hy
    rw [hsignature] at hverified₁
    -- one signature, one digest, one hash
    have hhash := LazyMint721.uriHash_eq_of_digest hc hlength (hc.unforgeable hverified₁ hverified₂)
    have hbinds₁ := (LazyMint721.binds_iff hop₁ h₁).mpr hmatch₁ x hx
    have hbinds₂ := (LazyMint721.binds_iff hop₂ h₂).mpr hmatch₂ y hy
    rw [hhash] at hbinds₁
    exact hbinds₁.eq hc hbinds₂
  · intro hc env₁ env₂ op₁ op₂ o₁ o₂ s₁ s₁' s₂ s₂' u₁ u₂ x y ho₁ ho₂ h₁ h₂ hmatch₁ hmatch₂ hx hy
      hsignature hlength
    obtain ⟨k₁, hverified₁⟩ := LazyMint1155.verified_of_order ho₁ h₁ hx
    obtain ⟨k₂, hverified₂⟩ := LazyMint1155.verified_of_order ho₂ h₂ hy
    rw [hsignature] at hverified₁
    have hhash := LazyMint1155.uriHash_eq_of_digest hc hlength (hc.unforgeable hverified₁ hverified₂)
    have hbinds₁ := (LazyMint1155.binds_iff ho₁ h₁).mpr hmatch₁ x hx
    have hbinds₂ := (LazyMint1155.binds_iff ho₂ h₂).mpr hmatch₂ y hy
    rw [hhash] at hbinds₁
    exact hbinds₁.eq hc hbinds₂

/-- A free voucher for token 0 that is signed for the URI with the hash `hash`. -/
def voucherFor (hash : Bytes) (uri : String) : LazyMint721.MintVoucher :=
  ⟨0, 5, 0, ⟨50⟩, uri, hash, 0⟩

/-- It is presented with `uri`; the signature does not depend on it. -/
def presents (hash : Bytes) (uri : String) : LazyMint721.Op :=
  .redeem ⟨20⟩ (voucherFor hash uri) (LazyMint721.signed (voucherFor hash "")).signature []

/-- The collection is on sale. -/
abbrev onSale721 : LazyMint721.State :=
  LazyMint721.run LazyMint721.collection (.fresh fun _ => 0) LazyMint721.onSale

theorem metadata_binds_iff_presents :
    ∃ s', Returns ((presents (uriBytes "ipfs") "ipfs").exec LazyMint721.collection
        (.signedBy ⟨20⟩ 100)) onSale721 () s' ∧
      Binds LazyMint721.collection.crypto s'.tokenUri 0 (uriBytes "ipfs") := by
  obtain ⟨⟨⟩, s', h, -⟩ := exists_returns
    (c := (presents (uriBytes "ipfs") "ipfs").exec LazyMint721.collection (.signedBy ⟨20⟩ 100))
    (s := onSale721) (p := fun _ _ => true) (by decide +kernel)
  have hbinds := ((metadata_binds_iff LazyMint721.collection).1 _ _ _ _ _ rfl h).mpr
    (List.forall_mem_singleton.mpr rfl)
  exact ⟨s', h, hbinds _ (List.mem_singleton_self _)⟩

/-- One signed voucher is redeemed with either of two URIs; neither has the signed hash. -/
theorem metadata_not_bound : LazyMint721.collection.crypto.Ideal ∧
    (¬ ∀ (env : Env) (op : LazyMint721.Op) (s s' : LazyMint721.State) (u : Unit),
      op.isRedemption = true → Returns (op.exec LazyMint721.collection env) s u s' →
      ∀ item ∈ op.items, Binds LazyMint721.collection.crypto s'.tokenUri item.voucher.tokenId
        item.voucher.uriHash) ∧
    ¬ ∀ (env₁ env₂ : Env) (op₁ op₂ : LazyMint721.Op) (s₁ s₁' s₂ s₂' : LazyMint721.State)
        (u₁ u₂ : Unit) (x y : LazyMint721.BatchVoucherItem),
      op₁.isRedemption = true → op₂.isRedemption = true →
      Returns (op₁.exec LazyMint721.collection env₁) s₁ u₁ s₁' →
      Returns (op₂.exec LazyMint721.collection env₂) s₂ u₂ s₂' → x ∈ op₁.items → y ∈ op₂.items →
      x.signature = y.signature → x.voucher.uriHash.length = y.voucher.uriHash.length →
      s₁'.tokenUri x.voucher.tokenId = s₂'.tokenUri y.voucher.tokenId := by
  obtain ⟨⟨⟩, s₁, h₁, huri₁⟩ := exists_returns
    (c := (presents (List.replicate 32 7) "ipfs").exec LazyMint721.collection (.signedBy ⟨20⟩ 100))
    (s := onSale721) (p := fun _ s' => s'.tokenUri 0 == some "ipfs") (by decide +kernel)
  obtain ⟨⟨⟩, s₂, h₂, huri₂⟩ := exists_returns
    (c := (presents (List.replicate 32 7) "http").exec LazyMint721.collection (.signedBy ⟨20⟩ 100))
    (s := onSale721) (p := fun _ s' => s'.tokenUri 0 == some "http") (by decide +kernel)
  rw [beq_iff_eq] at huri₁ huri₂
  refine ⟨⟨fun _ _ h => h, fun h h' => (of_decide_eq_true h).trans (of_decide_eq_true h').symm, id⟩,
    fun hclaim => ?_, fun hclaim => ?_⟩
  · obtain ⟨uri, huri, hhash⟩ := hclaim _ _ _ _ _ rfl h₁ _ (List.mem_singleton_self _)
    obtain rfl : "ipfs" = uri := Option.mem_unique huri₁ huri
    exact absurd hhash (by decide +kernel)
  · have hsame := hclaim _ _ _ _ _ _ _ _ _ _ _ _ rfl rfl h₁ h₂ (List.mem_singleton_self _)
      (List.mem_singleton_self _) rfl rfl
    have hsame : s₁.tokenUri 0 = s₂.tokenUri 0 := hsame
    rw [huri₁, huri₂] at hsame
    exact absurd (Option.some.inj hsame) (by decide)

end ElcareHub.Collection
