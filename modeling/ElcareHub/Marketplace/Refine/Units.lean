import ElcareHub.Lib.Stock
import ElcareHub.Marketplace.Refine.Catalogue
import ElcareHub.Marketplace.Refine.Offers

/-!
# Units in and out of custody

A listing may be of several units of a multi-edition token. This module follows the units of one
collection through the calls that take them into custody and hand them out. The collection is known by
what its transfers do (`CountsUnits`); the contract invokes it, and other collections, on the way.

A listing call takes one unit in (`createListing_arrival`). A listing departs when it is closed and
handed out together: `Depart` is that change of the stockroom, and the exits make no other.
-/

namespace ElcareHub.Marketplace

open Call hiding update
open Stock Function

set_option synthInstance.maxSize 100000000

variable {C : Type} {host : Host C} {env : Env} {w w' : World C} {u : Unit}
variable {other artist buyer : Address} {tokenId i k : Nat} {l : Listing}
variable {seller src dst recipient : Address} {isListing : Bool} {w1 w2 : World C} {o : Offer}

/-- How many units of each token of a collection everybody has. -/
abbrev Units := Nat → Address → Nat

/-- `n` units of a token of `other` change hands. The units of `collection` are counted; those of
other collections are not. -/
structure Handed (collection other : Address) (tokenId : Nat) (src dst : Address) (n : Nat)
    (u u' : Units) : Prop where
  counted : other = collection → Moved u u' tokenId src dst n
  uncounted : other ≠ collection → u' = u

/-- The collection at `collection` keeps count of its units: `transfer_from` moves one unit,
`batch_transfer_from` moves as many as it is told to, and queries and other collections move none. -/
class CountsUnits (host : Host C) (collection : outParam Address) (units : C → Units) : Prop where
  transferFrom : ∀ {c c' other spender src dst tokenId},
    host.transferFrom c other spender src dst tokenId = some c' →
      Handed collection other tokenId src dst 1 (units c) (units c')
  batchTransferFrom : ∀ {c c' other operator src dst tokenId amount},
    host.batchTransferFrom c other operator src dst tokenId amount = some c' →
      Handed collection other tokenId src dst amount (units c) (units c')
  ownerOf : ∀ {c c' other tokenId owner},
    host.ownerOf c other tokenId = some (owner, c') → units c' = units c
  royaltyInfo : ∀ {c c' other info},
    host.royaltyInfo c other = some (info, c') → units c' = units c
  contractType : ∀ {c c' other kind},
    host.contractType c other = some (kind, c') → units c' = units c

/-! ### The stockroom -/

/-- The units of the collection, and the listings. -/
structure Stockroom where
  units : Units
  listing : Nat → Option Listing

def World.stockroom (units : C → Units) (w : World C) : Stockroom := ⟨units w.collections, w.listing⟩

/-- Units of a token change hands, and no listing changes. -/
structure Stockroom.Handed (collection other : Address) (tokenId : Nat) (src dst : Address) (n : Nat)
    (s s' : Stockroom) : Prop where
  units : Marketplace.Handed collection other tokenId src dst n s.units s'.units
  listing : s'.listing = s.listing

theorem stockroom_of_desk (e : w'.desk = w.desk) : w'.stockroom units = w.stockroom units := by
  have hlisting : w'.listing = w.listing := congrArg Book.listing (book_of_desk e)
  have hcollections : w'.collections = w.collections := congrArg (·.2.2.1) e
  rw [World.stockroom, World.stockroom, hlisting, hcollections]

instance (units : C → Units) : Ignores (World.stockroom units) World.field
    ([.config, .upkeep, .legacy, .accounting, .listingCount, .auctionCount, .auction,
      .auctionBids, .offerCount, .offer, .escrowedToken, .history, .events, .transfers] ++
      Field.background) where
  eq_of_outside {w w'} h := by
    have hcollections : w'.collections = w.collections := h .collections (by decide)
    have hlisting : w'.listing = w.listing := h .listing (by decide)
    rw [World.stockroom, World.stockroom, hlisting, hcollections]

section Invocations

variable {collection : Address} {units : C → Units} [CountsUnits host collection units]

instance : Preserves (World.stockroom units) (ownerOf host other tokenId) where
  eq h := by
    rw [ownerOf, returns_attempt] at h
    split at h
    · rename_i hcall
      cases h
      exact congrArg (Stockroom.mk · _) (CountsUnits.ownerOf hcall)
    · cases h

instance : Preserves (World.stockroom units) (invokeRoyaltyInfo host other) where
  eq h := by
    rw [invokeRoyaltyInfo, returns_attempt] at h
    split at h
    · rename_i hcall
      cases h
      exact congrArg (Stockroom.mk · _) (CountsUnits.royaltyInfo hcall)
    · cases h

instance (quantity : Nat) :
    Preserves (World.stockroom units) (preflightCollectionCompatibility host other quantity) where
  eq h := by
    rw [preflightCollectionCompatibility, returns_attempt] at h
    split at h
    · rename_i hcall
      cases h
      exact congrArg (Stockroom.mk · _) (CountsUnits.contractType hcall)
    · cases h
      rfl

instance (account : Account) (token : Address) (amount : Int) (recipients : List Recipient)
    (fromBuyer : Bool) (feeBps id : Nat) :
    Preserves (World.stockroom units) (distributePayoutTracked host env account token other amount
      seller recipients buyer fromBuyer feeBps id isListing) := by
  unfold distributePayoutTracked
  infer_instance

/-! ### Invocations that move units -/

variable (units)

theorem transferNft_handed (h : Returns (transferNft host other spender src dst tokenId) w u w') :
    (w.stockroom units).Handed collection other tokenId src dst 1 (w'.stockroom units) := by
  rw [transferNft, returns_attempt] at h
  split at h
  · rename_i hcall
    cases h
    have hunits : Handed collection other tokenId src dst 1 (units w.collections) (units _) :=
      CountsUnits.transferFrom hcall
    exact ⟨hunits, rfl⟩
  · cases h

theorem batchTransferNft_handed
    (h : Returns (batchTransferNft host other operator src dst tokenId amount) w u w') :
    (w.stockroom units).Handed collection other tokenId src dst amount (w'.stockroom units) := by
  rw [batchTransferNft, returns_attempt] at h
  split at h
  · rename_i hcall
    cases h
    have hunits : Handed collection other tokenId src dst amount (units w.collections) (units _) :=
      CountsUnits.batchTransferFrom hcall
    exact ⟨hunits, rfl⟩
  · cases h

/-- What is taken into escrow is one unit, whatever the quantity of the listing. -/
theorem escrowNft_handed {id : Nat}
    (h : Returns (escrowNft host seller other tokenId isListing id) w u w') :
    (w.stockroom units).Handed collection other tokenId seller host.self 1 (w'.stockroom units) := by
  obtain ⟨_, _, w2, e, h⟩ := h.skip₂ (f := World.stockroom units) rfl
  replace h := h.view
  obtain ⟨_, _, w4, e, h⟩ := h.skip₂ e
  rw [← e]
  exact transferNft_handed units h

/-- The units an exit hands out: it takes the batch form for more than one. -/
def Listing.outflow (l : Listing) : Nat := if l.quantity > 1 then l.quantity else 1

theorem releaseListing_handed (h : Returns (releaseListing host env l recipient k) w u w') :
    (w.stockroom units).Handed collection l.collection l.tokenId host.self recipient l.outflow
      (w'.stockroom units) := by
  unfold releaseListing at h
  unfold Listing.outflow
  split at h
  · rename_i hbatch
    obtain ⟨w1, htransfer, h⟩ := h.seq
    obtain ⟨_, w2, e, h⟩ := h.skip (f := World.stockroom units) rfl
    rw [if_pos hbatch, h.last e]
    exact batchTransferNft_handed units htransfer
  · rename_i hsingle
    obtain ⟨w1, htransfer, h⟩ := h.seq
    obtain ⟨_, w2, e, h⟩ := h.skip (f := World.stockroom units) rfl
    rw [if_neg hsingle, h.last e]
    exact transferNft_handed units htransfer

/-! ### Arrivals -/

/-- **Arrival.** `create_listing` takes one unit of the token from the artist, and enters the listing
with the quantity that was asked for. -/
theorem createListing_arrival (hcollection : request.collection = collection)
    (h : Returns (createListing host env artist request) w k w') :
    env.auth artist = true ∧ request.quantity ≠ 0 ∧
      Moved (units w.collections) (units w'.collections) request.tokenId artist host.self 1 ∧
      ∃ l, w'.listing k = some l ∧ l.artist = artist ∧ l.collection = collection ∧
        l.tokenId = request.tokenId ∧ l.quantity = request.quantity := by
  subst hcollection
  obtain ⟨_, w1, e, h⟩ := h.skip (f := World.stockroom units) rfl
  obtain ⟨hsigned, h⟩ := h.check
  obtain ⟨_, w2, e, h⟩ := h.skip e
  -- the checks of the request
  obtain ⟨_, _, _, _, w6, e, h⟩ := h.skip₄ e
  obtain ⟨_, _, _, _, w10, e, h⟩ := h.skip₄ e
  obtain ⟨_, w11, e, h⟩ := h.skip e
  obtain ⟨w12, hcompatible, h⟩ := h.seq
  have hquantity := quantity_of_compatible hcompatible
  have e12 := hcompatible.last e
  obtain ⟨id, w13, e13, h⟩ := h.skip e12
  -- the record is saved, and one unit taken in
  replace h := h.write
  obtain ⟨_, _, _, w17, e17, h⟩ := h.skip₃ (f := World.stockroom units) rfl
  obtain ⟨w18, hescrow, h⟩ := h.seq
  have hhanded := escrowNft_handed units hescrow
  obtain ⟨w19, hemit, h⟩ := h.seq
  obtain ⟨rfl, rfl⟩ := h.pure
  rw [← hemit.last (f := World.stockroom units) rfl, e17] at hhanded
  have hmoved := hhanded.units.counted rfl
  have hin : units w13.collections = units w.collections := congrArg Stockroom.units e13
  have hstored := congrFun hhanded.listing id
  refine ⟨by simpa using hsigned, hquantity, hin ▸ hmoved, _,
    hstored.trans (update_self ..), rfl, rfl, rfl, rfl⟩

/-! ### Departures -/

/-- **Departure.** A listing is closed and its units handed out. They do not stay with the contract,
unless it was itself the artist. -/
inductive Depart (self collection : Address) (s : Stockroom) : Stockroom → Prop
  | close (k : Nat) (l : Listing) (status : ListingStatus) (owner : Option Address)
      (recipient : Address) (u' : Units) (hl : s.listing k = some l) (hactive : l.status = .active)
      (hclosed : status ≠ .active) (hrecipient : l.artist ≠ self → recipient ≠ self)
      (hhanded : Handed collection l.collection l.tokenId self recipient l.outflow s.units u') :
      Depart self collection s ⟨u', update s.listing k (some { l with status, owner })⟩

/-- Listings are stored under their ids. -/
def Stockroom.Keyed (s : Stockroom) : Prop := ∀ k l, s.listing k = some l → l.listingId = k

theorem Book.Keyed.stockroom (h : w.book.Keyed) : (w.stockroom units).Keyed :=
  fun _ _ hl => (h.listing hl).1

instance (self : Address) : Stable Stockroom.Keyed (Depart self other) where
  step {s s'} hs h := by
    intro j l' hl'
    cases h with
    | close k l status owner recipient u' hl =>
      change update s.listing k _ j = some l' at hl'
      rw [update_apply] at hl'
      split at hl'
      · rename_i hj
        cases hl'
        exact (hs k l hl).trans hj.symm
      · exact hs j l' hl'

/-- The parts of an exit: the listing is saved as closed and, later in the same call, handed out. -/
theorem depart_of_parts
    (hkeyed : (w.stockroom units).Keyed) (hl : w.listing k = some l)
    (hactive : l.status = .active) (hclosed : status ≠ .active)
    (hrecipient : l.artist ≠ host.self → recipient ≠ host.self)
    (hbefore : w1.stockroom units = w.stockroom units)
    (hsave : Returns (saveListing { l with status, owner }) w1 () w2)
    (hbetween : w3.stockroom units = w2.stockroom units)
    (hrelease : Returns (releaseListing host env l recipient k) w3 () w4)
    (hafter : w'.stockroom units = w4.stockroom units) :
    Depart host.self collection (w.stockroom units) (w'.stockroom units) := by
  obtain rfl := hsave.update
  have hhanded := releaseListing_handed units hrelease
  rw [hbetween, ← hafter] at hhanded
  have hsaved : (w'.stockroom units).listing =
      update (w.stockroom units).listing k (some { l with status, owner }) := by
    rw [hhanded.listing, ← hbefore, ← hkeyed k l hl]
    rfl
  have hunits : units w1.collections = (w.stockroom units).units := congrArg Stockroom.units hbefore
  rw [show w'.stockroom units = ⟨(w'.stockroom units).units, (w'.stockroom units).listing⟩ from rfl,
    hsaved]
  exact .close k l status owner recipient _ hl hactive hclosed hrecipient (hunits ▸ hhanded.units)

/-! ### The exits -/

/-- `c` changes the stockroom by departures. -/
abbrev Departs {α : Type} (host : Host C) (collection : Address) (units : C → Units) (c : Tx C α) :
    Prop :=
  Evolves (World.stockroom units) Stockroom.Keyed (Depart host.self collection) c

variable {units}

/-- The listing that is cancelled is the one on record. -/
theorem transition_depart (hkeyed : (w.stockroom units).Keyed) (hl : w.listing k = some l)
    (h : Returns (transitionListingToCancelled host env l k by' reason refund) w u w') :
    Depart host.self collection (w.stockroom units) (w'.stockroom units) := by
  obtain ⟨hactive, h⟩ := h.check
  obtain ⟨_, w1, e1, h⟩ := h.skip (f := World.stockroom units) rfl
  obtain ⟨w2, hsave, h⟩ := h.seq
  obtain ⟨_, _, w4, e4, h⟩ := h.skip₂ (f := World.stockroom units) rfl
  exact depart_of_parts units hkeyed hl (by simpa using hactive) (by simp) id e1 hsave e4 h rfl

instance : Departs host collection units (cancelListingInner host env artist k) where
  evolves {w _ w'} hkeyed h := by
    obtain ⟨l, hl, h⟩ := returns_requireListing_bind.mp h
    obtain ⟨_, _, _, w3, e3, h⟩ := h.skip₃ (f := World.stockroom units) rfl
    have hl3 : w3.listing k = some l := by
      rw [show w3.listing = w.listing from congrArg Stockroom.listing e3]
      exact hl
    rw [← e3] at hkeyed ⊢
    exact .single (transition_depart hkeyed hl3 h)

instance (admin : Address) (pos : Nat) :
    Departs host collection units (cancelArtistListingAt host env admin artist pos) where
  evolves {w _ w'} hkeyed h := by
    obtain ⟨k, -, h⟩ := h.found
    obtain ⟨stored, w1, hload, h⟩ := h.bind
    obtain ⟨hstored, rfl⟩ := hload.read
    rcases returns_onSome.mp h with ⟨l, rfl, h⟩ | ⟨-, rfl⟩
    · rcases h.when with ⟨-, h⟩ | ⟨-, rfl⟩
      · exact .single (transition_depart hkeyed hstored h)
      · exact .refl
    · exact .refl

/-- A listing that has expired goes back to its artist. -/
instance : Departs host collection units (expireListing host env k) where
  evolves {w _ w'} hkeyed h := by
    obtain ⟨l, hl, h⟩ := returns_requireListing_bind.mp h
    obtain ⟨hactive, h⟩ := h.check
    obtain ⟨_, _, w2, e2, h⟩ := h.skip₂ (f := World.stockroom units) rfl
    obtain ⟨w3, hsave, h⟩ := h.seq
    obtain ⟨_, _, _, w6, e6, h⟩ := h.skip₃ (f := World.stockroom units) rfl
    exact .single (depart_of_parts units hkeyed hl (by simpa using hactive) (by simp) id e2 hsave e6 h
      rfl)

theorem buyExpired_depart (hkeyed : (w.stockroom units).Keyed)
    (hl : w.listing k = some l) (hactive : l.status = .active)
    (h : Returns (buyExpired host env l k exp) w u w') :
    Depart host.self collection (w.stockroom units) (w'.stockroom units) := by
  obtain ⟨w1, hsave, h⟩ := h.seq
  obtain ⟨_, _, _, _, w5, e5, h⟩ := h.skip₄ (f := World.stockroom units) rfl
  exact depart_of_parts units hkeyed hl hactive (by simp) id rfl hsave e5 h rfl

theorem buySettle_depart (hkeyed : (w.stockroom units).Keyed)
    (hl : w.listing k = some l) (hactive : l.status = .active) (hbuyer : buyer ≠ host.self)
    (h : Returns (buySettle host env buyer l k) w u w') :
    Depart host.self collection (w.stockroom units) (w'.stockroom units) := by
  obtain ⟨w1, hsave, h⟩ := h.seq
  obtain ⟨_, _, _, _, w5, e5, h⟩ := h.skip₄ (f := World.stockroom units) rfl
  obtain ⟨_, _, _, w8, e8, h⟩ := h.skip₃ e5
  obtain ⟨w9, hrelease, h⟩ := h.seq
  exact depart_of_parts units hkeyed hl hactive (by simp) (fun _ => hbuyer) rfl hsave e8 hrelease
    (h.last rfl)

theorem acceptSettle_depart (hkeyed : (w.stockroom units).Keyed) (hl : w.listing k = some l)
    (hactive : l.status = .active) (hbuyer : o.offerer ≠ host.self)
    (h : Returns (acceptSettle host env artist o i l k) w u w') :
    Depart host.self collection (w.stockroom units) (w'.stockroom units) := by
  obtain ⟨_, w1, e1, h⟩ := h.skip (f := World.stockroom units) rfl
  obtain ⟨w2, hsave, h⟩ := h.seq
  obtain ⟨_, _, _, _, w6, e6, h⟩ := h.skip₄ (f := World.stockroom units) rfl
  obtain ⟨_, _, _, w9, e9, h⟩ := h.skip₃ e6
  obtain ⟨w10, hrelease, h⟩ := h.seq
  exact depart_of_parts units hkeyed hl hactive (by simp) (fun _ => hbuyer) e1 hsave e9 hrelease
    (h.last rfl)

theorem acceptCounterSettle_depart (hkeyed : (w.stockroom units).Keyed)
    (hl : w.listing k = some l) (hactive : l.status = .active) (hbuyer : buyer ≠ host.self)
    (h : Returns (acceptCounterSettle host env buyer o i l k) w u w') :
    Depart host.self collection (w.stockroom units) (w'.stockroom units) := by
  obtain ⟨_, w1, e1, h⟩ := h.skip (f := World.stockroom units) rfl
  obtain ⟨w2, hsave, h⟩ := h.seq
  obtain ⟨_, _, _, _, w6, e6, h⟩ := h.skip₄ (f := World.stockroom units) rfl
  obtain ⟨_, _, _, _, w10, e10, h⟩ := h.skip₄ e6
  obtain ⟨_, w11, e11, h⟩ := h.skip e10
  obtain ⟨w12, hrelease, h⟩ := h.seq
  exact depart_of_parts units hkeyed hl hactive (by simp) (fun _ => hbuyer) e1 hsave e11 hrelease
    (h.last rfl)

/-! ### The entry points -/

/-- Whoever has authorised a call is not the contract, which signs nothing. -/
theorem ne_self_of_authorised (hself : env.auth host.self = false)
    (ha : env.auth a = true) : a ≠ host.self := by
  rintro rfl
  exact Bool.false_ne_true (hself.symm.trans ha)

omit [CountsUnits host collection units] in
/-- What a call does before and after an exit, it does elsewhere. -/
theorem depart_of_desk (hkeyed : w.book.Keyed) (hl : w.listing k = some l) (e : w1.desk = w.desk)
    (e' : w'.desk = w2.desk) (hexit : (w1.stockroom units).Keyed → w1.listing k = some l →
      Depart host.self collection (w1.stockroom units) (w2.stockroom units)) :
    Depart host.self collection (w.stockroom units) (w'.stockroom units) := by
  have hkeyed1 : (w1.stockroom units).Keyed := stockroom_of_desk e ▸ hkeyed.stockroom units
  have hl1 : w1.listing k = some l := by
    rw [show w1.listing = w.listing from congrArg Book.listing (book_of_desk e)]
    exact hl
  rw [stockroom_of_desk e', ← stockroom_of_desk e]
  exact hexit hkeyed1 hl1

theorem buyArtwork_depart (hkeyed : w.book.Keyed)
    (hself : env.auth host.self = false) (h : Returns (buyArtwork host env buyer k) w r w') :
    Depart host.self collection (w.stockroom units) (w'.stockroom units) := by
  have hbuyer := ne_self_of_authorised hself (authorised_of_returns h)
  obtain ⟨l, w1, w2, e, hl, hactive, e', -, hcases⟩ := buyArtwork_cases h
  refine depart_of_desk hkeyed hl e e' fun hkeyed1 hl1 => ?_
  rcases hcases with ⟨-, exp, -, hexit⟩ | ⟨-, -, hexit⟩
  · exact buyExpired_depart hkeyed1 hl1 hactive hexit
  · exact buySettle_depart hkeyed1 hl1 hactive hbuyer hexit

theorem acceptOffer_depart (hkeyed : w.book.Keyed)
    (hofferers : ∀ i o, w.offer i = some o → o.offerer ≠ host.self)
    (h : Returns (acceptOffer host env artist i) w u w') :
    Depart host.self collection (w.stockroom units) (w'.stockroom units) := by
  obtain ⟨o, l, w1, w2, e, ho, -, hl, hactive, -, e', -, hsettle⟩ := acceptOffer_cases h
  exact depart_of_desk hkeyed hl e e' fun hkeyed1 hl1 =>
    acceptSettle_depart hkeyed1 hl1 hactive (hofferers i o ho) hsettle

theorem acceptCounterOffer_depart (hkeyed : w.book.Keyed) (hself : env.auth host.self = false)
    (h : Returns (acceptCounterOffer host env buyer i) w u w') :
    Depart host.self collection (w.stockroom units) (w'.stockroom units) := by
  have hbuyer := ne_self_of_authorised hself (authorised_of_returns h)
  obtain ⟨o, l, w1, w2, e, -, -, -, hl, hactive, e', -, hsettle⟩ := acceptCounterOffer_cases h
  exact depart_of_desk hkeyed hl e e' fun hkeyed1 hl1 =>
    acceptCounterSettle_depart hkeyed1 hl1 hactive hbuyer hsettle

end Invocations

/-! ### The level of a token -/

/-- No active listing but `k` sells the token. -/
def Stockroom.Alone (s : Stockroom) (k : Nat) (asset : Address × Nat) : Prop :=
  ∀ j l, s.listing j = some l → l.status = .active → (l.collection, l.tokenId) = asset → j = k

section Level

variable {self collection : Address} {s s' : Stockroom}

/-- Departures enter nothing. -/
theorem Stockroom.Alone.depart (h : s.Alone k asset)
    (hdepart : Depart self collection s s') : s'.Alone k asset := by
  intro j l' hl' hactive hasset
  cases hdepart with
  | close i m status owner recipient u' hm hmactive hclosed =>
    change update s.listing i _ j = some l' at hl'
    rw [update_apply] at hl'
    split at hl'
    · cases hl'
      exact absurd hactive hclosed
    · exact h j l' hl' hactive hasset

/-- What has become of listing `l`, of which the contract held `level` units: it is still there, with
all of them, or it is closed, and they are gone by what an exit hands out. -/
inductive Stockroom.Since (self : Address) (k : Nat) (l : Listing) (level : Nat) (s : Stockroom) : Prop
  | still (hl : s.listing k = some l) (hlevel : s.units l.tokenId self = level)
  | gone (l' : Listing) (hl' : s.listing k = some l') (hclosed : l'.status ≠ .active)
      (hlevel : s.units l.tokenId self + l.outflow = level)

/-- One departure: it is the listing that goes, or it is one of another token. -/
theorem Stockroom.Since.depart (h : s.Since self k l level)
    (hcollection : l.collection = collection) (hartist : l.artist ≠ self)
    (halone : s.Alone k (l.collection, l.tokenId)) (hdepart : Depart self collection s s') :
    s'.Since self k l level := by
  cases hdepart with
  | close j m status owner recipient u' hm hmactive hmclosed hrecipient hhanded =>
    by_cases hj : j = k
    · subst hj
      cases h with
      | still hl hlevel =>
        obtain rfl : l = m := Option.mem_unique hl hm
        have hsent := (hhanded.counted hcollection).source (hrecipient hartist)
        exact .gone _ (update_self ..) hmclosed (hsent.trans hlevel)
      | gone l' hl' hclosed =>
        obtain rfl : l' = m := Option.mem_unique hl' hm
        exact absurd hmactive hclosed
    · -- another active listing sells another token, so that the level does not change
      have hlevel : u' l.tokenId self = s.units l.tokenId self := by
        by_cases hm' : m.collection = collection
        · refine (hhanded.counted hm').other_item (fun htoken => hj ?_) self
          exact halone j m hm hmactive (by rw [hm', hcollection, htoken])
        · rw [hhanded.uncounted hm']
      have hkept : update s.listing j (some { m with status, owner }) k = s.listing k :=
        update_of_ne (Ne.symm hj) ..
      cases h with
      | still hl hstart => exact .still (hkept.trans hl) (hlevel.trans hstart)
      | gone l' hl' hclosed hstart =>
        refine .gone l' (hkept.trans hl') hclosed ?_
        show u' l.tokenId self + l.outflow = level
        rw [hlevel]
        exact hstart

/-- **Level.** When a listing is closed by departures, the contract has handed out its outflow. -/
theorem departs_level (hl : s.listing k = some l) (hcollection : l.collection = collection)
    (hartist : l.artist ≠ self) (halone : s.Alone k (l.collection, l.tokenId))
    (h : Relation.ReflTransGen (Depart self collection) s s') :
    s'.Since self k l (s.units l.tokenId self) := by
  suffices s'.Alone k (l.collection, l.tokenId) ∧ s'.Since self k l (s.units l.tokenId self) from
    this.2
  induction h with
  | refl => exact ⟨halone, .still hl rfl⟩
  | tail _ hdepart ih => exact ⟨ih.1.depart hdepart, ih.2.depart hcollection hartist ih.1 hdepart⟩

end Level

end ElcareHub.Marketplace
