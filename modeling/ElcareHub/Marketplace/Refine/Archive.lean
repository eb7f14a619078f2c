import ElcareHub.Lib.Drain
import ElcareHub.Marketplace.Refine.Effects
import ElcareHub.Marketplace.Refine.Migration

/-!
# What the migration moves

The archive is the part of the state the migration works on: the vectors of earlier versions, the
paged indexes, the pending sets and the position keys, with the records it looks at. Every history
index is a *shelf*: the vector an earlier version has left, beside the pages the current one keeps.
A unit of the migration drains the shelves of the record it visits, and the others find them
empty (`Archive.Moved`). Which record comes first makes no difference, since whoever comes drains
the whole vector.

The vector of a listing's offers is drained twice over: into the pages, where what is there already
is skipped as it comes, and into the pending set, where what was there before the loop is.
-/

namespace ElcareHub.Marketplace

open Call hiding update
open Drain Function

set_option synthInstance.maxSize 100000000

variable {C : Type} {env : Env} {w w' : World C}
variable {ys : List Nat} {u : Unit} {k : Nat} {q : MigrationProgress}
variable {id : IndexId} {version : String}

/-! ### Legacy vectors by index -/

namespace LegacyIndexes

/-- The vector an earlier version kept for an index. -/
def get (l : LegacyIndexes) : IndexId → Option (List Nat)
  | .activeListings => l.activeListings
  | .artistListings artist => l.artistListings artist
  | .artistAuctions creator => l.artistAuctions creator
  | .offererOffers offerer => l.offererOffers offerer
  | .listingOffers listingId => l.listingOffers listingId
  | .tokenWhitelist => none

/-- Delete the key of an index. -/
def erase (l : LegacyIndexes) : IndexId → LegacyIndexes
  | .activeListings => { l with activeListings := none }
  | .artistListings artist =>
    { l with artistListings := update l.artistListings artist none }
  | .artistAuctions creator =>
    { l with artistAuctions := update l.artistAuctions creator none }
  | .offererOffers offerer =>
    { l with offererOffers := update l.offererOffers offerer none }
  | .listingOffers listingId =>
    { l with listingOffers := update l.listingOffers listingId none }
  | .tokenWhitelist => l

@[simp]
theorem get_erase_self (l : LegacyIndexes) (id : IndexId) : (l.erase id).get id = none := by
  cases id <;> simp [get, erase]

theorem get_erase_of_ne (l : LegacyIndexes) (h : id' ≠ id) : (l.erase id).get id' = l.get id' := by
  cases id <;> cases id' <;> simp_all [get, erase]

theorem eq_empty_iff (l : LegacyIndexes) : l = .empty ↔ ∀ id, l.get id = none := by
  constructor
  · rintro rfl id
    cases id <;> rfl
  · intro h
    obtain ⟨listings, auctions, offers, perListing, active⟩ := l
    have hlistings : listings = fun _ => none := funext fun a => h (.artistListings a)
    have hauctions : auctions = fun _ => none := funext fun a => h (.artistAuctions a)
    have hoffers : offers = fun _ => none := funext fun a => h (.offererOffers a)
    have hperListing : perListing = fun _ => none := funext fun k => h (.listingOffers k)
    have hactive : active = none := h .activeListings
    rw [hlistings, hauctions, hoffers, hperListing, hactive]
    rfl

end LegacyIndexes

/-! ### The archive -/

structure Archive where
  legacy : LegacyIndexes
  index : IndexId → PagedIndex
  pending : Nat → List Nat
  active : ActiveIndex
  listing : Nat → Option Listing
  auction : Nat → Option Auction
  offer : Nat → Option Offer

def World.archive (w : World C) : Archive where
  legacy := w.legacy
  index := w.index
  pending := w.listingPendingOffers
  active := w.book.active
  listing := w.listing
  auction := w.auction
  offer := w.offer

instance : Ignores (World.archive (C := C)) World.field
    [.config, .upkeep, .accounting, .locks, .listingCount, .auctionCount, .auctionBids,
      .bidRefundRecord, .auctionBlockedBidders, .offerCount, .counterOfferParent,
      .offerSupersededBy, .escrowedToken, .events, .balances, .collections, .transfers] where
  eq_of_outside {w w'} h := by
    have hindex : w'.index = w.index := by
      funext id
      by_cases hid : id = .activeListings
      · rw [hid]
        exact h .activeIndex (by decide)
      · exact index_of_history (h .history (by decide)) hid
    have hsame := fields_eq h [.legacy, .listingPendingOffers, .activeListingPos, .staleSlots, .listing,
      .auction, .offer]
    simp only [List.forall_mem_cons, World.field] at hsame
    simp only [World.archive, World.book, hindex, hsame]

theorem World.SameStorage.archive (h : w.SameStorage v) : v.archive = w.archive := by
  obtain ⟨events, upkeep, rfl⟩ := h
  rfl

namespace Archive

/-- The vector an earlier version left, beside the pages. -/
def shelf (a : Archive) (id : IndexId) : Option (List Nat) × PagedIndex :=
  (a.legacy.get id, a.index id)

/-- The vector of a listing's offers, beside its pending set. -/
def openOffers (a : Archive) (listingId : Nat) : Option (List Nat) × List Nat :=
  (a.legacy.get (.listingOffers listingId), a.pending listingId)

/-- The pages get the entries of the vector they do not have. -/
def Shelves (ys : List Nat) (ix ix' : PagedIndex) : Prop :=
  ∀ xs, ix.Lists xs → ix'.Lists (xs ++ fresh xs ys)

/-- The pending set gets the pending offers of the vector that it did not have before. -/
def Reopens (offer : Nat → Option Offer) (ys pending pending' : List Nat) : Prop :=
  pending' = pending ++ ys.filter fun i =>
    (offer i).any (fun o => decide (o.status = .pending)) = true ∧ i ∉ pending

/-- A drained shelf: no vector is left, and the pages hold what they held and then what only the vector
held. -/
theorem lists_of_drained {a b : Archive} (h : Drained Shelves (a.shelf id) (b.shelf id)) :
    b.legacy.get id = none ∧ ∀ xs, (a.index id).Lists xs →
      (b.index id).Lists (xs ++ fresh xs ((a.legacy.get id).getD [])) := by
  unfold Drained at h
  cases hlegacy : a.legacy.get id with
  | none =>
    have hsame : b.shelf id = a.shelf id := by
      simpa only [Archive.shelf, hlegacy] using h
    have hindex : b.index id = a.index id := congrArg Prod.snd hsame
    refine ⟨(congrArg Prod.fst hsame).trans hlegacy, fun xs hxs => ?_⟩
    rw [hindex, Option.getD_none, fresh_nil, List.append_nil]
    exact hxs
  | some ys =>
    simp only [Archive.shelf, hlegacy] at h
    exact h

/-- `b` is `a` after the shelves in `V` have been drained. -/
structure Moved (V : IndexId → Prop) (a b : Archive) : Prop where
  listing : b.listing = a.listing
  auction : b.auction = a.auction
  offer : b.offer = a.offer
  active : b.active = a.active
  shelf : ∀ id, DrainedIf Shelves (V id) (a.shelf id) (b.shelf id)
  openOffers : ∀ k, DrainedIf (Reopens a.offer) (V (.listingOffers k)) (a.openOffers k) (b.openOffers k)

namespace Moved

variable {V U : IndexId → Prop} {a b c : Archive}

theorem refl (a : Archive) : Moved (fun _ => False) a a where
  listing := rfl
  auction := rfl
  offer := rfl
  active := rfl
  shelf _ := .of_eq id rfl
  openOffers _ := .of_eq id rfl

theorem congr (h : Moved V a b) (hVU : ∀ id, V id ↔ U id) : Moved U a b :=
  funext (fun id => propext (hVU id)) ▸ h

theorem comp (hab : Moved V a b) (hbc : Moved U b c) : Moved (fun id => V id ∨ U id) a c where
  listing := hbc.listing.trans hab.listing
  auction := hbc.auction.trans hab.auction
  offer := hbc.offer.trans hab.offer
  active := hbc.active.trans hab.active
  shelf id := (hab.shelf id).comp (hbc.shelf id)
  openOffers k := by
    have hnext := hbc.openOffers k
    rw [hab.offer] at hnext
    exact (hab.openOffers k).comp hnext

/-- One shelf is drained. -/
theorem of_drain {pending : Nat → List Nat}
    (hlegacy : a.legacy.get id = some ys) (hshelf : Shelves ys (a.index id) ix)
    (hpending : ∀ k, id = .listingOffers k → Reopens a.offer ys (a.pending k) (pending k))
    (hothers : ∀ k, id ≠ .listingOffers k → pending k = a.pending k) :
    Moved (· = id) a
      { a with legacy := a.legacy.erase id, index := update a.index id ix, pending } where
  listing := rfl
  auction := rfl
  offer := rfl
  active := rfl
  shelf id' := by
    constructor
    · rintro rfl
      simp [Drained, Archive.shelf, hlegacy, hshelf]
    · intro hne
      simp [Archive.shelf, LegacyIndexes.get_erase_of_ne _ hne, update_of_ne hne]
  openOffers k := by
    constructor
    · rintro rfl
      simp [Drained, Archive.openOffers, hlegacy, hpending k rfl]
    · intro hne
      simp [Archive.openOffers, LegacyIndexes.get_erase_of_ne _ hne, hothers k (Ne.symm hne)]

/-- Visits that follow one another: if each drains the shelves of its record, and the records do not
change, then all drain the shelves of all. -/
theorem each {V : World C → Nat → IndexId → Prop} (hunit : ∀ {k : Nat} {u : Unit} {w w' : World C}, Returns (unit k) w u w' →
      Moved (V w k) w.archive w'.archive) (hV : ∀ {w w' : World C}, w'.listing = w.listing → w'.auction = w.auction →
      w'.offer = w.offer → V w' = V w) (h : Returns (each unit ks) w u w') :
    Moved (fun id => ∃ k ∈ ks, V w k id) w.archive w'.archive := by
  induction ks generalizing w with
  | nil =>
    obtain rfl := h.done
    exact (refl w.archive).congr (by simp)
  | cons k ks ih =>
    obtain ⟨w1, hfirst, hrest⟩ := h.next
    have hmoved := hunit hfirst
    have hsame : V w1 = V w := hV hmoved.listing hmoved.auction hmoved.offer
    have hothers := ih hrest
    rw [hsame] at hothers
    exact (hmoved.comp hothers).congr (by simp)

end Moved

end Archive

/-! ### Units -/

/-- Appending unless it is there. -/
theorem returns_indexAppendNew (h : Returns (indexAppendNew id v : Tx C Unit) w u w') :
    ∃ ix, w' = { w with index := update w.index id ix } ∧
      ∀ xs, (w.index id).Lists xs → ix.Lists (if v ∈ xs then xs else xs ++ [v]) := by
  obtain ⟨present, w1, hpresent, hrest⟩ := h.bind
  have hexpect := hpresent.view
  obtain ⟨hcontains, rfl⟩ := hexpect.value
  cases present with
  | true =>
    obtain ⟨-, rfl⟩ := hrest.pure
    refine ⟨w.index id, by rw [update_eq_self], fun xs hxs => ?_⟩
    rwa [if_pos ((hxs.contains_eq hcontains).mp rfl)]
  | false =>
    obtain ⟨ix, happend, rfl⟩ := returns_indexAppend hrest
    refine ⟨ix, rfl, fun xs hxs => ?_⟩
    have hnew : v ∉ xs := fun hv => by simpa using (hxs.contains_eq hcontains).mpr hv
    rw [if_neg hnew]
    exact hxs.append happend

/-- The loop over a legacy vector. -/
theorem returns_each_indexAppendNew
    (h : Returns (each (indexAppendNew id) ys : Tx C Unit) w u w') :
    ∃ ix, w' = { w with index := update w.index id ix } ∧
      Archive.Shelves ys (w.index id) ix := by
  induction ys generalizing w with
  | nil =>
    obtain rfl := h.done
    refine ⟨w.index id, by rw [update_eq_self], fun xs hxs => ?_⟩
    rwa [fresh_nil, List.append_nil]
  | cons y ys ih =>
    obtain ⟨w1, hfirst, hrest⟩ := h.next
    obtain ⟨ix1, rfl, hix1⟩ := returns_indexAppendNew hfirst
    obtain ⟨ix, rfl, hix⟩ := ih hrest
    refine ⟨ix, by simp, fun xs hxs => ?_⟩
    rw [append_fresh_cons]
    refine hix _ ?_
    simpa using hix1 xs hxs

/-- Move a whole legacy vector, if there is one. -/
def shelve (id : IndexId) : Tx C Unit := do
  let ids ← view fun w => w.legacy.get id
  migrateLegacyIndex ids (fun l => l.erase id) id

/-- An index that is not the active one is no part of the active-listing index. -/
theorem active_update_index (hid : id ≠ .activeListings) (ix : PagedIndex)
    (legacy : LegacyIndexes) (pending : Nat → List Nat) :
    { w with
      legacy, listingPendingOffers := pending,
      index := update w.index id ix }.archive =
    { w.archive with legacy, pending, index := update w.archive.index id ix } := by
  simp only [World.archive, World.book, update_of_ne (Ne.symm hid)]

theorem shelve_moved (hid : id ≠ .activeListings) (hoffers : ∀ k, id ≠ .listingOffers k)
    (h : Returns (shelve id : Tx C Unit) w u w') : Archive.Moved (· = id) w.archive w'.archive := by
  rw [shelve, returns_view_bind, migrateLegacyIndex, returns_onSome] at h
  rcases h with ⟨ys, hys, h⟩ | ⟨hnone, rfl⟩
  · have hloop := h.write
    obtain ⟨ix, rfl, hix⟩ := returns_each_indexAppendNew hloop
    rw [active_update_index hid ix (w.legacy.erase id) w.listingPendingOffers]
    exact .of_drain hys hix (fun k hk => (hoffers k hk).elim) fun _ _ => rfl
  · -- nothing to move: the shelf is drained as it is
    refine ⟨rfl, rfl, rfl, rfl, fun id' => ⟨?_, fun _ => rfl⟩, fun k => ⟨?_, fun _ => rfl⟩⟩
    · rintro rfl
      simp [Drained, Archive.shelf, World.archive, hnone]
    · rintro rfl
      exact (hoffers k rfl).elim

/-- The loop over a listing's legacy offers: into the pages what they do not have, and into the pending
set what is pending and was not in it before the loop. -/
theorem returns_each_migrateListingOffer
    (h : Returns (each (migrateListingOffer k before) ys : Tx C Unit) w u w') :
    ∃ ix, w' = { w with
        index := update w.index (.listingOffers k) ix
        listingPendingOffers := update w.listingPendingOffers k
          (w.listingPendingOffers k ++ ys.filter fun i =>
            (w.offer i).any (fun o => decide (o.status = .pending)) = true ∧ i ∉ before) } ∧
      Archive.Shelves ys (w.index (.listingOffers k)) ix := by
  induction ys generalizing w with
  | nil =>
    obtain rfl := h.done
    refine ⟨w.index (.listingOffers k), by simp, fun xs hxs => ?_⟩
    rwa [fresh_nil, List.append_nil]
  | cons y ys ih =>
    obtain ⟨w1, hfirst, hrest⟩ := h.next
    obtain ⟨w2, hindex, hpending⟩ := hfirst.seq
    obtain ⟨ix1, rfl, hix1⟩ := returns_indexAppendNew hindex
    have hwhen := hpending.view
    -- the offer is added to the pending set, or nothing happens
    rcases hwhen.when with ⟨hcond, hadd⟩ | ⟨hcond, rfl⟩
    · have hset := hadd.view
      obtain rfl := hset.update
      obtain ⟨ix, rfl, hix⟩ := ih hrest
      refine ⟨ix, ?_, fun xs hxs => ?_⟩
      · rw [List.filter_cons, if_pos (decide_eq_true hcond)]
        simp only [update_idem, update_self, List.append_assoc, List.singleton_append]
      · rw [append_fresh_cons]
        exact hix _ (by simpa using hix1 xs hxs)
    · obtain ⟨ix, rfl, hix⟩ := ih hrest
      refine ⟨ix, ?_, fun xs hxs => ?_⟩
      · rw [List.filter_cons, if_neg (by simpa using hcond)]
        simp only [update_idem]
      · rw [append_fresh_cons]
        exact hix _ (by simpa using hix1 xs hxs)

/-- The shelves a record leads to. -/
def listingShelves (w : World C) (k : Nat) (id : IndexId) : Prop :=
  ∃ l, w.listing k = some l ∧ (id = .artistListings l.artist ∨ id = .listingOffers k)

def auctionShelves (w : World C) (k : Nat) (id : IndexId) : Prop :=
  ∃ a, w.auction k = some a ∧ id = .artistAuctions a.creator

def offerShelves (w : World C) (k : Nat) (id : IndexId) : Prop :=
  ∃ o, w.offer k = some o ∧ id = .offererOffers o.offerer

/-- The offers of one listing. -/
theorem migrateOffers_moved (h : Returns (do
      let offerIds ← view fun w : World C => w.legacy.listingOffers k
      onSome offerIds fun offerIds => do
        modifyLegacy fun l => { l with listingOffers := update l.listingOffers k none }
        let existingPending ← loadPendingOfferIds k
        each (migrateListingOffer k existingPending) offerIds : Tx C Unit) w u w') :
    Archive.Moved (· = .listingOffers k) w.archive w'.archive := by
  rw [returns_view_bind, returns_onSome] at h
  rcases h with ⟨ys, hys, h⟩ | ⟨hnone, rfl⟩
  · replace h := h.write
    have hloop := h.view
    obtain ⟨ix, rfl, hix⟩ := returns_each_migrateListingOffer hloop
    have hne : IndexId.listingOffers k ≠ .activeListings := by simp
    have hactive := active_update_index (w := w) hne ix (w.legacy.erase (.listingOffers k))
    refine (hactive _).symm ▸ .of_drain hys hix (fun k' hk => ?_) fun k' hk => ?_
    · obtain rfl : k = k' := by simpa using hk
      rw [update_self]
      rfl
    · have hne : k' ≠ k := fun hkk => hk (by rw [hkk])
      exact update_of_ne hne _ _
  · refine ⟨rfl, rfl, rfl, rfl, fun id' => ⟨?_, fun _ => rfl⟩, fun k' => ⟨?_, fun _ => rfl⟩⟩
    · rintro rfl
      simp [Drained, Archive.shelf, World.archive, LegacyIndexes.get, hnone]
    · intro hk
      obtain rfl : k' = k := by simpa using hk
      simp [Drained, Archive.openOffers, World.archive, LegacyIndexes.get, hnone]

theorem migrateListingUnit_moved (h : Returns (migrateListingUnit k : Tx C Unit) w u w') :
    Archive.Moved (listingShelves w k) w.archive w'.archive := by
  rw [migrateListingUnit, loadListing, returns_view_bind, returns_onSome] at h
  rcases h with ⟨l, hl, h⟩ | ⟨hnone, rfl⟩
  · obtain ⟨w1, hartist, hoffers⟩ := h.seq
    change Returns (shelve (.artistListings l.artist)) w () w1 at hartist
    refine ((shelve_moved (by simp) (by simp) hartist).comp (migrateOffers_moved hoffers)).congr ?_
    intro id
    simp [listingShelves, hl]
  · refine (Archive.Moved.refl _).congr fun id => ?_
    simp [listingShelves, hnone]

theorem migrateAuctionUnit_moved (h : Returns (migrateAuctionUnit k : Tx C Unit) w u w') :
    Archive.Moved (auctionShelves w k) w.archive w'.archive := by
  rw [migrateAuctionUnit, loadAuction, returns_view_bind, returns_onSome] at h
  rcases h with ⟨a, ha, h⟩ | ⟨hnone, rfl⟩
  · change Returns (shelve (.artistAuctions a.creator)) w u w' at h
    refine (shelve_moved (by simp) (by simp) h).congr fun id => ?_
    simp [auctionShelves, ha]
  · refine (Archive.Moved.refl _).congr fun id => ?_
    simp [auctionShelves, hnone]

theorem migrateOfferUnit_moved (h : Returns (migrateOfferUnit k : Tx C Unit) w u w') :
    Archive.Moved (offerShelves w k) w.archive w'.archive := by
  rw [migrateOfferUnit, loadOffer, returns_view_bind, returns_onSome] at h
  rcases h with ⟨o, ho, h⟩ | ⟨hnone, rfl⟩
  · change Returns (shelve (.offererOffers o.offerer)) w u w' at h
    refine (shelve_moved (by simp) (by simp) h).congr fun id => ?_
    simp [offerShelves, ho]
  · refine (Archive.Moved.refl _).congr fun id => ?_
    simp [offerShelves, hnone]

/-! ### The active listings -/

/-- A listing is stored as active. -/
def Archive.IsActive (a : Archive) (i : Nat) : Prop :=
  (a.listing i).any (fun l => decide (l.status = .active)) = true

/-- An id is in the index after it was added, once. -/
theorem ActiveIndex.Lists.mem_add {a : ActiveIndex} (h : a.Lists xs)
    (hadd : a.add k = some a') : ∃ xs', a'.Lists xs' ∧ ∀ i, i ∈ xs' ↔ i ∈ xs ∨ i = k := by
  by_cases hk : k ∈ xs
  · rw [ActiveIndex.add, if_pos (h.isSome_pos_iff.mpr hk)] at hadd
    obtain rfl := Option.some.inj hadd
    refine ⟨xs, h, fun i => ?_⟩
    constructor
    · exact .inl
    · rintro (hi | rfl)
      · exact hi
      · exact hk
  · exact ⟨xs ++ [k], (h.add hk hadd).1, by simp⟩

/-- `active` in place of the active-listing index. -/
def Archive.setActive (a : Archive) (active : ActiveIndex) : Archive :=
  { a with active, index := update a.index .activeListings active.index }

theorem addToActiveListings_archive (h : Returns (addToActiveListings k : Tx C Unit) w u w') :
    ∃ active, w.archive.active.add k = some active ∧ w'.archive = w.archive.setActive active := by
  obtain ⟨active, hadd, hbook⟩ := addToActiveListings_book h
  refine ⟨active, hadd, ?_⟩
  have hactive : w'.book.active = active := congrArg Book.active hbook
  have hindex : w'.index = update w.index .activeListings active.index := by
    funext id
    by_cases hid : id = .activeListings
    · rw [hid, update_self, ← hactive]
      rfl
    · have hwrites : Writes [.activeIndex, .activeListingPos]
          (addToActiveListings k : Tx C Unit) := inferInstance
      rw [update_of_ne hid]
      exact index_of_history (hwrites.get_eq h (by decide)) hid
  have hlegacy : w'.legacy = w.legacy := congrArg Book.legacy hbook
  have hpending : w'.listingPendingOffers = w.listingPendingOffers :=
    congrArg Book.pendingOffers hbook
  have hlisting : w'.listing = w.listing := congrArg Book.listing hbook
  have hauction : w'.auction = w.auction := congrArg Book.auction hbook
  have hoffer : w'.offer = w.offer := congrArg Book.offer hbook
  simp only [World.archive, Archive.setActive, hactive, hindex, hlegacy, hpending, hlisting,
    hauction, hoffer]

/-- The loop over the legacy active vector adds the active ones of it. -/
theorem each_migrateActiveListing (h : Returns (each migrateActiveListing ids : Tx C Unit) w u w') :
    ∃ active, w'.archive = w.archive.setActive active ∧
      ∀ xs, w.archive.active.Lists xs → ∃ xs', active.Lists xs' ∧
        ∀ i, i ∈ xs' ↔ i ∈ xs ∨ i ∈ ids ∧ w.archive.IsActive i := by
  induction ids generalizing w with
  | nil =>
    obtain rfl := h.done
    refine ⟨w.archive.active, ?_, fun xs hxs => ⟨xs, hxs, by simp⟩⟩
    simp only [World.archive, World.book, Archive.setActive, update_eq_self]
  | cons k ids ih =>
    obtain ⟨w1, hfirst, hrest⟩ := h.next
    obtain ⟨active, harchive, hlists⟩ := ih hrest
    rcases hfirst.when with ⟨hk, hadd⟩ | ⟨hk, rfl⟩
    · obtain ⟨active1, hadd, harchive1⟩ := addToActiveListings_archive hadd
      refine ⟨active, ?_, fun xs hxs => ?_⟩
      · rw [harchive, harchive1]
        simp only [Archive.setActive, update_idem]
      · obtain ⟨xs1, hxs1, hmem1⟩ := hxs.mem_add hadd
        obtain ⟨xs', hxs', hmem⟩ := hlists xs1 (by rw [harchive1]; exact hxs1)
        refine ⟨xs', hxs', fun i => ?_⟩
        have hsame : w1.archive.IsActive i ↔ w.archive.IsActive i := by
          rw [harchive1]
          rfl
        rw [hmem, hmem1, hsame, List.mem_cons]
        constructor
        · rintro ((hi | rfl) | ⟨hi, hactive⟩)
          · exact .inl hi
          · exact .inr ⟨.inl rfl, hk⟩
          · exact .inr ⟨.inr hi, hactive⟩
        · rintro (hi | ⟨rfl | hi, hactive⟩)
          · exact .inl (.inl hi)
          · exact .inl (.inr rfl)
          · exact .inr ⟨hi, hactive⟩
    · refine ⟨active, harchive, fun xs hxs => ?_⟩
      obtain ⟨xs', hxs', hmem⟩ := hlists xs hxs
      refine ⟨xs', hxs', fun i => ?_⟩
      rw [hmem, List.mem_cons]
      -- `k` is not active, so it makes no difference that it is listed
      constructor
      · rintro (hi | ⟨hi, hactive⟩)
        · exact .inl hi
        · exact .inr ⟨.inr hi, hactive⟩
      · rintro (hi | ⟨rfl | hi, hactive⟩)
        · exact .inl hi
        · exact (hk hactive).elim
        · exact .inr ⟨hi, hactive⟩

/-- The unit of phase 3. -/
theorem migrateActiveListings_archive
    (h : Returns (migrateActiveListings : Tx C Nat) w n w') :
    ∃ active, w'.archive =
        { w.archive.setActive active with legacy := w.legacy.erase .activeListings } ∧
      ∀ xs, w.archive.active.Lists xs → ∃ xs', active.Lists xs' ∧
        ∀ i, i ∈ xs' ↔ i ∈ xs ∨ i ∈ (w.legacy.get .activeListings).getD [] ∧ w.archive.IsActive i := by
  rw [migrateActiveListings, returns_view_bind] at h
  cases hids : w.legacy.activeListings with
  | none =>
    rw [hids] at h
    obtain ⟨-, rfl⟩ := h.pure
    refine ⟨w.archive.active, ?_, fun xs hxs => ⟨xs, hxs, by simp [LegacyIndexes.get, hids]⟩⟩
    have herase : w.legacy.erase .activeListings = w.legacy := by
      rw [LegacyIndexes.erase, ← hids]
    rw [herase]
    simp only [World.archive, World.book, Archive.setActive, update_eq_self]
  | some ids =>
    rw [hids] at h
    replace h := h.write
    obtain ⟨w2, hloop, hlast⟩ := h.seq
    obtain ⟨-, rfl⟩ := hlast.pure
    obtain ⟨active, harchive, hlists⟩ := each_migrateActiveListing hloop
    refine ⟨active, harchive, fun xs hxs => ?_⟩
    obtain ⟨xs', hxs', hmem⟩ := hlists xs hxs
    exact ⟨xs', hxs', fun i => by rw [hmem, LegacyIndexes.get, hids]; rfl⟩

/-! ### The whole migration -/

/-- A phase that is run to its end: a loop over its records, and a report that writes events only. -/
theorem resume_phase (fuel b : Nat) (unit : Nat → Tx C Unit)
    (hreport : Preserves World.archive report)
    (hunits : ∀ i, i < count → job ⟨phase, i⟩ = .unit (unit (i + 1)) ⟨phase, i + 1⟩)
    (hend : job ⟨phase, count⟩ = .free report ⟨phase + 1, 0⟩)
    (h : Returns (resume job (count + (fuel + 1)) (count + (b + 1)) ⟨phase, 0⟩) w q w') :
    ∃ w1 w2, Returns (each unit (recordIds count)) w () w1 ∧ w2.archive = w1.archive ∧
      Returns (resume job fuel (b + 1) ⟨phase + 1, 0⟩) w2 q w' := by
  have hstretch : resume job (count + (fuel + 1)) (count + (b + 1)) ⟨phase, 0⟩ =
      each unit (List.range' (0 + 1) count) >>= fun _ =>
        resume job (fuel + 1) (b + 1) ⟨phase, 0 + count⟩ :=
    resume_units (MigrationProgress.mk phase) fun i _ hi => hunits i (by omega)
  rw [hstretch, Nat.zero_add, Nat.zero_add, Paced.resume_free hend] at h
  obtain ⟨w1, hloop, h⟩ := h.seq
  obtain ⟨w2, hphase, h⟩ := h.seq
  exact ⟨w1, w2, hloop, hreport.eq hphase, h⟩

/-- The last phase is a single unit, with its report in it. -/
theorem resume_lastPhase
    (h : Returns (resume (migrationRound env version L A O) (fuel + 1) 1 ⟨3, 0⟩) w q w') :
    ∃ n w1, Returns migrateActiveListings w n w1 ∧ w'.archive = w1.archive := by
  obtain ⟨w2, hunit, hrest⟩ := h.seq
  rw [Paced.resume_none] at hrest
  obtain ⟨-, rfl⟩ := hrest.pure
  obtain ⟨n, w1, hmove, hreport⟩ := hunit.bind
  exact ⟨n, w1, hmove, Preserves.eq hreport⟩

/-- The shelves of the records there are. -/
def visitedShelves (w : World C) (id : IndexId) : Prop :=
  (∃ k ∈ recordIds w.listingCount, listingShelves w k id) ∨
    (∃ k ∈ recordIds w.auctionCount, auctionShelves w k id) ∨
    ∃ k ∈ recordIds w.offerCount, offerShelves w k id

/-- **The whole migration.** A complete run drains the shelves of all records, and then moves the legacy
active vector. -/
theorem migrationRun_moved
    (h : Returns (migrationRun env version w w.migrationUnits ⟨0, 0⟩) w q w') :
    ∃ b active, Archive.Moved (visitedShelves w) w.archive b ∧
      w'.archive = { b.setActive active with legacy := b.legacy.erase .activeListings } ∧
      ∀ xs, b.active.Lists xs → ∃ xs', active.Lists xs' ∧
        ∀ i, i ∈ xs' ↔ i ∈ xs ∨ i ∈ (b.legacy.get .activeListings).getD [] ∧ b.IsActive i := by
  have hbudget : w.migrationUnits = w.listingCount + (w.auctionCount + (w.offerCount + 0 + 1)) := by
    unfold World.migrationUnits
    omega
  have hfuel : w.migrationUnits + 4 =
      w.listingCount + (w.auctionCount + (w.offerCount + (2 + 1) + 1) + 1) := by
    omega
  rw [migrationRun, hfuel, hbudget] at h
  -- phases 0 to 2, each a loop and a report
  obtain ⟨w1, w2, hlistings, hreport0, h⟩ := resume_phase
    (w.auctionCount + (w.offerCount + 3 + 1)) (w.auctionCount + w.offerCount) migrateListingUnit
    inferInstance (fun _ hi => if_neg (Nat.not_le.mpr hi)) (if_pos (Nat.le_refl _)) h
  obtain ⟨w3, w4, hauctions, hreport1, h⟩ := resume_phase
    (w.offerCount + 3) w.offerCount migrateAuctionUnit
    inferInstance (fun _ hi => if_neg (Nat.not_le.mpr hi)) (if_pos (Nat.le_refl _)) h
  obtain ⟨w5, w6, hoffers, hreport2, h⟩ := resume_phase 2 0 migrateOfferUnit
    inferInstance (fun _ hi => if_neg (Nat.not_le.mpr hi)) (if_pos (Nat.le_refl _)) h
  obtain ⟨n, w7, hactive, hreport3⟩ := resume_lastPhase h
  -- the three loops drain their shelves, one after another
  have hmoved0 := Archive.Moved.each migrateListingUnit_moved
    (fun hl _ _ => by unfold listingShelves; rw [hl]) hlistings
  have hmoved1 := Archive.Moved.each migrateAuctionUnit_moved
    (fun _ ha _ => by unfold auctionShelves; rw [ha]) hauctions
  have hmoved2 := Archive.Moved.each migrateOfferUnit_moved
    (fun _ _ ho => by unfold offerShelves; rw [ho]) hoffers
  rw [hreport0] at hmoved1
  rw [hreport1] at hmoved2
  have hmoved01 := hmoved0.comp hmoved1
  have hmoved := hmoved01.comp hmoved2
  -- they look at the records of the state the migration began in
  have hauction : w2.auction = w.auction := by
    change w2.archive.auction = _
    rw [hreport0]
    exact hmoved0.auction
  have hoffer : w4.offer = w.offer := by
    change w4.archive.offer = _
    rw [hreport1]
    exact hmoved01.offer
  obtain ⟨active, harchive, hlists⟩ := migrateActiveListings_archive hactive
  rw [← hreport2] at hmoved
  refine ⟨w6.archive, active, hmoved.congr fun id => ?_, hreport3.trans harchive, hlists⟩
  simp only [visitedShelves, auctionShelves, offerShelves, hauction, hoffer, or_assoc]

end ElcareHub.Marketplace
