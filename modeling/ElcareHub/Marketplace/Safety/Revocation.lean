import ElcareHub.Marketplace.Safety.Governance
import ElcareHub.Marketplace.Safety.Lifecycle

/-!
# The revocation sweep

`cancel_artist_listings` walks the index of a revoked artist's listings in portions and keeps a cursor
between calls. The sweep is complete because of one invariant (`Shelves.Tracks`): whatever the artist has
on sale stands in the index at or behind the cursor. A listing is put on sale and appended to the index
in one call, which a revoked artist cannot make; the cursor moves past positions whose listings have been
taken off sale; it is dropped when the artist is reinstated, before anything new can be listed.

What the calls have visited is kept in a record of the run (`sweepRecord`), so that the value a call
returns can be compared with the positions that no call has visited since the artist was last reinstated.
-/

namespace ElcareHub.Marketplace

open Call hiding update
open Function
open Relation (ReflTransGen)

set_option synthInstance.maxSize 100000000

variable {C : Type} {host : Host C} {env : Env} {w w' : World C}
variable {k maxItems n : Nat} {l : Listing} {u : Unit} {admin artist caller : Address} {seen : List Nat}
  {op : Op}
variable {v : Nat} {updates : List BatchUpdateListingInput} {request : BatchCreateListingInput}
  {a : Address}

/-! ### Dockets and shelves -/

/-- The index of an artist's listings, and how far the sweep over it has come. -/
structure Docket where
  index : PagedIndex
  cursor : Option Nat

/-- The position the next call starts from. -/
def Docket.start (d : Docket) : Nat := d.cursor.getD 0

def World.dockets (w : World C) (artist : Address) : Docket :=
  ⟨w.index (.artistListings artist), w.upkeep.artistCancelCursor artist⟩

/-- The dockets of all artists, beside the listings. -/
structure Shelves where
  docket : Address → Docket
  listing : Nat → Option Listing

def World.shelves (w : World C) : Shelves := ⟨w.dockets, w.listing⟩

/-- `artist` has the listing `k` on sale. -/
def Shelves.OnSale (m : Shelves) (artist : Address) (k : Nat) : Prop :=
  ∃ l, m.listing k = some l ∧ l.artist = artist ∧ l.status = .active

/-- What `artist` has on sale is still before the sweep. -/
structure Shelves.Tracks (m : Shelves) (artist : Address) (ids : List Nat) : Prop where
  lists : (m.docket artist).index.Lists ids
  bound : ids.length ≤ u32Max
  start_le : (m.docket artist).start ≤ ids.length
  ahead : ∀ k, m.OnSale artist k → k ∈ ids.drop (m.docket artist).start

/-- A listing of `artist` is put on sale, under an id that is appended to the index of the artist. -/
def Shelves.Enters (artist : Address) (m m' : Shelves) : Prop :=
  ∃ k l ix, l.artist = artist ∧ (m.docket artist).index.append k = some ix ∧
    m' = { docket := update m.docket artist { m.docket artist with index := ix },
           listing := update m.listing k (some l) }

namespace Shelves

variable {m m' : Shelves} {other : Address} {ids : List Nat}

/-- Nothing is put on sale, and the cursor moves past what is not on sale any more. -/
theorem Tracks.moved (h : m.Tracks artist ids)
    (hdocket : m'.docket artist = { m.docket artist with cursor := c }) (hstop : c.getD 0 ≤ ids.length)
    (hsale : ∀ k, m'.OnSale artist k → m.OnSale artist k)
    (hswept : ∀ p k, (m.docket artist).start ≤ p → p < c.getD 0 → ids[p]? = some k →
      ¬ m'.OnSale artist k) : m'.Tracks artist ids where
  lists := hdocket ▸ h.lists
  bound := h.bound
  start_le := by
    rw [hdocket]
    exact hstop
  ahead k hk := by
    rw [hdocket]
    change k ∈ ids.drop (c.getD 0)
    -- the listing is found at some position from the old cursor on, and not before the new one
    obtain ⟨i, hi⟩ := List.mem_iff_getElem?.mp (h.ahead k (hsale k hk))
    rw [List.getElem?_drop] at hi
    have hge : c.getD 0 ≤ (m.docket artist).start + i := by
      by_contra hlt
      exact hswept _ k (Nat.le_add_right ..) (by omega) hi hk
    refine List.mem_iff_getElem?.mpr ⟨(m.docket artist).start + i - c.getD 0, ?_⟩
    rw [List.getElem?_drop, ← hi]
    congr 1
    omega

/-- Nothing is put on sale, and the docket stays. -/
theorem Tracks.stay (h : m.Tracks artist ids) (hdocket : m'.docket artist = m.docket artist)
    (hsale : ∀ k, m'.OnSale artist k → m.OnSale artist k) : m'.Tracks artist ids :=
  h.moved (c := (m.docket artist).cursor) hdocket h.start_le hsale
    fun _ _ hp hlt => absurd hlt (Nat.not_lt.mpr hp)

/-- What others put on sale is nothing of the artist's. -/
theorem Enters.onSale_other (h : Enters other m m') (hne : other ≠ artist) (hk : m'.OnSale artist k) :
    m.OnSale artist k := by
  obtain ⟨j, l, ix, rfl, -, rfl⟩ := h
  obtain ⟨l', hl', hartist, hactive⟩ := hk
  change update m.listing j (some l) k = some l' at hl'
  rw [update_apply] at hl'
  split at hl'
  · cases hl'
    exact (hne hartist).elim
  · exact ⟨l', hl', hartist, hactive⟩

theorem Enters.cursor_eq (h : Enters other m m') :
    (m'.docket artist).cursor = (m.docket artist).cursor := by
  obtain ⟨j, l, ix, -, -, rfl⟩ := h
  change (update m.docket other _ artist).cursor = _
  rw [update_apply]
  split
  · rename_i heq
    rw [heq]
  · rfl

/-- A new listing is appended to the index; it is before the sweep, which has not begun. -/
theorem Tracks.enters (h : m.Tracks artist ids) (henters : Enters other m m')
    (hidle : other = artist → (m.docket artist).cursor = none) : ∃ ids', m'.Tracks artist ids' := by
  by_cases hother : other = artist
  · have hstart : (m'.docket artist).start = 0 := by
      rw [Docket.start, henters.cursor_eq, hidle hother]
      rfl
    obtain ⟨j, l, ix, -, happend, rfl⟩ := henters
    subst hother
    have hdocket : update m.docket other { m.docket other with index := ix } other =
        { m.docket other with index := ix } := update_self ..
    have hfull : (m.docket other).index.len + 1 ≤ u32Max := by
      simp only [PagedIndex.append, Option.ite_none_right_eq_some] at happend
      exact happend.1
    refine ⟨ids ++ [j], ?_, ?_, hstart ▸ Nat.zero_le _, fun k hk => ?_⟩
    · change (update m.docket other _ other).index.Lists _
      rw [hdocket]
      exact h.lists.append happend
    · rw [List.length_append, List.length_singleton, ← h.lists.len]
      exact hfull
    · rw [hstart, List.drop_zero, List.mem_append]
      obtain ⟨l', hl', hartist, hactive⟩ := hk
      change update m.listing j (some l) k = some l' at hl'
      rw [update_apply] at hl'
      split at hl'
      · rename_i hkj
        exact .inr (List.mem_singleton.mpr hkj)
      · exact .inl (List.mem_of_mem_drop (h.ahead k ⟨l', hl', hartist, hactive⟩))
  · refine ⟨ids, h.stay ?_ fun k => henters.onSale_other hother⟩
    obtain ⟨j, l, ix, -, -, rfl⟩ := henters
    exact update_of_ne (Ne.symm hother) ..

theorem Tracks.entersAll (h : ∃ ids, m.Tracks artist ids) (hchain : ReflTransGen (Enters other) m m')
    (hidle : other = artist → (m.docket artist).cursor = none) :
    (∃ ids, m'.Tracks artist ids) ∧ (m'.docket artist).cursor = (m.docket artist).cursor := by
  induction hchain with
  | refl => exact ⟨h, rfl⟩
  | tail _ henters ih =>
    obtain ⟨⟨ids, htracks⟩, hcursor⟩ := ih
    refine ⟨htracks.enters henters fun heq => ?_, henters.cursor_eq.trans hcursor⟩
    rw [hcursor]
    exact hidle heq

end Shelves

/-! ### Which calls touch the dockets -/

theorem dockets_eq (hhistory : w'.field .history = w.field .history) (hupkeep : w'.upkeep = w.upkeep) :
    w'.dockets = w.dockets := by
  funext artist
  rw [World.dockets, World.dockets, index_of_history hhistory (by simp), hupkeep]

instance : Ignores (World.dockets (C := C)) World.field besideIndexes where
  eq_of_outside h := dockets_eq (h .history (by decide)) (h .upkeep (by decide))

instance : Ignores (World.shelves (C := C)) World.field
    ([.config, .legacy, .accounting, .listingCount, .auctionCount, .auction, .auctionBids,
      .offerCount, .offer, .escrowedToken, .events, .collections, .transfers] ++ Field.background) where
  eq_of_outside {w w'} h := by
    have hlisting : w'.listing = w.listing := h .listing (by decide)
    have hdockets := dockets_eq (h .history (by decide)) (h .upkeep (by decide))
    rw [World.shelves, World.shelves, hlisting, hdockets]

/-- Other indexes. -/
theorem dockets_indexAppend {id : IndexId} (hid : ∀ artist, .artistListings artist ≠ id) :
    Preserves World.dockets (indexAppend id v : Tx C Unit) where
  eq h := by
    obtain ⟨ix, -, rfl⟩ := returns_indexAppend h
    funext artist
    simp only [World.dockets, update_of_ne (hid artist)]

instance : Preserves World.dockets (indexAppend .tokenWhitelist v : Tx C Unit) :=
  dockets_indexAppend fun _ => by simp

instance (creator : Address) :
    Preserves World.dockets (indexAppend (.artistAuctions creator) v : Tx C Unit) :=
  dockets_indexAppend fun _ => by simp

instance (listingId : Nat) :
    Preserves World.dockets (indexAppend (.listingOffers listingId) v : Tx C Unit) :=
  dockets_indexAppend fun _ => by simp

instance (offerer : Address) :
    Preserves World.dockets (indexAppend (.offererOffers offerer) v : Tx C Unit) :=
  dockets_indexAppend fun _ => by simp

/-- Other cursors. -/
instance (ttl : Upkeep → Option TtlSweepProgress)
    (cleanup : Upkeep → Option TerminalCleanupCursor)
    (cursor : Upkeep → String → Option MigrationProgress) (stuck done : Upkeep → String → Bool) :
    Preserves World.dockets (modifyUpkeep fun u => { u with
      ttlSweepState := ttl u, terminalCleanupCursor := cleanup u, migrationCursor := cursor u,
      migrationStuck := stuck u, migrationDone := done u } : Tx C Unit) :=
  .update fun _ => rfl

/-- The artist whose docket a call may write. -/
def Op.handles : Op → Option Address
  | .listing (.createListing artist _) => some artist
  | .listing (.createListings artist _) => some artist
  | .listing (.cancelArtistListings _ artist _) => some artist
  | .admin (.reinstateArtist _ artist) => some artist
  | _ => none

/-- **Dockets.** Calls that handle no artist leave all dockets alone. -/
theorem op_dockets (hlegacy : w.legacy = .empty) (hop : op.handles = none)
    (h : Returns (op.exec host env) w () w') : w'.dockets = w.dockets := by
  by_cases hadd : ∃ admin token, op = .admin (.addTokenToWhitelist admin token)
  · obtain ⟨admin, token, rfl⟩ := hadd
    suffices Preserves World.dockets (addTokenToWhitelist host env admin token) from this.eq h
    refine .next fun _ => .next fun _ => .next fun config => ?_
    split <;> infer_instance
  · refine op_observation ?_ hlegacy h
    unfold Op.AppendsAside
    split <;> first | exact hadd ⟨_, _, rfl⟩ | trivial

/-! ### What is put on sale -/

/-- `l'` is a listing of the same artist, and has been put on sale no later than `l`. -/
structure Listing.NoNewSale (l l' : Listing) : Prop where
  artist : l'.artist = l.artist
  active : l'.status = .active → l.status = .active

/-- Edits keep the artist of a listing and put nothing back on sale. -/
theorem Listing.Edit.noNewSale (h : l.Edit updates l') (hopen : l.Open l') : l.NoNewSale l' := by
  refine ⟨h.sameOrigin.artist, fun hactive => ?_⟩
  rcases (h.follows hopen).status with hsame | ⟨hbefore, -⟩
  · rw [← hsame]
    exact hactive
  · exact hbefore

theorem onSale_of_turns
    (h : ReflTransGen (Listing.Turn [] updates) w.catalogue r) (hl : r.get k = some l)
    (hartist : l.artist = artist) (hactive : l.status = .active) : w.shelves.OnSale artist k := by
  obtain ⟨l0, hsale, hheld | hnew⟩ := Register.origin
    (fun _ => ⟨rfl, id⟩) (fun _ _ _ h h' => ⟨h'.artist.trans h.artist, h.active ∘ h'.active⟩)
    (fun _ _ _ hedit => hedit.1.noNewSale hedit.2) h hl
  · exact ⟨l0, hheld, hsale.artist.symm.trans hartist, hsale.active hactive⟩
  · obtain ⟨artist, createdAt, request, hrequest⟩ := hnew
    cases hrequest

/-- Calls that carry no request to list put nothing on sale. -/
theorem op_onSale (hkeyed : w.book.Keyed) (hop : op.creates = [])
    (h : Returns (op.exec host env) w () w') (hk : w'.shelves.OnSale artist k) :
    w.shelves.OnSale artist k := by
  obtain ⟨l, hl, hartist, hactive⟩ := hk
  have hturns := op_turns hkeyed h
  rw [hop] at hturns
  exact onSale_of_turns hturns hl hartist hactive

/-! ### Creation -/

instance : Stable (fun _ => True) (Shelves.Enters artist) := ⟨fun _ _ => trivial⟩

/-- A listing is put on sale by saving it and appending its id. -/
theorem enters_of_save (hsave : Returns (saveListing l) w () w1)
    (happend : Returns (indexAppend (.artistListings l.artist) l.listingId) w1 u w2) :
    Shelves.Enters l.artist w.shelves w2.shelves := by
  obtain rfl := hsave.update
  obtain ⟨ix, hix, rfl⟩ := returns_indexAppend happend
  refine ⟨l.listingId, l, ix, rfl, hix, ?_⟩
  refine congrArg₂ Shelves.mk ?_ rfl
  funext artist
  by_cases hartist : artist = l.artist
  · simp [World.dockets, World.shelves, hartist]
  · simp [World.dockets, World.shelves, hartist]

instance :
    Evolves World.shelves (fun _ => True) (Shelves.Enters artist)
      (createListingInner host env artist request) := by
  refine .skip fun _ => .skip fun _ => .skip fun _ => .skip fun _ => .skip fun _ => .skip fun fee =>
    .skip fun _ => .skip fun _ => .skip fun _ => .skip fun _ => .skip fun id => ⟨?_⟩
  intro w id' w' _ h
  obtain ⟨w1, hsave, h⟩ := h.seq
  obtain ⟨w2, happend, h⟩ := h.seq
  -- what follows is none of the shelves' business
  rw [h.last (f := World.shelves) rfl]
  exact .single (enters_of_save hsave happend)

/-- `require_not_revoked`. -/
theorem notRevoked_of_returns (h : Returns (requireNotRevoked artist) w u w') :
    w.config.revokedArtist artist = false := by
  simpa using (h.passed).1

/-- Who lists is not revoked, and does nothing to the shelves but list. -/
theorem createListing_enters {id : Nat}
    (h : Returns (createListing host env artist request) w id w') :
    w.config.revokedArtist artist = false ∧
      ReflTransGen (Shelves.Enters artist) w.shelves w'.shelves := by
  have hshelves : Evolves World.shelves (fun _ => True) (Shelves.Enters artist)
      (createListing host env artist request) := by
    infer_instance
  refine ⟨?_, hshelves.evolves trivial h⟩
  obtain ⟨_, _, w2, e, h⟩ := h.skip₂ (f := World.config) rfl
  obtain ⟨w3, hcheck, -⟩ := h.seq
  rw [← e]
  exact notRevoked_of_returns hcheck

theorem createListings_enters (h : Returns (createListings host env artist requests) w ids w') :
    w.config.revokedArtist artist = false ∧
      ReflTransGen (Shelves.Enters artist) w.shelves w'.shelves := by
  have hshelves : Evolves World.shelves (fun _ => True) (Shelves.Enters artist)
      (createListings host env artist requests) := by
    have hcollect : Evolves World.shelves (fun _ => True) (Shelves.Enters artist)
        (collect (createListingInner host env artist) requests) :=
      .collect fun _ _ => inferInstance
    infer_instance
  refine ⟨?_, hshelves.evolves trivial h⟩
  obtain ⟨_, w1, e, h⟩ := h.skip (f := World.config) rfl
  obtain ⟨w2, hcheck, -⟩ := h.seq
  rw [← e]
  exact notRevoked_of_returns hcheck

theorem creates_eq_nil (hop : op.handles = none) : op.creates = [] := by
  cases op with
  | listing op => cases op <;> first | rfl | cases hop
  | _ => rfl

/-! ### The sweep -/

/-- The positions the loop of `cancel_artist_listings` visits. -/
def Docket.window (d : Docket) (maxItems : Nat) : List Nat :=
  List.range' d.start (min (saturatingAddU32 d.start maxItems) d.index.len - d.start)

/-- A visit takes the listing at its position off sale and leaves everything else where it is. -/
theorem cancelArtistListingAt_visits (hkeyed : w.catalogue.Keyed Listing.listingId)
    (h : Returns (cancelArtistListingAt host env admin artist pos) w u w') :
    w'.catalogue.Keyed Listing.listingId ∧ w'.dockets = w.dockets ∧
      (∀ a k, w'.shelves.OnSale a k → w.shelves.OnSale a k) ∧
      ∀ a k, (w.dockets artist).index.get pos = some k → ¬ w'.shelves.OnSale a k := by
  have hturns : ReflTransGen (Listing.Turn [] []) w.catalogue w'.catalogue :=
    Evolves.evolves hkeyed h
  refine ⟨Stable.steps hkeyed hturns, Preserves.eq h, fun a k hk => ?_, fun a k hget hk => ?_⟩
  · obtain ⟨l, hl, hartist, hactive⟩ := hk
    exact onSale_of_turns hturns hl hartist hactive
  · obtain ⟨l', hl', -, hactive⟩ := hk
    obtain ⟨k', hk', h⟩ := h.found
    obtain rfl : k' = k := Option.mem_unique hk' hget
    replace h := h.view
    rcases returns_onSome.mp h with ⟨l, hl, h⟩ | ⟨hnone, rfl⟩
    · rcases h.when with ⟨-, h⟩ | ⟨hclosed, rfl⟩
      · -- the listing is cancelled under the id it carries, which is the one it was found under
        have hid : l.listingId = k' := hkeyed.id_eq hl
        change w'.listing k' = some l' at hl'
        rw [transitionListingToCancelled_listing h, hid, update_self] at hl'
        cases hl'
        cases hactive
      · obtain rfl : l = l' := Option.mem_unique hl hl'
        exact hclosed hactive
    · change w.listing k' = some l' at hl'
      rw [hnone] at hl'
      cases hl'

/-- The loop: what has been visited is off sale. -/
theorem cancelArtistListings_loop (hkeyed : w.catalogue.Keyed Listing.listingId)
    (h : Returns (each (cancelArtistListingAt host env admin artist) positions) w u w') :
    w'.dockets = w.dockets ∧
      ∀ a p k, p ∈ positions → (w.dockets artist).index.get p = some k → ¬ w'.shelves.OnSale a k := by
  refine (h.each_induction (R := fun positions w w' => w.catalogue.Keyed Listing.listingId →
    w'.dockets = w.dockets ∧ (∀ a k, w'.shelves.OnSale a k → w.shelves.OnSale a k) ∧
      ∀ a p k, p ∈ positions → (w.dockets artist).index.get p = some k →
        ¬ w'.shelves.OnSale a k) ?_ ?_ hkeyed).imp_right And.right
  · exact fun w _ => ⟨rfl, fun _ _ => id, fun _ _ _ hp => by cases hp⟩
  · intro pos rest w w1 w2 hvisit hrest hkeyed
    obtain ⟨hkeyed1, hdockets, hsale, hoff⟩ := cancelArtistListingAt_visits hkeyed hvisit
    obtain ⟨hdockets1, hsale1, hoff1⟩ := hrest hkeyed1
    refine ⟨hdockets1.trans hdockets, fun a k hk => hsale a k (hsale1 a k hk), ?_⟩
    intro a p k hp hget hk
    rcases List.mem_cons.mp hp with rfl | hp
    · exact hoff a k hget (hsale1 a k hk)
    · exact hoff1 a p k hp (hdockets ▸ hget) hk

theorem dockets_setCursor (hindex : w'.index = w.index)
    (hcursor : w'.upkeep.artistCancelCursor = update w.upkeep.artistCancelCursor artist cursor) :
    w'.dockets = update w.dockets artist { w.dockets artist with cursor } := by
  funext a
  by_cases ha : a = artist
  · simp [World.dockets, hindex, hcursor, ha]
  · simp [World.dockets, hindex, hcursor, ha]

/-- A call for a revoked artist visits its window, moves the cursor to the end of it and returns how many
positions are left. -/
theorem cancelArtistListings_revoked
    (hkeyed : w.catalogue.Keyed Listing.listingId) (hrevoked : w.config.revokedArtist artist = true)
    (h : Returns (cancelArtistListings host env admin artist maxItems) w n w') : let d := w.dockets artist
    let stop := max d.start (min (saturatingAddU32 d.start maxItems) d.index.len)
    w'.dockets = update w.dockets artist { d with cursor := some stop } ∧
      n = d.index.len - stop ∧
      ∀ p k, p ∈ d.window maxItems → d.index.get p = some k → ¬ w'.shelves.OnSale artist k := by
  intro d stop
  obtain ⟨_, h⟩ := h.pass
  replace h := h.view
  rw [if_pos hrevoked] at h
  obtain ⟨w2, hloop, h⟩ := h.seq
  obtain ⟨hdockets, hoff⟩ := cancelArtistListings_loop hkeyed hloop
  obtain ⟨hn, rfl⟩ := h.value
  simp only [Option.ite_none_right_eq_some, Option.some.injEq] at hn
  refine ⟨?_, hn.2.symm, hoff artist⟩
  have hdocket : d = w2.dockets artist := (congrFun hdockets artist).symm
  rw [← hdockets, hdocket]
  exact dockets_setCursor rfl rfl

theorem listingOp_config {op : ListingOp} (h : Returns ((Op.listing op).exec host env) w () w') :
    w'.config = w.config :=
  op_frame h (F := .config) (by cases op <;> simp [Op.footprint, ListingOp.footprint])

/-- A call for an artist who is not revoked drops the cursor. -/
theorem cancelArtistListings_idle
    (hrevoked : w.config.revokedArtist artist = false)
    (h : Returns (cancelArtistListings host env admin artist maxItems) w n w') :
    w'.dockets = update w.dockets artist { w.dockets artist with cursor := none } := by
  obtain ⟨_, h⟩ := h.pass
  replace h := h.view
  rw [if_neg (by simp [hrevoked])] at h
  obtain ⟨-, rfl⟩ := h.pure
  exact dockets_setCursor rfl rfl

/-- A call leaves the docket of every artist alone but the revoked artist it sweeps for. -/
theorem cancelArtistListings_other (hkeyed : w.book.Keyed)
    (hother : ¬ (a = artist ∧ w.config.revokedArtist artist = true))
    (hidle : w.config.revokedArtist artist = false → (w.dockets artist).cursor = none)
    (h : Returns (cancelArtistListings host env admin a maxItems) w n w') :
    w'.dockets artist = w.dockets artist := by
  by_cases hrevoked : w.config.revokedArtist a = true
  · have hne : artist ≠ a := fun heq => hother ⟨heq.symm, heq ▸ hrevoked⟩
    rw [(cancelArtistListings_revoked hkeyed.catalogue hrevoked h).1, update_of_ne hne]
  · have hfalse : w.config.revokedArtist a = false := by simpa using hrevoked
    rw [cancelArtistListings_idle hfalse h, update_apply]
    split
    · -- the cursor that is dropped was not there
      rename_i heq
      rw [heq] at hidle ⊢
      rw [← hidle hfalse]
    · rfl

/-! ### The record of a sweep -/

/-- What goes on record about the sweep over the listings of one artist. -/
inductive SweepEvent
  | visit (pos : Nat)
  | reinstated

/-- The positions a call visits in the index of a revoked artist, and the reinstatements of the artist. -/
def sweepRecord (artist : Address) (_ : Env) (op : Op) (w _ : World C) : List SweepEvent :=
  match op with
  | .listing (.cancelArtistListings _ a maxItems) =>
    if a = artist ∧ w.config.revokedArtist artist = true then
      ((w.dockets artist).window maxItems).map .visit
    else []
  | .admin (.reinstateArtist _ a) => if a = artist then [.reinstated] else []
  | _ => []

def SweepEvent.note (seen : List Nat) : SweepEvent → List Nat
  | .visit pos => seen ++ [pos]
  | .reinstated => []

/-- The positions visited since the last reinstatement. -/
def visited (log : List SweepEvent) : List Nat := log.foldl SweepEvent.note []

theorem visited_visits (log : List SweepEvent) (positions : List Nat) :
    visited (log ++ positions.map .visit) = visited log ++ positions := by
  induction positions generalizing log with
  | nil => simp
  | cons pos rest ih =>
    have hrest := ih (log ++ [.visit pos])
    rw [List.append_assoc, List.singleton_append] at hrest
    rw [List.map_cons, hrest]
    simp [visited, SweepEvent.note]

theorem visited_reinstated (log : List SweepEvent) : visited (log ++ [.reinstated]) = [] := by
  simp [visited, SweepEvent.note]

theorem sweepRecord_eq_nil (hop : op.handles = none) (artist : Address) :
    sweepRecord artist env op w w' = [] := by
  unfold sweepRecord
  split
  · cases hop
  · cases hop
  · rfl

theorem range_append_range' (h : start ≤ stop) :
    List.range start ++ List.range' start (stop - start) = List.range stop := by
  have happend := List.range'_append_1 (s := 0) (m := start) (n := stop - start)
  rwa [Nat.zero_add, Nat.add_sub_cancel' h, ← List.range_eq_range', ← List.range_eq_range'] at happend

/-! ### The invariant -/

/-- What the artist has on sale is before the sweep, a sweep is under way only while the artist is
revoked, and the positions seen are those before the cursor. -/
structure World.Moderated (w : World C) (artist : Address) (seen : List Nat) : Prop where
  tracks : ∃ ids, w.shelves.Tracks artist ids
  idle : w.config.revokedArtist artist = false → (w.dockets artist).cursor = none
  seen : seen = List.range (w.dockets artist).start

/-- Only a reinstatement ends a revocation. -/
theorem op_revoked (hop : op.handles = none) (h : Returns (op.exec host env) w () w')
    (hartist : w'.config.revokedArtist artist = false) : w.config.revokedArtist artist = false := by
  by_cases hrevoke : ∃ caller a, op = .admin (.revokeArtist caller a)
  · obtain ⟨caller, a, rfl⟩ := hrevoke
    obtain ⟨_, h⟩ := h.pass
    obtain rfl := h.update
    change update w.config.revokedArtist a true artist = false at hartist
    rw [update_apply] at hartist
    split at hartist
    · cases hartist
    · exact hartist
  · have hset : Setting.revoked ∉ op.sets := by
      cases op with
      | admin op => cases op <;> simp_all [Op.sets, AdminOp.sets, Op.handles]
      | _ => simp [Op.sets]
    have hsame : w'.config.revokedArtist = w.config.revokedArtist := op_setting h hset
    rwa [hsame] at hartist

theorem reinstateArtist_shelves
    (h : Returns (reinstateArtist env caller artist) w u w') :
    w'.dockets = update w.dockets artist { w.dockets artist with cursor := none } ∧
      w'.config.revokedArtist = update w.config.revokedArtist artist false := by
  obtain ⟨_, h⟩ := h.pass
  obtain rfl := h.update
  exact ⟨dockets_setCursor rfl rfl, rfl⟩

namespace World.Moderated

variable {log : List SweepEvent}

/-- Calls that leave the docket of the artist alone, and put nothing of the artist's on sale. -/
theorem stay (hw : w.Moderated artist seen) (hdocket : w'.dockets artist = w.dockets artist)
    (hsale : ∀ k, w'.shelves.OnSale artist k → w.shelves.OnSale artist k)
    (hrevoked : w'.config.revokedArtist artist = false → w.config.revokedArtist artist = false) :
    w'.Moderated artist seen where
  tracks := hw.tracks.imp fun _ htracks => htracks.stay hdocket hsale
  idle hartist := by
    rw [hdocket]
    exact hw.idle (hrevoked hartist)
  seen := by
    rw [hdocket]
    exact hw.seen

/-- Creation. -/
theorem enters (hw : w.Moderated artist seen) (hlister : w.config.revokedArtist lister = false)
    (hshelves : ReflTransGen (Shelves.Enters lister) w.shelves w'.shelves)
    (hconfig : w'.config = w.config) : w'.Moderated artist seen := by
  have hkept := Shelves.Tracks.entersAll hw.tracks hshelves fun heq => hw.idle (heq ▸ hlister)
  refine ⟨hkept.1, fun hartist => ?_, ?_⟩
  · rw [hconfig] at hartist
    exact hkept.2.trans (hw.idle hartist)
  · rw [hw.seen]
    exact congrArg (fun c => List.range (Option.getD c 0)) hkept.2.symm

/-- Reinstatement. -/
theorem reinstated (hw : w.Moderated artist (visited log)) (hlisting : w'.listing = w.listing)
    (h : Returns (reinstateArtist env caller a) w u w') :
    w'.Moderated artist (visited (log ++ if a = artist then [.reinstated] else [])) := by
  obtain ⟨hdockets, hrevoked⟩ := reinstateArtist_shelves h
  have hsale (k : Nat) (hk : w'.shelves.OnSale artist k) : w.shelves.OnSale artist k := by
    obtain ⟨l, hl, hrest⟩ := hk
    change w'.listing k = some l at hl
    rw [hlisting] at hl
    exact ⟨l, hl, hrest⟩
  split
  · rename_i heq
    subst heq
    have hdocket : w'.dockets a = { w.dockets a with cursor := none } := by
      rw [hdockets, update_self]
    refine ⟨hw.tracks.imp fun _ htracks => htracks.moved hdocket (Nat.zero_le _) hsale (by simp),
      fun _ => ?_, ?_⟩
    · rw [hdocket]
    · rw [visited_reinstated, hdocket]
      rfl
  · rename_i hne
    rw [List.append_nil]
    refine hw.stay ?_ hsale fun hartist => ?_
    · rw [hdockets, update_of_ne (Ne.symm hne)]
    · rwa [hrevoked, update_of_ne (Ne.symm hne)] at hartist

/-- The sweep over the listings of the artist. -/
theorem swept (hw : w.Moderated artist (visited log)) (hkeyed : w.book.Keyed)
    (hrevoked : w.config.revokedArtist artist = true) (hconfig : w'.config = w.config)
    (hsale : ∀ k, w'.shelves.OnSale artist k → w.shelves.OnSale artist k)
    (h : Returns (cancelArtistListings host env admin artist maxItems) w n w') :
    w'.Moderated artist (visited (log ++ ((w.dockets artist).window maxItems).map .visit)) := by
  obtain ⟨hdockets, -, hoff⟩ := cancelArtistListings_revoked hkeyed.catalogue hrevoked h
  obtain ⟨ids, htracks⟩ := hw.tracks
  have hlen : (w.dockets artist).index.len = ids.length := htracks.lists.len
  have hstart : (w.dockets artist).start ≤ ids.length := htracks.start_le
  set d := w.dockets artist with hd
  set stop := max d.start (min (saturatingAddU32 d.start maxItems) d.index.len) with hstop
  have hdocket : w'.dockets artist = { d with cursor := some stop } := by
    rw [hdockets, update_self]
  refine ⟨⟨ids, htracks.moved hdocket (Nat.max_le.mpr ⟨hstart, by omega⟩) hsale ?_⟩,
    fun hartist => ?_, ?_⟩
  · intro p k hp hlt hget
    refine hoff p k ?_ ?_
    · rw [Docket.window, List.mem_range'_1]
      change d.start ≤ p at hp
      change p < stop at hlt
      omega
    · rw [← hget]
      exact htracks.lists.get_eq p
  · rw [hconfig, hrevoked] at hartist
    cases hartist
  · -- the window continues where the record ends
    have hwindow : d.window maxItems = List.range' d.start (stop - d.start) := by
      rw [Docket.window]
      congr 1
      omega
    rw [visited_visits, hw.seen, hwindow, hdocket]
    exact range_append_range' (Nat.le_max_left ..)

/-- **One call.** -/
theorem call (hw : w.Moderated artist (visited log)) (hkeyed : w.book.Keyed)
    (h : Returns (op.exec host env) w () w') :
    w'.Moderated artist (visited (log ++ sweepRecord artist env op w w')) := by
  by_cases hop : op.handles = none
  · rw [sweepRecord_eq_nil hop, List.append_nil]
    refine hw.stay ?_ (fun k => op_onSale hkeyed (creates_eq_nil hop) h) (op_revoked hop h)
    rw [op_dockets hkeyed.legacy hop h]
  · unfold Op.handles at hop
    split at hop
    · have hconfig := listingOp_config h
      obtain ⟨id, h⟩ := h.discard
      obtain ⟨hlister, henters⟩ := createListing_enters h
      rw [show sweepRecord _ _ _ w w' = [] from rfl, List.append_nil]
      exact hw.enters hlister henters hconfig
    · have hconfig := listingOp_config h
      obtain ⟨ids, h⟩ := h.discard
      obtain ⟨hlister, henters⟩ := createListings_enters h
      rw [show sweepRecord _ _ _ w w' = [] from rfl, List.append_nil]
      exact hw.enters hlister henters hconfig
    · have hconfig := listingOp_config h
      have hsale (k : Nat) : w'.shelves.OnSale artist k → w.shelves.OnSale artist k :=
        op_onSale hkeyed rfl h
      obtain ⟨n, h⟩ := h.discard
      unfold sweepRecord
      dsimp only
      split
      · rename_i hcase
        obtain ⟨rfl, hrevoked⟩ := hcase
        exact hw.swept hkeyed hrevoked hconfig hsale h
      · rename_i hcase
        rw [List.append_nil]
        refine hw.stay (cancelArtistListings_other hkeyed hcase hw.idle h) hsale fun hartist => ?_
        rwa [hconfig] at hartist
    · exact hw.reinstated (op_frame h (F := .listing) (by simp [Op.footprint])) h
    · exact (hop rfl).elim

end World.Moderated

/-! ### Runs -/

theorem run_moderated (host : Host C) (balances : Address × Address → Int) (collections : C)
    (artist : Address) (steps : List (Step C)) :
    (run host (.fresh balances collections) steps).Moderated artist
      (visited (record host (sweepRecord artist) (.fresh balances collections) steps)) := by
  refine run_record (sweepRecord artist)
    (I := fun log w => w.Moderated artist (visited log)) (Run.along_of_forall fun _ _ => trivial)
    ?_ ?_ ?_
  · refine ⟨⟨[], PagedIndex.lists_empty, Nat.zero_le _, Nat.le_refl _, fun k hk => ?_⟩, fun _ => rfl,
      rfl⟩
    obtain ⟨l, hl, -⟩ := hk
    cases hl
  · exact fun log env op w w' hreach _ h hw => hw.call hreach.keyed h
  · exact fun log w collections balances hw => ⟨hw.tracks, hw.idle, hw.seen⟩

/-- While an artist is revoked, no call puts anything of the artist's on sale. -/
theorem op_onSale_of_revoked (hkeyed : w.book.Keyed)
    (hrevoked : w.config.revokedArtist artist = true) (h : Returns (op.exec host env) w () w')
    (hk : w'.shelves.OnSale artist k) : w.shelves.OnSale artist k := by
  by_cases hop : op.creates = []
  · exact op_onSale hkeyed hop h hk
  · -- whoever lists is somebody else, who is not revoked
    obtain ⟨lister, hlister, henters⟩ : ∃ lister, w.config.revokedArtist lister = false ∧
        ReflTransGen (Shelves.Enters lister) w.shelves w'.shelves := by
      unfold Op.creates at hop
      split at hop
      · obtain ⟨id, h⟩ := h.discard
        exact ⟨_, createListing_enters h⟩
      · obtain ⟨ids, h⟩ := h.discard
        exact ⟨_, createListings_enters h⟩
      · exact (hop rfl).elim
    have hne : lister ≠ artist := by
      rintro rfl
      rw [hrevoked] at hlister
      cases hlister
    generalize w'.shelves = m' at henters hk
    induction henters with
    | refl => exact hk
    | tail _ hlast ih => exact ih (hlast.onSale_other hne hk)

/-- An artist who has nothing on sale has nothing on sale until the artist is reinstated. -/
theorem run_offSale (hreach : Reachable host w)
    (hrevoked : w.config.revokedArtist artist = true) (hoff : ∀ k, ¬ w.shelves.OnSale artist k)
    (hlater : Run.Along (step host) (fun w s => (step host w s).config.revokedArtist artist = true) w
      later) (k : Nat) : ¬ (run host w later).shelves.OnSale artist k := by
  refine (hlater.invariant (I := fun w => Reachable host w ∧ w.config.revokedArtist artist = true ∧
    ∀ k, ¬ w.shelves.OnSale artist k) ⟨hreach, hrevoked, hoff⟩ ?_).2.2 k
  rintro w s ⟨hreach, hrevoked, hoff⟩ hstays
  refine ⟨hreach.step s, hstays, fun k hk => ?_⟩
  cases s with
  | call env op =>
    rcases step_call host w env op with ⟨w', h, heq⟩ | heq
    · rw [heq] at hk
      exact hoff k (op_onSale_of_revoked hreach.keyed hrevoked h hk)
    · rw [heq] at hk
      exact hoff k hk
  | external collections balances => exact hoff k hk

/-! ### Completeness -/

/-- The positions of the index of `artist` that are not among those seen. -/
def World.unvisited (w : World C) (artist : Address) (seen : List Nat) : List Nat :=
  (List.range (w.index (.artistListings artist)).len).filter fun pos => pos ∉ seen

theorem World.Moderated.length_unvisited (h : w.Moderated artist seen) :
    (w.unvisited artist seen).length = (w.dockets artist).index.len - (w.dockets artist).start := by
  obtain ⟨ids, htracks⟩ := h.tracks
  have hle : (w.dockets artist).start ≤ (w.dockets artist).index.len := by
    rw [show (w.dockets artist).index.len = ids.length from htracks.lists.len]
    exact htracks.start_le
  set start := (w.dockets artist).start with hstart
  set len := (w.dockets artist).index.len with hlen
  -- the range falls into what has been seen and what has not
  have hsplit : List.range start ++ List.range' start (len - start) = List.range len :=
    range_append_range' hle
  have hseen : seen = List.range start := h.seen
  change ((List.range len).filter _).length = _
  have hbehind : ∀ pos ∈ List.range' start (len - start), decide (pos ∉ List.range start) = true := by
    intro pos hpos
    have hge : start ≤ pos := (List.mem_range'_1.mp hpos).1
    simpa using hge
  rw [hseen, ← hsplit, List.filter_append, List.filter_eq_nil_iff.mpr (by simp),
    List.filter_eq_self.mpr hbehind, List.nil_append, List.length_range']

/-- **The revocation sweep is complete.** After any run, a call of `cancel_artist_listings` for a revoked
artist returns the number of positions of the artist's index that no call has visited since the artist was
last reinstated; these are fewer by `maxItems`, or by all there were. When it returns zero the artist has
nothing on sale, and that stays so until the artist is reinstated. -/
theorem revocation_sweep_complete (host : Host C) (balances : Address × Address → Int)
    (collections : C) (before : List (Step C)) (env : Env) (admin artist : Address)
    (maxItems n : Nat) (w' : World C)
    (hrevoked : (run host (.fresh balances collections) before).config.revokedArtist artist = true)
    (h : Returns (cancelArtistListings host env admin artist maxItems)
      (run host (.fresh balances collections) before) n w') :
    let fresh : World C := .fresh balances collections
    let call : Step C := .call env (.listing (.cancelArtistListings admin artist maxItems))
    let seen := visited (record host (sweepRecord artist) fresh before)
    let seen' := visited (record host (sweepRecord artist) fresh (before ++ [call]))
    let remaining := ((run host fresh before).unvisited artist seen).length
    n = (w'.unvisited artist seen').length ∧ n = remaining - min maxItems remaining ∧
      (n = 0 → ∀ later : List (Step C),
        Run.Along (step host) (fun w s => (step host w s).config.revokedArtist artist = true) w' later →
        ∀ k l, (run host w' later).listing k = some l → l.artist = artist → l.status ≠ .active) := by
  intro fresh call seen seen' remaining
  have hreach : Reachable host (run host fresh before) := reachable_run host balances collections before
  have hop : Returns (Op.exec host env (.listing (.cancelArtistListings admin artist maxItems)))
      (run host fresh before) () w' := returns_discard.mpr ⟨n, h⟩
  have hend : run host fresh (before ++ [call]) = w' := (run_of_returns hop []).symm
  have hbefore : (run host fresh before).Moderated artist seen :=
    run_moderated host balances collections artist before
  have hafter : w'.Moderated artist seen' := by
    rw [← hend]
    exact run_moderated host balances collections artist (before ++ [call])
  obtain ⟨hdockets, hn, -⟩ := cancelArtistListings_revoked hreach.keyed.catalogue hrevoked h
  obtain ⟨ids, htracks⟩ := hbefore.tracks
  have hlen : ((run host fresh before).dockets artist).index.len = ids.length := htracks.lists.len
  have hbound := htracks.bound
  have hremaining : remaining = _ := hbefore.length_unvisited
  have hdocket := congrFun hdockets artist
  rw [update_self] at hdocket
  have hleft := hafter.length_unvisited
  rw [hdocket] at hleft
  refine ⟨hn.trans hleft.symm, ?_, fun hzero later hlater k l hl hartist hactive => ?_⟩
  · rw [hn]
    simp only [saturatingAddU32]
    omega
  · have hconfig : w'.config = (run host fresh before).config := listingOp_config hop
    refine run_offSale (hreach.of_returns hop) ?_ (fun k hk => ?_) hlater k ⟨l, hl, hartist, hactive⟩
    · rw [hconfig]
      exact hrevoked
    · -- nothing is left behind the cursor
      obtain ⟨ids', htracks'⟩ := hafter.tracks
      have hlen' : (w'.dockets artist).index.len = ids'.length := htracks'.lists.len
      have hdone : ids'.length ≤ (w'.dockets artist).start := by
        rw [hn.trans hleft.symm, hafter.length_unvisited] at hzero
        omega
      have hmem : k ∈ ids'.drop (w'.dockets artist).start := htracks'.ahead k hk
      rw [List.drop_eq_nil_of_le hdone] at hmem
      cases hmem

/-- An artist lists three tokens and is revoked; the first call of the sweep visits one listing. -/
def sweepStarted : List (Step Unit) :=
  appointed ++ [.call (.signedBy ⟨10⟩ 100) (.listing (.createListings ⟨10⟩
        [⟨1000000, "XLM", ⟨50⟩, ⟨60⟩, 7, 1, [⟨⟨10⟩, 10000⟩], none⟩,
          ⟨1000000, "XLM", ⟨50⟩, ⟨60⟩, 8, 1, [⟨⟨10⟩, 10000⟩], none⟩,
          ⟨1000000, "XLM", ⟨50⟩, ⟨60⟩, 9, 1, [⟨⟨10⟩, 10000⟩], none⟩])),
      .call (.signedBy ⟨1⟩ 200) (.admin (.revokeArtist ⟨1⟩ ⟨10⟩)),
      .call (.signedBy ⟨1⟩ 300) (.listing (.cancelArtistListings ⟨1⟩ ⟨10⟩ 1))]

/-- The second call of the sweep visits the two that are left, and nothing is on sale. -/
theorem revocation_sweep_complete_sweepStarted :
    let host := Host.accepting ⟨0⟩ ⟨10⟩
    let w := run host (.fresh (fundedBidders ⟨0⟩) ()) sweepStarted
    (w.unvisited ⟨10⟩ (visited (record host (sweepRecord ⟨10⟩) (.fresh (fundedBidders ⟨0⟩) ())
      sweepStarted))).length = 2 ∧
    ∃ w', Returns (cancelArtistListings host (.signedBy ⟨1⟩ 400) ⟨1⟩ ⟨10⟩ 5) w 0 w' ∧
      ∀ k l, w'.listing k = some l → l.artist = ⟨10⟩ → l.status ≠ .active := by
  intro host w
  obtain ⟨n, w', h, hn⟩ := exists_returns
    (c := cancelArtistListings host (.signedBy ⟨1⟩ 400) ⟨1⟩ ⟨10⟩ 5) (s := w)
    (p := fun n _ => decide (n = 0)) (by decide +kernel)
  obtain rfl : n = 0 := of_decide_eq_true hn
  refine ⟨by decide +kernel, w', h, ?_⟩
  exact (revocation_sweep_complete host _ () sweepStarted _ _ _ 5 0 w' (by decide +kernel) h).2.2 rfl []
    trivial

end ElcareHub.Marketplace
