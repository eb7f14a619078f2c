import ElcareHub.Lib.Register
import ElcareHub.Marketplace.Refine.Listings

/-!
# How the listings evolve

The catalogue is the register of the listings, under the configuration the fee of a new listing is
taken from. A listing enters it as a request asks for, after the checks of the request, and is then
edited: revised or repriced by its artist, reserved, reconciled, and at last closed. `op_catalogue`
says that every call changes the catalogue in these ways only, and by the requests it carries.
-/

namespace ElcareHub.Marketplace

open Call

set_option synthInstance.maxSize 100000000

variable {C : Type} {host : Host C} {env : Env} {w w' : World C} {u : Unit}
variable {l l' : Listing} {k : Nat}
variable {rs : List Recipient} {seller buyer artist : Address} {reason : CancelReason}
  {refund : Bool} {i : Nat} {op : Op}

/-! ### The catalogue -/

/-- The listings, with the configuration in force. -/
def World.catalogue (w : World C) : Register Config Listing := ⟨w.config, w.listingCount, w.listing⟩

theorem Book.Keyed.catalogue (h : w.book.Keyed) : w.catalogue.Keyed Listing.listingId where
  id_eq hl := (h.listing hl).1
  le_count hl := (h.listing hl).2

instance : Ignores (World.catalogue (C := C)) World.field
    ([.upkeep, .legacy, .accounting, .auctionCount, .auction, .auctionBids, .offerCount, .offer,
      .escrowedToken, .history, .events, .collections, .transfers] ++ Field.background) where
  eq_of_outside h := by
    have hsame := fields_eq h [.config, .listingCount, .listing]
    simp only [List.forall_mem_cons, World.field] at hsame
    simp only [World.catalogue, hsame]

/-- The recipients have passed the checks of `validate_recipients`. -/
structure ValidRecipients (rs : List Recipient) : Prop where
  nonempty : rs ≠ []
  few : rs.length ≤ 4
  faultless : recipientsFault [] 0 rs = none

/-- The record of a new listing. -/
def Listing.opened (config : Config) (listingId : Nat) (artist : Address) (createdAt : Nat)
    (request : BatchCreateListingInput) : Listing where
  listingId := listingId
  artist := artist
  price := request.price
  currency := request.currency
  token := request.token
  collection := request.collection
  tokenId := request.tokenId
  quantity := request.quantity
  recipients := request.recipients
  status := .active
  owner := none
  createdAt := createdAt
  protocolFeeBps := config.protocolFeeBps.getD 0
  expiresAt := request.expiresAt
  reservedFor := none
  reservationStart := none
  reservationEnd := none

/-- How a listing is edited, by the updates requested. -/
inductive Listing.Edit (updates : List BatchUpdateListingInput) (l : Listing) : Listing → Prop
  | revise (request : BatchUpdateListingInput) (hrequest : request ∈ updates)
      (hprice : 0 < request.newPrice) (hrecipients : ValidRecipients request.newRecipients) :
      Edit updates l { l with
        price := request.newPrice, token := request.newToken, recipients := request.newRecipients }
  | reprice (price : Int) (hpositive : 0 < price) (hcap : price ≤ i128Max.tdiv 10000) :
      Edit updates l { l with price }
  | reserve (reservedFor : Option Address) (reservationStart reservationEnd : Option Nat) :
      Edit updates l { l with reservedFor, reservationStart, reservationEnd }
  | reconcile (owner : Address) : Edit updates l { l with owner := some owner }
  | close (status : ListingStatus) (owner : Option Address) (hactive : l.status = .active)
      (hclosed : status ≠ .active) : Edit updates l { l with status, owner }

/-- Where edits are made: on active listings, but for the owner of a listing, which is reconciled at any
time. -/
def Listing.Open (l l' : Listing) : Prop := l.status = .active ∨ l' = { l with owner := l'.owner }

/-- What no edit touches: who sells what, at which fee. -/
structure Listing.SameOrigin (l l' : Listing) : Prop where
  id : l'.listingId = l.listingId
  artist : l'.artist = l.artist
  collection : l'.collection = l.collection
  tokenId : l'.tokenId = l.tokenId
  quantity : l'.quantity = l.quantity
  protocolFeeBps : l'.protocolFeeBps = l.protocolFeeBps

theorem Listing.SameOrigin.refl (l : Listing) : l.SameOrigin l := ⟨rfl, rfl, rfl, rfl, rfl, rfl⟩

theorem Listing.SameOrigin.trans (h : l.SameOrigin l') (h' : l'.SameOrigin l'') :
    l.SameOrigin l'' where
  id := h'.id.trans h.id
  artist := h'.artist.trans h.artist
  collection := h'.collection.trans h.collection
  tokenId := h'.tokenId.trans h.tokenId
  quantity := h'.quantity.trans h.quantity
  protocolFeeBps := h'.protocolFeeBps.trans h.protocolFeeBps

theorem Listing.Edit.sameOrigin (h : l.Edit updates l') : l.SameOrigin l' := by
  cases h <;> exact ⟨rfl, rfl, rfl, rfl, rfl, rfl⟩

/-- A listing is entered as one of the requests asks for, after the checks of the request. -/
inductive Listing.New (creates : List BatchCreateListingInput) (config : Config) (k : Nat) :
    Listing → Prop
  | opened (artist : Address) (createdAt : Nat) (request : BatchCreateListingInput)
      (hrequest : request ∈ creates) (hprice : 0 < request.price)
      (hrecipients : ValidRecipients request.recipients) (hquantity : request.quantity ≠ 0) :
      New creates config k (.opened config k artist createdAt request)

instance (creates : List BatchCreateListingInput) (updates : List BatchUpdateListingInput) :
    Register.Numbered Listing.listingId (Listing.New creates) (fun _ => Listing.Edit updates) where
  new h := by
    cases h
    rfl
  edit h := h.sameOrigin.id

/-- One change of the catalogue, by the requests of a call. -/
abbrev Listing.Change (creates : List BatchCreateListingInput)
    (updates : List BatchUpdateListingInput) :
    Register Config Listing → Register Config Listing → Prop :=
  Register.Change (Listing.New creates) (fun _ => Listing.Edit updates)

/-- One change of the catalogue, made where it may be made. -/
abbrev Listing.Turn (creates : List BatchCreateListingInput)
    (updates : List BatchUpdateListingInput) :
    Register Config Listing → Register Config Listing → Prop :=
  Register.Change (Listing.New creates) (fun _ l l' => l.Edit updates l' ∧ l.Open l')

section Changes

variable {creates : List BatchCreateListingInput} {updates : List BatchUpdateListingInput}

/-- `c` changes the catalogue by the requests named. -/
abbrev Catalogues {α : Type} (creates : List BatchCreateListingInput)
    (updates : List BatchUpdateListingInput) (c : Tx C α) : Prop :=
  Evolves World.catalogue (Register.Keyed Listing.listingId) (Listing.Turn creates updates) c

/-- `c` changes the catalogue by the requests named, when `l` is stored under `k`. -/
abbrev CataloguesFrom {α : Type} (k : Nat) (l : Listing) (creates : List BatchCreateListingInput)
    (updates : List BatchUpdateListingInput) (c : Tx C α) : Prop :=
  Evolves World.catalogue (fun r => r.Keyed Listing.listingId ∧ r.get k = some l)
    (Listing.Turn creates updates) c

/-! ### Parts -/

theorem catalogues_requireListing (h : ∀ l, CataloguesFrom k l creates updates (g l)) :
    Catalogues creates updates (requireListing k >>= g) where
  evolves hw hreturns := by
    obtain ⟨l, hlisting, hrest⟩ := returns_requireListing_bind.mp hreturns
    exact (h l).evolves ⟨hw, hlisting⟩ hrest

theorem cataloguesFrom_saveListing (hedit : l.Edit updates l') (hopen : l.Open l') :
    CataloguesFrom k l creates updates (saveListing l' : Tx C Unit) :=
  Register.evolves_save (fun _ => rfl) fun _ hr => ⟨hr.1, hr.2, hedit, hopen⟩

/-! ### Creation and updates -/

theorem recipients_of_count (h : Returns (requireRecipientCount rs : Tx C Unit) w u w') :
    rs ≠ [] ∧ rs.length ≤ 4 := by
  obtain ⟨hzero, h⟩ := h.check
  obtain ⟨hmany, rfl⟩ := h.passed
  exact ⟨fun hnil => hzero (by rw [hnil]; rfl), by omega⟩

theorem recipients_faultless (h : Returns (validateRecipients rs : Tx C Unit) w u w') :
    recipientsFault [] 0 rs = none := by
  unfold validateRecipients at h
  split at h
  · exact (returns_abort h).elim
  · assumption

theorem quantity_of_compatible
    (h : Returns (requireCollectionCompatible host collection quantity) w u w') : quantity ≠ 0 := by
  obtain ⟨compatible, w1, hprobe, h⟩ := h.bind
  obtain ⟨hcompatible, rfl⟩ := h.passed
  rw [preflightCollectionCompatibility, returns_attempt] at hprobe
  rintro rfl
  split at hprobe <;> cases hprobe <;> simp at hcompatible

theorem catalogues_createListingInner (artist : Address) (hrequest : request ∈ creates) :
    Catalogues creates updates (createListingInner host env artist request) := by
  refine .abortIf fun hprice => .skip fun _ => .skip fun _ => .skip fun _ =>
    .fact recipients_of_count fun _ hfew => ?_
  refine .load (f := World.catalogue) (v := fun r => r.terms.protocolFeeBps.getD 0) fun fee => ?_
  refine .fact recipients_faultless fun _ hfaultless => .skip fun _ => .skip fun _ =>
    .fact quantity_of_compatible fun _ hquantity => ⟨?_⟩
  rintro w id w' ⟨hkeyed, rfl⟩ h
  -- the id is taken and the record saved under it; the rest does not touch the catalogue
  obtain ⟨next, w1, hnext, h⟩ := h.bind
  obtain ⟨hid, hw1⟩ := returns_counter hnext
  replace h := h.write
  have hrest := h.last (f := World.catalogue) rfl
  have hconfig : w1.config = w.config := by rw [hw1]
  have hlisting : w1.listing = w.listing := by rw [hw1]
  have hcount : w1.listingCount = w.listingCount + 1 := by rw [hw1, hid]
  rw [hrest]
  rw [hconfig, hcount, hlisting, hid]
  exact .single (.enter _ (.opened artist env.sequence request hrequest (by omega)
    ⟨hfew.1, hfew.2, hfaultless⟩ hquantity))

theorem catalogues_updateListingInner (artist : Address) (hrequest : request ∈ updates) :
    Catalogues creates updates (updateListingInner host env artist request) := by
  refine catalogues_requireListing fun l => .skip fun _ => .abortIf fun hstatus => .skip fun _ =>
    .skip fun _ => .abortIf fun hprice => .skip fun _ => .skip fun _ => .skip fun _ =>
    .fact recipients_of_count fun _ hfew => .fact recipients_faultless fun _ hfaultless => ?_
  have hsave : CataloguesFrom request.listingId l creates updates (saveListing { l with
      price := request.newPrice, token := request.newToken,
      recipients := request.newRecipients } : Tx C Unit) :=
    cataloguesFrom_saveListing (.revise request hrequest (by omega) ⟨hfew.1, hfew.2, hfaultless⟩)
      (.inl (not_not.mp hstatus))
  infer_instance

instance (price : Int) :
    Catalogues creates updates (updateListingPrice env seller k price : Tx C Bool) := by
  refine .skip fun _ => .skip fun _ => catalogues_requireListing fun l => .skip fun _ =>
    .abortIf fun hstatus => .abortIf fun hpositive => .abortIf fun hcap => .skip fun _ => ?_
  have hsave : CataloguesFrom k l creates updates (saveListing { l with price } : Tx C Unit) :=
    cataloguesFrom_saveListing (.reprice price (by omega) (by omega)) (.inl (not_not.mp hstatus))
  infer_instance

instance (reservedFor : Option Address) (reservationStart reservationEnd : Option Nat) :
    Catalogues creates updates
      (setListingReservation env seller k reservedFor reservationStart reservationEnd :
        Tx C Unit) := by
  refine .skip fun _ => catalogues_requireListing fun l => .skip fun _ => .abortIf fun hstatus =>
    .skip fun _ => ?_
  have hsave : CataloguesFrom k l creates updates
      (saveListing { l with reservedFor, reservationStart, reservationEnd } : Tx C Unit) :=
    cataloguesFrom_saveListing (.reserve reservedFor reservationStart reservationEnd)
      (.inl (not_not.mp hstatus))
  infer_instance

instance (caller : Address) (expectedOwner newOwner : Address) : Catalogues creates updates
      (reconcileListingOwner env caller k expectedOwner newOwner : Tx C Unit) := by
  refine .skip fun _ => catalogues_requireListing fun l => .skip fun _ => ?_
  have hsave : CataloguesFrom k l creates updates
      (saveListing { l with owner := some newOwner } : Tx C Unit) :=
    cataloguesFrom_saveListing (.reconcile newOwner) (.inr rfl)
  infer_instance

/-! ### Exits -/

theorem cataloguesFrom_sold (hactive : l.status = .active) (owner : Address) :
    CataloguesFrom k l creates updates
      (saveListing { l with status := .sold, owner := some owner } : Tx C Unit) :=
  cataloguesFrom_saveListing (.close .sold (some owner) hactive (by simp)) (.inl hactive)

theorem cataloguesFrom_cancelled (hactive : l.status = .active) :
    CataloguesFrom k l creates updates
      (saveListing { l with status := .cancelled } : Tx C Unit) :=
  cataloguesFrom_saveListing (.close .cancelled l.owner hactive (by simp)) (.inl hactive)

instance : Catalogues creates updates (buyArtwork host env buyer k) := by
  refine .skip fun _ => .skip fun _ => .skip fun _ => catalogues_requireListing fun l =>
    .skip fun _ => .skip fun _ => .skip fun _ => .skip fun _ => .abortIf fun hstatus =>
    .skip fun _ => .skip fun _ => ?_
  have hactive : l.status = .active := by simpa using hstatus
  have hcancelled : CataloguesFrom k l creates updates
      (saveListing { l with status := .cancelled } : Tx C Unit) := cataloguesFrom_cancelled hactive
  have hsold : CataloguesFrom k l creates updates
      (saveListing { l with status := .sold, owner := some buyer } : Tx C Unit) :=
    cataloguesFrom_sold hactive buyer
  split <;> infer_instance

instance (by' : Address) : CataloguesFrom k l creates updates
      (transitionListingToCancelled host env l k by' reason refund) := by
  refine .abortIf fun hstatus => .skip fun _ => ?_
  have hcancelled : CataloguesFrom k l creates updates
      (saveListing { l with status := .cancelled } : Tx C Unit) :=
    cataloguesFrom_cancelled (by simpa using hstatus)
  infer_instance

theorem transitionListingToCancelled_listing
    (h : Returns (transitionListingToCancelled host env l k cancelledBy reason refund) w u w') :
    w'.listing = Function.update w.listing l.listingId (some { l with status := .cancelled }) := by
  obtain ⟨_, _, w2, e, h⟩ := h.skip₂ (f := World.catalogue) rfl
  replace h := h.write
  have hlisting : w2.listing = w.listing := congrArg Register.get e
  rw [← hlisting]
  exact congrArg Register.get (h.last (f := World.catalogue) rfl)

instance : Catalogues creates updates (cancelListingInner host env artist k) := by
  exact catalogues_requireListing fun l => inferInstance

instance (admin : Address) (pos : Nat) :
    Catalogues creates updates (cancelArtistListingAt host env admin artist pos) := by
  refine .skip fun _ => .skip fun k =>
    .load (f := World.catalogue) (v := fun r => r.get k) fun stored => ?_
  cases stored with
  | none => exact inferInstanceAs (Evolves _ _ _ (pure () : Tx C Unit))
  | some l =>
    show CataloguesFrom k l creates updates (when (l.status = .active)
      (transitionListingToCancelled host env l k admin .adminRevoked true))
    infer_instance

instance : Catalogues creates updates (expireListing host env k) := by
  refine catalogues_requireListing fun l => .abortIf fun hstatus => .skip fun _ => .skip fun _ => ?_
  have hcancelled : CataloguesFrom k l creates updates
      (saveListing { l with status := .cancelled } : Tx C Unit) :=
    cataloguesFrom_cancelled (by simpa using hstatus)
  infer_instance

instance : Catalogues creates updates (acceptOffer host env artist i) := by
  refine .skip fun _ => .skip fun _ => .skip fun o => .skip fun _ =>
    catalogues_requireListing fun l => .skip fun _ => .skip fun _ => .abortIf fun hstatus => ?_
  have hsold : CataloguesFrom o.listingId l creates updates
      (saveListing { l with status := .sold, owner := some o.offerer } : Tx C Unit) :=
    cataloguesFrom_sold (by simpa using (not_or.mp hstatus).2) o.offerer
  unfold acceptSettle
  infer_instance

instance : Catalogues creates updates (acceptCounterOffer host env buyer i) := by
  refine .skip fun _ => .skip fun _ => .skip fun o => .skip fun _ => .skip fun _ => .skip fun _ =>
    .skip fun _ => .skip fun _ => catalogues_requireListing fun l => .skip fun _ =>
    .abortIf fun hstatus => ?_
  have hsold : CataloguesFrom o.listingId l creates updates
      (saveListing { l with status := .sold, owner := some buyer } : Tx C Unit) :=
    cataloguesFrom_sold (by simpa using hstatus) buyer
  unfold acceptCounterSettle
  infer_instance

end Changes

/-! ### Calls -/

/-- The listings a call asks for. -/
def Op.creates : Op → List BatchCreateListingInput
  | .listing (.createListing _ request) => [request]
  | .listing (.createListings _ requests) => requests
  | _ => []

/-- The revisions of listings a call asks for. -/
def Op.updates : Op → List BatchUpdateListingInput
  | .listing (.updateListing _ request) => [request]
  | .listing (.updateListings _ requests) => requests
  | _ => []

theorem catalogues_createListing (artist : Address) (request : BatchCreateListingInput) :
    Catalogues [request] [] (createListing host env artist request) := by
  have hinner : Catalogues [request] [] (createListingInner host env artist request) :=
    catalogues_createListingInner artist (List.mem_singleton.mpr rfl)
  infer_instance

theorem catalogues_createListings (artist : Address) (requests : List BatchCreateListingInput) :
    Catalogues requests [] (createListings host env artist requests) := by
  have hinner : Catalogues requests []
      (collect (createListingInner host env artist) requests) :=
    .collect fun request hrequest => catalogues_createListingInner artist hrequest
  infer_instance

theorem catalogues_updateListing (artist : Address) (request : BatchUpdateListingInput) :
    Catalogues [] [request] (updateListing host env artist request) := by
  have hinner : Catalogues [] [request] (updateListingInner host env artist request) :=
    catalogues_updateListingInner artist (List.mem_singleton.mpr rfl)
  infer_instance

theorem catalogues_updateListings (artist : Address) (requests : List BatchUpdateListingInput) :
    Catalogues [] requests (updateListings host env artist requests) := by
  have hinner : Catalogues [] requests
      (collect (updateListingInner host env artist) requests) :=
    .collect fun request hrequest => catalogues_updateListingInner artist hrequest
  infer_instance

theorem listingOp_catalogues (op : ListingOp) :
    Catalogues (Op.listing op).creates (Op.listing op).updates (op.exec host env) := by
  cases op with
  | createListing artist request =>
    exact @Evolves.discard _ _ _ _ _ _ _ _ (catalogues_createListing ..)
  | createListings artist requests =>
    exact @Evolves.discard _ _ _ _ _ _ _ _ (catalogues_createListings ..)
  | updateListing artist request =>
    exact @Evolves.discard _ _ _ _ _ _ _ _ (catalogues_updateListing ..)
  | updateListings artist requests =>
    exact @Evolves.discard _ _ _ _ _ _ _ _ (catalogues_updateListings ..)
  | cancelListing artist k =>
    show Catalogues [] [] (Call.discard (cancelListing host env artist k))
    infer_instance
  | cancelListings owner ks =>
    show Catalogues [] [] (Call.discard (cancelListings host env owner ks))
    infer_instance
  | cancelArtistListings admin artist n =>
    show Catalogues [] [] (Call.discard (cancelArtistListings host env admin artist n))
    infer_instance
  | _ =>
    unfold ListingOp.exec
    infer_instance

/-- Calls that do not write listings. -/
theorem catalogue_eq_of_frame (h : Returns (op.exec host env) w () w')
    (hlisting : Field.listing ∉ op.footprint) (hcount : Field.listingCount ∉ op.footprint) :
    { w'.catalogue with terms := w.config } = w.catalogue := by
  have hsame : w'.listing = w.listing := op_frame h hlisting
  have hsame' : w'.listingCount = w.listingCount := op_frame h hcount
  simp only [World.catalogue, hsame, hsame']

/-- Calls that do not write the configuration. -/
theorem catalogue_of_evolves (hkeyed : w.book.Keyed) (h : Returns (op.exec host env) w () w')
    (hconfig : Field.config ∉ op.footprint)
    (hop : Catalogues op.creates op.updates (op.exec host env)) :
    Relation.ReflTransGen (Listing.Turn op.creates op.updates) w.catalogue
      { w'.catalogue with terms := w.config } := by
  have hsame : w'.config = w.config := op_frame h hconfig
  rw [← hsame]
  exact hop.evolves hkeyed.catalogue h

/-- **The catalogue.** A call changes the listings by the requests it carries, at the configuration it
meets, and where a listing is open to the change. -/
theorem op_turns (hkeyed : w.book.Keyed) (h : Returns (op.exec host env) w () w') :
    Relation.ReflTransGen (Listing.Turn op.creates op.updates) w.catalogue
      { w'.catalogue with terms := w.config } := by
  cases op with
  | listing op =>
    refine catalogue_of_evolves hkeyed h ?_ (listingOp_catalogues op)
    cases op <;> simp [Op.footprint, ListingOp.footprint]
  | offer op =>
    cases op with
    | acceptOffer artist i =>
      exact catalogue_of_evolves hkeyed h (by simp [Op.footprint, OfferOp.footprint])
        (inferInstanceAs (Catalogues [] [] (acceptOffer host env artist i)))
    | acceptCounterOffer buyer i =>
      exact catalogue_of_evolves hkeyed h (by simp [Op.footprint, OfferOp.footprint])
        (inferInstanceAs (Catalogues [] [] (acceptCounterOffer host env buyer i)))
    | _ =>
      rw [catalogue_eq_of_frame h (by simp [Op.footprint, OfferOp.footprint])
        (by simp [Op.footprint, OfferOp.footprint])]
  | auction op =>
    rw [catalogue_eq_of_frame h (by cases op <;> simp [Op.footprint, AuctionOp.footprint])
      (by cases op <;> simp [Op.footprint, AuctionOp.footprint])]
  | admin op =>
    rw [catalogue_eq_of_frame h (by simp [Op.footprint]) (by simp [Op.footprint])]
  | maintenance op =>
    rw [catalogue_eq_of_frame h (by simp [Op.footprint]) (by simp [Op.footprint])]

theorem op_catalogue (hkeyed : w.book.Keyed) (h : Returns (op.exec host env) w () w') :
    Relation.ReflTransGen (Listing.Change op.creates op.updates) w.catalogue
      { w'.catalogue with terms := w.config } :=
  Register.changes_mono (op_turns hkeyed h) fun _ _ _ hedit => hedit.1

/-! ### Properties of all listings -/

/-- What holds of new listings and is kept by edits holds of all listings. -/
theorem op_forall_listing {I : Listing → Prop} (hkeyed : w.book.Keyed)
    (h : Returns (op.exec host env) w () w') (hnew : ∀ k l, Listing.New op.creates w.config k l → I l)
    (hedit : ∀ l l', l.Edit op.updates l' → I l → I l') (hI : ∀ k l, w.listing k = some l → I l) :
    ∀ k l, w'.listing k = some l → I l :=
  Register.forall_get (op_catalogue hkeyed h) hnew hedit hI

/-- A listing stays on the books, with its origin. -/
theorem op_listing_kept (hkeyed : w.book.Keyed) (h : Returns (op.exec host env) w () w')
    (hl : w.listing k = some l) : ∃ l', w'.listing k = some l' ∧ l.SameOrigin l' :=
  Register.kept Listing.SameOrigin.refl (fun _ _ _ h h' => h.trans h')
    (fun _ _ _ hedit => hedit.sameOrigin) hkeyed.catalogue (op_catalogue hkeyed h) hl

end ElcareHub.Marketplace
