import ElcareHub.Marketplace.Refine.Deals
import ElcareHub.Marketplace.Refine.Units
import ElcareHub.Marketplace.Safety.Counterparties
import ElcareHub.Marketplace.Safety.Custody

/-!
# Units in and units out

When a listing is created, the escrow takes one unit of its token in; when it is closed, the units
that leave are as many as the listing says. Custody of the token is back at its level after that
exactly when the listing is of one unit (`units_in_eq_units_out_iff`).

Two facts about runs enter. The exits of a listing are the only calls that close it, whatever else a
call may do to it, since they are the only ones that clear its escrow record (`closing_departs`). And
what leaves custody does not come back by itself: the contract signs nothing, so that it is neither an
artist nor a buyer nor an offerer (`outsiders_of_run`).
-/

namespace ElcareHub.Marketplace

open Call

set_option synthInstance.maxSize 100000000

variable {C : Type} {host : Host C} {env : Env} {w w' : World C}
variable {collection : Address}
variable {asset : Address × Nat} {r : EscrowRecord} {other : Address} {tokenId : Nat} {op : Op}

/-! ### The contract signs nothing -/

/-- The step is not signed by the contract itself. A contract authorises only the calls it makes, and
the host refuses calls that come back to it. -/
def Step.NotBySelf (host : Host C) : Step C → Prop
  | .call env _ => env.auth host.self = false
  | .external _ _ => True

/-- No offer is in the name of the contract. -/
def World.Outsiders (host : Host C) (w : World C) : Prop :=
  ∀ i o, w.offer i = some o → o.offerer ≠ host.self

theorem outsiders_of_run (h : ∀ s ∈ steps, s.NotBySelf host) :
    (run host (.fresh balances collections) steps).Outsiders host := by
  refine run_calls
    (Run.along_of_mem fun s hs _ => h s hs) ?_ ?_ ?_
  · intro i o ho
    cases ho
  · intro env op w w' hreach hself hreturns hw i o ho
    have hsides : w'.book.sides i = some o.sides := Option.map_eq_some_iff.mpr ⟨o, ho, rfl⟩
    rcases op_sides_authorised hreach hreturns hsides with hold | hauth
    · obtain ⟨o', ho', hsame⟩ := Option.map_eq_some_iff.mp hold
      rw [show o.offerer = o'.offerer from (congrArg Prod.snd hsame).symm]
      exact hw i o' ho'
    · exact ne_self_of_authorised hself hauth
  · exact fun w collections balances hw => hw

/-! ### Only exits close a listing -/

instance : Ignores (World.escrowedToken (C := C)) World.field
    ([.config, .upkeep, .legacy, .accounting, .history, .events, .collections, .transfers] ++
      Field.tables ++ Field.background) where
  eq_of_outside h := h .escrowedToken (by decide)

/-- The escrow takes in what has no record, so that the records there are stay. -/
instance (seller : Address) (id : Nat) (isListing : Bool) :
    Keeps World.escrowedToken (fun records => records asset = some r)
      (escrowNft host seller other tokenId isListing id) where
  keeps {w _ w'} h hr := by
    obtain ⟨hfree, hbook⟩ := escrowNft_book h
    have hother : asset ≠ (other, tokenId) := by
      rintro rfl
      exact Option.some_ne_none r (hr.symm.trans hfree)
    rw [show w'.escrowedToken = _ from congrArg Book.escrow hbook]
    exact (Function.update_of_ne hother ..).trans hr

section Closing

variable {k : Nat} {l : Listing}

/-- A listing that is closed loses its escrow record. -/
theorem record_cleared (hreach : Reachable host w) (hl : w.listing k = some l)
    (hactive : l.status = .active) (h : Returns (op.exec host env) w () w')
    (hclosed : w'.Closed k true) : w.escrowedToken (l.collection, l.tokenId) = some ⟨true, k⟩ ∧
      w'.escrowedToken (l.collection, l.tokenId) ≠ some ⟨true, k⟩ := by
  have hreach' := hreach.of_returns h
  refine ⟨(hreach.custodyExact _ _).mpr ?_, fun hrecord => ?_⟩
  · rw [Book.sale_listing hl, Listing.onSale_of_active hactive]
  · obtain ⟨l', hl', hstatus⟩ := hclosed
    have hsale := (hreach'.custodyExact _ _).mp hrecord
    rw [Book.sale_listing hl', Listing.onSale_of_closed hstatus] at hsale
    cases hsale

/-- **Exits.** A call that closes a listing changes the stockroom by departures. -/
theorem closing_departs (units : C → Units) [CountsUnits host collection units]
    (hreach : Reachable host w) (hself : env.auth host.self = false)
    (hofferers : w.Outsiders host) (hl : w.listing k = some l) (hactive : l.status = .active)
    (h : Returns (op.exec host env) w () w') (hclosed : w'.Closed k true) :
    Relation.ReflTransGen (Depart host.self collection) (w.stockroom units) (w'.stockroom units) := by
  have hkeyed := hreach.keyed
  obtain ⟨hrecord, hcleared⟩ := record_cleared hreach hl hactive h hclosed
  -- the call writes listings, and it writes escrow records
  have hlisting : Field.listing ∈ op.footprint := by
    by_contra hoff
    have hsame : w'.listing = w.listing := op_frame h hoff
    obtain ⟨l', hl', hstatus⟩ := hclosed
    rw [hsame, hl] at hl'
    cases hl'
    exact hstatus hactive
  have hescrow : Field.escrowedToken ∈ op.footprint := by
    by_contra hoff
    have hsame : w'.escrowedToken = w.escrowedToken := op_frame h hoff
    exact hcleared (hsame ▸ hrecord)
  rcases op with op | op | op | op | op <;> cases op <;>
    simp [Op.footprint, ListingOp.footprint, AuctionOp.footprint, OfferOp.footprint]
      at hlisting hescrow
  -- creation does both, but clears no record
  case listing.createListing artist request =>
    obtain ⟨id, hcreate⟩ := h.discard
    exact absurd (Keeps.keeps (f := World.escrowedToken)
      (P := fun records => records (l.collection, l.tokenId) = some ⟨true, k⟩) hcreate hrecord) hcleared
  case listing.createListings artist requests =>
    obtain ⟨ids, hcreate⟩ := h.discard
    exact absurd (Keeps.keeps (f := World.escrowedToken)
      (P := fun records => records (l.collection, l.tokenId) = some ⟨true, k⟩) hcreate hrecord) hcleared
  -- what is left are the exits, in which the record goes with the listing
  case listing.buyArtwork buyer j =>
    obtain ⟨r, hbuy⟩ := h.discard
    exact .single (buyArtwork_depart hkeyed hself hbuy)
  case listing.cancelListing artist j =>
    obtain ⟨r, hcancel⟩ := h.discard
    exact Evolves.evolves (hkeyed.stockroom units) hcancel
  case listing.cancelListings owner ids =>
    obtain ⟨r, hcancel⟩ := h.discard
    exact Evolves.evolves (hkeyed.stockroom units) hcancel
  case listing.cancelArtistListings admin artist maxItems =>
    obtain ⟨r, hsweep⟩ := h.discard
    exact Evolves.evolves (hkeyed.stockroom units) hsweep
  case listing.expireListing j =>
    have hexpire : Returns (expireListing host env j) w () w' := h
    exact Evolves.evolves (hkeyed.stockroom units) hexpire
  case offer.acceptOffer artist i => exact .single (acceptOffer_depart hkeyed hofferers h)
  case offer.acceptCounterOffer buyer i =>
    exact .single (acceptCounterOffer_depart hkeyed hself h)

/-- No other active listing sells the token of an active listing. -/
theorem Reachable.alone (hreach : Reachable host w) (units : C → Units) (hl : w.listing k = some l)
    (hactive : l.status = .active) : (w.stockroom units).Alone k (l.collection, l.tokenId) := by
  intro j m hm hmactive hasset
  have hsale : w.book.sale ⟨true, k⟩ = some (l.collection, l.tokenId) := by
    rw [Book.sale_listing hl, Listing.onSale_of_active hactive]
  have hsale' : w.book.sale ⟨true, j⟩ = some (l.collection, l.tokenId) := by
    rw [Book.sale_listing hm, Listing.onSale_of_active hmactive, hasset]
  exact congrArg EscrowRecord.id (hreach.custodyExact.unique hsale' hsale)

/-- **Units out.** A call that closes a listing sends out as many units as the listing says. -/
theorem closing_level (units : C → Units) [CountsUnits host collection units]
    (hreach : Reachable host w) (hself : env.auth host.self = false)
    (hofferers : w.Outsiders host) (hl : w.listing k = some l) (hactive : l.status = .active)
    (hcollection : l.collection = collection) (hartist : l.artist ≠ host.self)
    (h : Returns (op.exec host env) w () w') (hclosed : w'.Closed k true) :
    units w'.collections l.tokenId host.self + l.outflow =
      units w.collections l.tokenId host.self := by
  have hdeparts := closing_departs units hreach hself hofferers hl hactive h hclosed
  cases departs_level hl hcollection hartist (hreach.alone units hl hactive) hdeparts with
  | still hl' =>
    obtain ⟨l', hstored, hstatus⟩ := hclosed
    obtain rfl : l = l' := Option.mem_unique hl' hstored
    exact absurd hactive hstatus
  | gone l' _ _ hlevel => exact hlevel

/-- The origin of a listing along a run. -/
theorem run_listing_kept (hreach : Reachable host w) (hl : w.listing k = some l)
    (steps : List (Step C)) : ∃ l', (run host w steps).listing k = some l' ∧ l.SameOrigin l' := by
  refine hreach.along_calls
    (I := fun v => ∃ l', v.listing k = some l' ∧ l.SameOrigin l') (Run.along_of_forall fun _ _ => trivial)
    ⟨l, hl, .refl l⟩ ?_ fun _ _ _ hv => hv
  rintro env op v v' hv - h ⟨l1, hl1, hsame1⟩
  obtain ⟨l2, hl2, hsame2⟩ := op_listing_kept hv.keyed h hl1
  exact ⟨l2, hl2, hsame1.trans hsame2⟩

end Closing

/-! ### In and out -/

/-- The units of a token of the collection that the contract holds. -/
def World.level (host : Host C) (units : C → Units) (tokenId : Nat) (w : World C) : Int :=
  units w.collections tokenId host.self

/-- **Units in equal units out, for one unit.** A listing is created and, after any run, closed by any
call. What its creation took into custody and its closing sent out are the same number of units exactly
when the listing is of one unit. -/
theorem units_in_eq_units_out_iff (host : Host C) (collection : Address) (units : C → Units)
    [CountsUnits host collection units] (balances : Address × Address → Int) (collections : C)
    (before after : List (Step C)) (env env' : Env) (artist : Address)
    (request : BatchCreateListingInput) (op : Op) (k : Nat) (w₁ w₃ : World C)
    (hunsigned : ∀ s ∈ before ++ .call env (.listing (.createListing artist request)) :: after ++
      [.call env' op], s.NotBySelf host)
    (hcollection : request.collection = collection)
    (hcreate : Returns (createListing host env artist request)
      (run host (.fresh balances collections) before) k w₁)
    (hopen : (run host w₁ after).Open k true)
    (hclose : Returns (op.exec host env') (run host w₁ after) () w₃)
    (hclosed : w₃.Closed k true) :
    let level := World.level host units request.tokenId
    level w₁ - level (run host (.fresh balances collections) before) =
        level (run host w₁ after) - level w₃ ↔
      request.quantity = 1 := by
  intro level
  have henv : env.auth host.self = false :=
    hunsigned (.call env (.listing (.createListing artist request))) (by simp)
  have henv' : env'.auth host.self = false := hunsigned (.call env' op) (by simp)
  -- one unit comes in
  obtain ⟨hsigned, hquantity, hmoved, l₁, hl₁, rfl, hcol₁, htoken₁, hquantity₁⟩ :=
    createListing_arrival units hcollection hcreate
  have hartist := ne_self_of_authorised henv hsigned
  have hin := hmoved.destination hartist.symm
  -- the states in between are those of one run, in which the contract signs nothing
  have hcall : Returns (Op.exec host env (.listing (.createListing l₁.artist request)))
      (run host (.fresh balances collections) before) () w₁ := returns_discard.mpr ⟨k, hcreate⟩
  have hreach₁ : Reachable host w₁ := ⟨balances, collections, _, run_of_returns hcall []⟩
  have hreach₂ : Reachable host (run host w₁ after) :=
    ⟨balances, collections, _, run_of_returns hcall after⟩
  have hofferers : (run host w₁ after).Outsiders host := by
    rw [run_of_returns hcall after]
    exact outsiders_of_run fun s hs => hunsigned s (List.mem_append_left _ hs)
  -- as many units go out as the listing says, which nothing has changed since
  obtain ⟨l₂, hl₂, hsame⟩ := run_listing_kept hreach₁ hl₁ after
  obtain ⟨l₂', hl₂', hactive⟩ := hopen
  obtain rfl : l₂ = l₂' := Option.mem_unique hl₂ hl₂'
  have hout := closing_level units hreach₂ henv' hofferers hl₂ hactive
    (hsame.collection.trans hcol₁) (by rw [hsame.artist]; exact hartist) hclose hclosed
  rw [hsame.tokenId, htoken₁] at hout
  have houtflow : l₂.outflow = if request.quantity > 1 then request.quantity else 1 := by
    rw [Listing.outflow, hsame.quantity, hquantity₁]
  simp only [level, World.level]
  split at houtflow <;> omega

/-- A deployment at `self` next to a collection that keeps count of its units, and says of every token
that it belongs to `owner`. -/
def Host.editions (self collection owner : Address) : Host Units where
  self := self
  ownerOf u _ _ := some (owner, u)
  transferFrom u other _ src dst tokenId :=
    if other = collection then Stock.move u tokenId src dst 1 else some u
  batchTransferFrom u other _ src dst tokenId amount :=
    if other = collection then Stock.move u tokenId src dst amount else some u
  royaltyInfo u _ := some ((owner, 0), u)
  contractType _ _ := none

theorem handed_of_move
    (h : (if other = collection then Stock.move u tokenId src dst n else some u) = some u') :
    Handed collection other tokenId src dst n u u' := by
  constructor
  · intro heq
    rw [if_pos heq] at h
    exact Stock.moved_of_move h
  · intro hne
    rw [if_neg hne] at h
    exact (Option.some.inj h).symm

instance (self owner : Address) :
    CountsUnits (Host.editions self collection owner) collection id where
  transferFrom h := handed_of_move h
  batchTransferFrom h := handed_of_move h
  ownerOf h := by
    cases h
    rfl
  royaltyInfo h := by
    cases h
    rfl
  contractType h := by cases h

/-- Of token 7 the artist has two units and the marketplace has one. -/
def someEditions : Units := fun i a =>
  if i = 7 then if a = ⟨10⟩ then 2 else if a = ⟨0⟩ then 1 else 0 else 0

/-- Token 7 is put up for sale. -/
def editionsRequest (quantity : Nat) : BatchCreateListingInput :=
  ⟨1000000, "XLM", ⟨50⟩, ⟨60⟩, 7, quantity, [⟨⟨10⟩, 10000⟩], none⟩

/-- One unit is listed and sold. -/
theorem units_in_eq_units_out_iff_sold : ∃ w₁ w₃ : World Units,
      Returns (createListing (.editions ⟨0⟩ ⟨60⟩ ⟨10⟩) (.signedBy ⟨10⟩ 100) ⟨10⟩ (editionsRequest 1))
        (.fresh (fundedBidders ⟨0⟩) someEditions) 1 w₁ ∧
      Returns (Op.exec (.editions ⟨0⟩ ⟨60⟩ ⟨10⟩) (.signedBy ⟨20⟩ 200) (.listing (.buyArtwork ⟨20⟩ 1)))
        w₁ () w₃ ∧ World.level (.editions ⟨0⟩ ⟨60⟩ ⟨10⟩) id 7 w₁ -
          World.level (.editions ⟨0⟩ ⟨60⟩ ⟨10⟩) id 7 (.fresh (fundedBidders ⟨0⟩) someEditions) =
        World.level (.editions ⟨0⟩ ⟨60⟩ ⟨10⟩) id 7 w₁ -
          World.level (.editions ⟨0⟩ ⟨60⟩ ⟨10⟩) id 7 w₃ := by
  obtain ⟨k, w₁, hcreate, hp⟩ := exists_returns
    (c := createListing (.editions ⟨0⟩ ⟨60⟩ ⟨10⟩) (.signedBy ⟨10⟩ 100) ⟨10⟩ (editionsRequest 1))
    (s := .fresh (fundedBidders ⟨0⟩) someEditions)
    (p := fun k w₁ => decide (k = 1) &&
      decide ((w₁.listing 1).map Listing.status = some .active) &&
      passes (Op.exec (.editions ⟨0⟩ ⟨60⟩ ⟨10⟩) (.signedBy ⟨20⟩ 200) (.listing (.buyArtwork ⟨20⟩ 1)))
        w₁ fun _ w₃ => decide ((w₃.listing 1).map Listing.status = some .sold)) (by decide +kernel)
  simp only [Bool.and_eq_true, decide_eq_true_iff] at hp
  obtain ⟨⟨rfl, hactive⟩, hbuy⟩ := hp
  obtain ⟨_, w₃, hclose, hsold⟩ := exists_returns hbuy
  obtain ⟨l₁, hl₁, hactive⟩ := Option.map_eq_some_iff.mp hactive
  obtain ⟨l₃, hl₃, hsold⟩ := Option.map_eq_some_iff.mp (of_decide_eq_true hsold)
  refine ⟨w₁, w₃, hcreate, hclose, ?_⟩
  refine (units_in_eq_units_out_iff (.editions ⟨0⟩ ⟨60⟩ ⟨10⟩) ⟨60⟩ id (fundedBidders ⟨0⟩) someEditions
    [] [] (.signedBy ⟨10⟩ 100) (.signedBy ⟨20⟩ 200) ⟨10⟩ (editionsRequest 1)
    (.listing (.buyArtwork ⟨20⟩ 1)) 1 w₁ w₃ ?_ rfl hcreate ⟨l₁, hl₁, hactive⟩ hclose
    ⟨l₃, hl₃, by simp [hsold]⟩).mpr rfl
  intro s hs
  simp only [List.nil_append, List.cons_append, List.mem_cons, List.not_mem_nil, or_false] at hs
  rcases hs with rfl | rfl
  · exact (by decide : (Env.signedBy ⟨10⟩ 100).auth ⟨0⟩ = false)
  · exact (by decide : (Env.signedBy ⟨20⟩ 200).auth ⟨0⟩ = false)

/-- A listing of two units takes one in and sends two out: the marketplace parts with the unit it
had. -/
theorem two_units_out_for_one_in :
    let host := Host.editions ⟨0⟩ ⟨60⟩ ⟨10⟩
    let w₀ := World.fresh (fundedBidders ⟨0⟩) someEditions
    let level := World.level host id 7
    CountsUnits host ⟨60⟩ id ∧ ∃ w₁ w₃ : World Units,
      Returns (createListing host (.signedBy ⟨10⟩ 100) ⟨10⟩ (editionsRequest 2)) w₀ 1 w₁ ∧
      Returns (buyArtwork host (.signedBy ⟨20⟩ 200) ⟨20⟩ 1) w₁ true w₃ ∧
      level w₁ - level w₀ = 1 ∧ level w₁ - level w₃ = 2 := by
  intro host w₀ level
  refine ⟨inferInstanceAs (CountsUnits (.editions ⟨0⟩ ⟨60⟩ ⟨10⟩) ⟨60⟩ id), ?_⟩
  obtain ⟨k, w₁, hcreate, hp⟩ := exists_returns
    (c := createListing host (.signedBy ⟨10⟩ 100) ⟨10⟩ (editionsRequest 2)) (s := w₀)
    (p := fun k w₁ => decide (k = 1) && decide (level w₁ - level w₀ = 1) &&
      passes (buyArtwork host (.signedBy ⟨20⟩ 200) ⟨20⟩ 1) w₁ fun r w₃ =>
        r && decide (level w₁ - level w₃ = 2)) (by decide +kernel)
  simp only [Bool.and_eq_true, decide_eq_true_iff] at hp
  obtain ⟨⟨rfl, hin⟩, hbuy⟩ := hp
  obtain ⟨r, w₃, hbuy, hp⟩ := exists_returns hbuy
  simp only [Bool.and_eq_true, decide_eq_true_iff] at hp
  obtain ⟨rfl, hout⟩ := hp
  exact ⟨w₁, w₃, hcreate, hbuy, hin, hout⟩

end ElcareHub.Marketplace
