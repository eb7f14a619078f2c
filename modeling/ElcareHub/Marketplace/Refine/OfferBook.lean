import ElcareHub.Marketplace.Refine.Steps
import ElcareHub.Marketplace.Refine.Saleroom

/-!
# How the offers evolve

The offer book is the register of the offers. An offer enters it pending and is closed once: refused,
withdrawn or expired by any call that finds it pending, accepted only by the two calls that accept an
offer, and then only the one they name (`op_offerBook`).
-/

namespace ElcareHub.Marketplace

open Call

set_option synthInstance.maxSize 100000000

variable {C : Type} {host : Host C} {env : Env} {w w' : World C}
variable {i : Nat} {o : Offer}
variable {status : OfferStatus} {k : Nat} {offerer token artist : Address} {amount : Int}
  {expiresAt : Option Nat} {ids : List Nat} {op : Op}

/-! ### The offer book -/

/-- The offers; no terms stand beside them. -/
def World.offerBook (w : World C) : Register Unit Offer := ⟨(), w.offerCount, w.offer⟩

theorem Book.Keyed.offerBook (h : w.book.Keyed) : w.offerBook.Keyed Offer.offerId where
  id_eq ho := (h.offer ho).1
  le_count ho := (h.offer ho).2

instance : Ignores (World.offerBook (C := C)) World.field
    ([.config, .upkeep, .legacy, .accounting, .listingCount, .listing, .auctionCount, .auction,
      .auctionBids, .escrowedToken, .history, .events, .collections, .transfers] ++
      Field.background) where
  eq_of_outside {w w'} h := by
    have hcount : w'.offerCount = w.offerCount := h .offerCount (by decide)
    have hoffer : w'.offer = w.offer := h .offer (by decide)
    rw [World.offerBook, World.offerBook, hcount, hoffer]

/-- An offer is entered pending. -/
structure Offer.New (_ : Unit) (i : Nat) (o : Offer) : Prop where
  id : o.offerId = i
  pending : o.status = .pending

/-- How an offer is closed by a call that accepts the offers named. -/
inductive Offer.Close (accepts : List Nat) (o : Offer) : Offer → Prop
  | refuse (status : OfferStatus) (hpending : o.status = .pending) (hclosed : status ≠ .pending)
      (hrefused : status ≠ .accepted) : Close accepts o { o with status }
  | accept (hpending : o.status = .pending) (hid : o.offerId ∈ accepts) :
      Close accepts o { o with status := .accepted }

instance (accepts : List Nat) :
    Register.Numbered Offer.offerId Offer.New (fun _ => Offer.Close accepts) where
  new h := h.id
  edit h := by
    cases h <;> rfl

/-- One change of the offer book by such a call. -/
abbrev Offer.Turn (accepts : List Nat) : Register Unit Offer → Register Unit Offer → Prop :=
  Register.Change Offer.New fun _ => Offer.Close accepts

section Changes

variable {accepts : List Nat}

/-- `c` enters and closes offers. -/
abbrev Offers {α : Type} (accepts : List Nat) (c : Tx C α) : Prop :=
  Evolves World.offerBook (Register.Keyed Offer.offerId) (Offer.Turn accepts) c

/-- `c` enters and closes offers, when `o` is stored under `i`. -/
abbrev OffersFrom {α : Type} (i : Nat) (o : Offer) (accepts : List Nat) (c : Tx C α) : Prop :=
  Evolves World.offerBook (fun r => r.Keyed Offer.offerId ∧ r.get i = some o) (Offer.Turn accepts) c

/-! ### Parts -/

theorem offers_requireOffer (h : ∀ o, OffersFrom i o accepts (g o)) :
    Offers accepts (requireOffer i >>= g) where
  evolves hw hreturns := by
    obtain ⟨o, hoffer, hrest⟩ := returns_requireOffer_bind.mp hreturns
    exact (h o).evolves ⟨hw, hoffer⟩ hrest

theorem offersFrom_refuse (hpending : o.status = .pending) (hclosed : status ≠ .pending)
    (hrefused : status ≠ .accepted) :
    OffersFrom i o accepts (saveOffer { o with status } : Tx C Unit) :=
  Register.evolves_save (fun _ => rfl) fun _ hr =>
    ⟨hr.1, hr.2, .refuse status hpending hclosed hrefused⟩

theorem offersFrom_accept (hpending : o.status = .pending) :
    OffersFrom i o [i] (saveOffer { o with status := .accepted } : Tx C Unit) :=
  Register.evolves_save (fun _ => rfl) fun _ hr =>
    ⟨hr.1, hr.2, .accept hpending (List.mem_singleton.mpr (hr.1.id_eq hr.2))⟩

instance : Offers accepts (openOffer env k offerer amount token expiresAt : Tx C Nat) where
  evolves {w id w'} hw h := by
    -- the id is taken and the record saved under it; the rest does not touch the offers
    obtain ⟨next, w1, hnext, h⟩ := h.bind
    obtain ⟨hid, hw1⟩ := returns_counter hnext
    replace h := h.write
    have hrest := h.last (f := World.offerBook) rfl
    have hoffer : w1.offer = w.offer := by rw [hw1]
    have hcount : w1.offerCount = w.offerCount + 1 := by rw [hw1, hid]
    rw [hrest]
    rw [hcount, hoffer, hid]
    exact .single (.enter _ ⟨rfl, rfl⟩)

/-! ### Refusals -/

instance : Offers accepts (rejectAndRefund host env i) := by
  refine .load (f := World.offerBook) (v := fun r => r.get i) fun stored => ?_
  cases stored with
  | none => exact inferInstanceAs (Evolves _ _ _ (pure () : Tx C Unit))
  | some o =>
    show OffersFrom i o accepts (when (o.status = .pending) _)
    by_cases hpending : o.status = .pending
    · have hsave : OffersFrom i o accepts (saveOffer { o with status := .rejected } : Tx C Unit) :=
        offersFrom_refuse hpending (by simp) (by simp)
      infer_instance
    · rw [when, if_neg hpending]
      infer_instance

instance (announce : Bool) (skip : Option Nat) :
    Offers accepts (markRejected announce skip k ids : Tx C (List Offer)) := by
  induction ids with
  | nil => exact Evolves.of_preserves (c := pure [])
  | cons i ids ih =>
    refine .load (f := World.offerBook) (v := fun r => r.get i) fun stored => ?_
    cases stored with
    | none => exact .weaken (fun _ hr => hr.1) ih
    | some o =>
      dsimp only
      split
      · rename_i hpending
        exact .next (fun _ hr => hr.1) (offersFrom_refuse hpending.2 (by simp) (by simp))
          fun _ => inferInstance
      · exact .weaken (fun _ hr => hr.1) ih

theorem offersFrom_closeOffer (hpending : o.status = .pending) (hclosed : status ≠ .pending)
    (hrefused : status ≠ .accepted) : OffersFrom i o accepts (closeOffer host env o i status) := by
  have hsave : OffersFrom i o accepts (saveOffer { o with status } : Tx C Unit) :=
    offersFrom_refuse hpending hclosed hrefused
  infer_instance

instance : Offers accepts (withdrawOffer host env offerer i) := by
  refine .skip fun _ => offers_requireOffer fun o => .skip fun _ => .abortIf fun hpending => ?_
  have hclose : OffersFrom i o accepts (closeOffer host env o i .withdrawn) :=
    offersFrom_closeOffer (not_not.mp hpending) (by simp) (by simp)
  infer_instance

instance : Offers accepts (rejectOffer host env artist i) := by
  refine .skip fun _ => offers_requireOffer fun o => .skip fun _ => .skip fun _ =>
    .abortIf fun hpending => ?_
  have hclose : OffersFrom i o accepts (closeOffer host env o i .rejected) :=
    offersFrom_closeOffer (not_not.mp hpending) (by simp) (by simp)
  infer_instance

instance : Offers accepts (reclaimOffer host env i) := by
  refine offers_requireOffer fun o => .abortIf fun hpending => .skip fun _ => .skip fun _ => ?_
  have hclose : OffersFrom i o accepts (closeOffer host env o i .withdrawn) :=
    offersFrom_closeOffer (not_not.mp hpending) (by simp) (by simp)
  infer_instance

instance : Offers accepts (sweepOffer host env i) := by
  refine .load (f := World.offerBook) (v := fun r => r.get i) fun stored => ?_
  cases stored with
  | none => exact inferInstanceAs (Evolves _ _ _ (pure false : Tx C Bool))
  | some o =>
    dsimp only
    split
    · rename_i hdue
      have hsave : OffersFrom i o accepts (saveOffer { o with status := .expired } : Tx C Unit) :=
        offersFrom_refuse hdue.1 (by simp) (by simp)
      infer_instance
    · infer_instance

instance : Offers accepts (sweepExpiredOffers host env ids) := by
  have hsweep : Offers accepts (collect (sweepOffer host env) ids) :=
    .collect fun _ _ => inferInstance
  infer_instance

instance : Offers accepts (counterOffer host env artist i amount token expiresAt) := by
  refine .skip fun _ => .skip fun _ => offers_requireOffer fun o => .abortIf fun hpending =>
    .skip fun _ => .skip fun _ => .skip fun _ => .skip fun _ => .skip fun _ => ?_
  exact .next (fun _ hr => hr.1) (offersFrom_refuse (not_not.mp hpending) (by simp) (by simp))
    fun _ => inferInstance

/-! ### Acceptance -/

theorem offers_acceptOffer (artist : Address) (i : Nat) :
    Offers [i] (acceptOffer host env artist i) := by
  refine .skip fun _ => .skip fun _ => offers_requireOffer fun o => .skip fun _ => .skip fun l =>
    .skip fun _ => .skip fun _ => .abortIf fun hopen => ?_
  have hsettle : OffersFrom i o [i] (acceptSettle host env artist o i l o.listingId) :=
    .next (fun _ hr => hr.1) (offersFrom_accept (not_not.mp (not_or.mp hopen).1)) fun _ => inferInstance
  infer_instance

theorem offers_acceptCounterOffer (buyer : Address) (i : Nat) :
    Offers [i] (acceptCounterOffer host env buyer i) := by
  refine .skip fun _ => .skip fun _ => offers_requireOffer fun o => .skip fun _ => .skip fun _ =>
    .abortIf fun hpending => .skip fun _ => .skip fun _ => .skip fun l => ?_
  have hsettle : OffersFrom i o [i] (acceptCounterSettle host env buyer o i l o.listingId) :=
    .next (fun _ hr => hr.1) (offersFrom_accept (not_not.mp hpending)) fun _ => inferInstance
  infer_instance

/-! ### Exits of listings -/

instance (buyer : Address) : Offers accepts (buyArtwork host env buyer k) := by
  refine .skip fun _ => .skip fun _ => .skip fun _ => .skip fun l => .skip fun _ => .skip fun _ =>
    .skip fun _ => .skip fun _ => .skip fun _ => .skip fun _ => .skip fun _ => ?_
  split <;> infer_instance

end Changes

/-! ### Calls -/

/-- The offers a call accepts. -/
def Op.accepts : Op → List Nat
  | .offer (.acceptOffer _ i) => [i]
  | .offer (.acceptCounterOffer _ i) => [i]
  | _ => []

/-- Calls that do not write offers. -/
theorem offerBook_eq_of_frame (h : Returns (op.exec host env) w () w')
    (hoffer : Field.offer ∉ op.footprint) (hcount : Field.offerCount ∉ op.footprint) :
    w'.offerBook = w.offerBook := by
  have hsame : w'.offer = w.offer := op_frame h hoffer
  have hsame' : w'.offerCount = w.offerCount := op_frame h hcount
  simp only [World.offerBook, hsame, hsame']

/-- Calls whose effect on the offers is known. -/
theorem offerBook_of_offers (hkeyed : w.book.Keyed) (h : Returns (op.exec host env) w () w')
    (hop : Offers op.accepts (op.exec host env)) :
    Relation.ReflTransGen (Offer.Turn op.accepts) w.offerBook w'.offerBook :=
  hop.evolves hkeyed.offerBook h

/-- **The offer book.** A call enters pending offers and closes pending offers, and accepts none but the
one it names. -/
theorem op_offerBook (hkeyed : w.book.Keyed) (h : Returns (op.exec host env) w () w') :
    Relation.ReflTransGen (Offer.Turn op.accepts) w.offerBook w'.offerBook := by
  cases op with
  | listing op =>
    cases op with
    | buyArtwork buyer k =>
      exact offerBook_of_offers hkeyed h
        (inferInstanceAs (Offers [] (Call.discard (buyArtwork host env buyer k))))
    | cancelListing artist k =>
      refine offerBook_of_offers hkeyed h ?_
      show Offers [] (Call.discard (cancelListing host env artist k))
      infer_instance
    | cancelListings owner ks =>
      refine offerBook_of_offers hkeyed h ?_
      show Offers [] (Call.discard (cancelListings host env owner ks))
      infer_instance
    | cancelArtistListings admin artist n =>
      refine offerBook_of_offers hkeyed h ?_
      show Offers [] (Call.discard (cancelArtistListings host env admin artist n))
      infer_instance
    | _ =>
      rw [offerBook_eq_of_frame h (by simp [Op.footprint, ListingOp.footprint])
        (by simp [Op.footprint, ListingOp.footprint])]
  | offer op =>
    refine offerBook_of_offers hkeyed h ?_
    cases op with
    | acceptOffer artist i => exact offers_acceptOffer artist i
    | acceptCounterOffer buyer i => exact offers_acceptCounterOffer buyer i
    | claimRoyalty recipient k isListing =>
      show Offers [] (Call.discard (claimRoyalty host env recipient k isListing))
      infer_instance
    | _ =>
      unfold Op.exec OfferOp.exec
      infer_instance
  | auction op =>
    rw [offerBook_eq_of_frame h (by cases op <;> simp [Op.footprint, AuctionOp.footprint])
      (by cases op <;> simp [Op.footprint, AuctionOp.footprint])]
  | admin op => rw [offerBook_eq_of_frame h (by simp [Op.footprint]) (by simp [Op.footprint])]
  | maintenance op => rw [offerBook_eq_of_frame h (by simp [Op.footprint]) (by simp [Op.footprint])]

end ElcareHub.Marketplace
