import ElcareHub.Marketplace.Refine.Catalogue
import ElcareHub.Marketplace.Safety.OfferFunds

/-!
# Who sells to whom

The offers on a listing have two sides. An offer made by `make_offer` is in the name of somebody other
than the artist; a counter-offer is in the name of the artist, and answers another offer on the same
listing. Nothing that happens to an offer afterwards changes that (`Reachable.sided`).

A sale records a new owner. `buy_artwork` records a buyer who is not the artist. `accept_offer` records
the offerer, who is the artist when the offer is a counter-offer; `accept_counter_offer` records its
caller, whoever that is. `sale_counterparties` says for which sales the new owner is a stranger to the
artist and, when a counter-offer is settled, the offerer of the offer it answers.
-/

namespace ElcareHub.Marketplace

open Call hiding update
open Function

set_option synthInstance.maxSize 100000000

variable {C : Type} {host : Host C} {env : Env} {w w' : World C} {op : Op} {k i : Nat} {l : Listing}
  {o : Offer}
variable {s : Nat × Address} {u : Unit}

/-! ### The sides of an offer -/

/-- The listing of an offer, and in whose name it is. -/
def Offer.sides (o : Offer) : Nat × Address := (o.listingId, o.offerer)

def Book.sides (b : Book) (i : Nat) : Option (Nat × Address) := (b.offer i).map Offer.sides

section Moves

variable {b b' : Book}

/-- The status of an offer says nothing about its sides. -/
theorem Book.sides_setStatus (ho : b.offer i = some o) (status : OfferStatus) :
    (b.setOffer i { o with status }).sides = b.sides := by
  funext j
  show (update b.offer i (some { o with status }) j).map Offer.sides = _
  rw [update_apply]
  split
  · rename_i hj
    rw [Book.sides, hj, ho]
    rfl
  · rfl

theorem Book.sides_refundPending (k : Nat) : (b.refundPending k).sides = b.sides := by
  funext j
  show (b.rejected (b.pendingOffers k) j).map Offer.sides = (b.offer j).map Offer.sides
  unfold Book.rejected
  split
  · rw [Option.map_map]
    congr 1
    funext o
    show Offer.sides (if o.status = .pending then { o with status := .rejected } else o) = o.sides
    split <;> rfl
  · rfl

theorem Payment.sides_eq (h : Payment k b b') :
    b'.sides = b.sides ∧ b'.counterParent = b.counterParent := by
  cases h with
  | nothing => exact ⟨rfl, rfl⟩
  | sale => exact ⟨rfl, rfl⟩
  | offer i o ho => exact ⟨Book.sides_setStatus ho .accepted, rfl⟩
  | counter i o ho => exact ⟨Book.sides_setStatus ho .accepted, rfl⟩

/-- A move that opens no offer leaves the sides of all offers, and what they answer, alone. -/
theorem Move.sides_eq (hm : Move kind b b') (hcount : b'.offerCount = b.offerCount) :
    b'.sides = b.sides ∧ b'.counterParent = b.counterParent := by
  cases hm with
  | retire k l l' active b1 _ _ _ _ _ hpayment =>
    obtain ⟨hsides, hparent⟩ := hpayment.sides_eq
    exact ⟨(Book.sides_refundPending k).trans hsides, hparent⟩
  | closeOffer i o status ho => exact ⟨Book.sides_setStatus ho status, rfl⟩
  | makeOffer | counterOffer => exact absurd hcount (Nat.succ_ne_self b.offerCount)
  | _ => exact ⟨rfl, rfl⟩

theorem Moves.sides_eq (h : Moves K b b') (hcount : b'.offerCount = b.offerCount) :
    b'.sides = b.sides ∧ b'.counterParent = b.counterParent :=
  h.of_quiet (R := fun b b' => b'.sides = b.sides ∧ b'.counterParent = b.counterParent) hcount
    (fun _ => ⟨rfl, rfl⟩)
    (fun hfirst hsecond => ⟨hsecond.1.trans hfirst.1, hsecond.2.trans hfirst.2⟩)
    fun hm hquiet => hm.sides_eq hquiet

theorem Book.sides_openOffer (b : Book) (o : Offer) (i : Nat) :
    (b.openOffer o).sides i = if i = o.offerId then some o.sides else b.sides i := by
  show (update b.offer o.offerId (some o) i).map Offer.sides = _
  rw [update_apply]
  split <;> rfl

end Moves

/-! ### Offers stay on their side -/

/-- An offer with the sides `s` is on the right side of its listing: it is not in the name of the
artist, or it is, and answers an offer on the same listing. -/
inductive World.RightSide (w : World C) (parent : Option Nat) (s : Nat × Address) : Prop
  | offer (l : Listing) (hparent : parent = none) (hl : w.listing s.1 = some l)
      (hwho : s.2 ≠ l.artist)
  | counter (l : Listing) (p : Nat) (other : Address) (hparent : parent = some p)
      (hl : w.listing s.1 = some l) (hwho : s.2 = l.artist)
      (hanswers : w.book.sides p = some (s.1, other))

/-- Every offer is on the right side of its listing. -/
def World.Sided (w : World C) : Prop :=
  ∀ i s, w.book.sides i = some s → w.RightSide (w.counterOfferParent i) s

/-- From `w` to `w'` the offers there were keep their sides, and an offer that was not there is entered
on the right side. -/
structure KeepsSides (w w' : World C) : Prop where
  kept : ∀ i s, w.book.sides i = some s → w'.book.sides i = some s
  entered : ∀ i s, w'.book.sides i = some s →
    (w.book.sides i = some s ∧ w'.counterOfferParent i = w.counterOfferParent i) ∨
      w.RightSide (w'.counterOfferParent i) s

/-- One offer is entered. -/
theorem KeepsSides.enter {id : Nat} (hkeyed : w.book.Keyed)
    (hid : id = w.book.offerCount + 1)
    (hsides : ∀ i, w'.book.sides i = if i = id then some s0 else w.book.sides i)
    (hparent : ∀ i ≠ id, w'.counterOfferParent i = w.counterOfferParent i)
    (hright : w.RightSide (w'.counterOfferParent id) s0) : KeepsSides w w' where
  kept i s hs := by
    -- an id that has not been given out has no sides
    obtain ⟨o, ho, -⟩ := Option.map_eq_some_iff.mp hs
    have hle := (hkeyed.offer ho).2
    rw [hsides, if_neg (by omega)]
    exact hs
  entered i s hs := by
    rw [hsides] at hs
    split at hs
    · rename_i hi
      subst hi
      cases hs
      exact .inr hright
    · rename_i hi
      exact .inl ⟨hs, hparent i hi⟩

/-- What a call does to the offers there are: nothing, or it enters one more, on the right side of its
listing and with the authority of the one in whose name it is. -/
inductive Tables (env : Env) (w w' : World C) : Prop
  | none (hsides : w'.book.sides = w.book.sides)
      (hparent : w'.counterOfferParent = w.counterOfferParent)
  | one (id : Nat) (s0 : Nat × Address) (hid : id = w.book.offerCount + 1)
      (hauth : env.auth s0.2 = true)
      (hsides : ∀ i, w'.book.sides i = if i = id then some s0 else w.book.sides i)
      (hparent : ∀ i ≠ id, w'.counterOfferParent i = w.counterOfferParent i)
      (hright : w.RightSide (w'.counterOfferParent id) s0)

theorem op_tables (hreach : Reachable host w)
    (h : Returns (op.exec host env) w () w') : Tables env w w' := by
  have hkeyed := hreach.keyed
  by_cases hop : Field.offerCount ∈ op.footprint
  · -- only two entry points open offers
    rcases op with op | op | op | op | op <;> cases op <;>
      simp [Op.footprint, ListingOp.footprint, AuctionOp.footprint, OfferOp.footprint] at hop
    case offer.makeOffer offerer k amount token expiresAt =>
      obtain ⟨id, h⟩ := h.discard
      obtain ⟨hid, -, ⟨l, hl, -, hartist⟩, -, hbook⟩ := makeOffer_book h
      have hparent : w'.counterOfferParent = w.counterOfferParent :=
        congrArg Book.counterParent hbook
      have hnone : w.counterOfferParent id = Option.none := by
        by_contra hsome
        have hle := hkeyed.counter (Option.isSome_iff_ne_none.mpr hsome)
        omega
      refine .one id (k, offerer) hid (authorised_of_returns h) (fun i => ?_)
        (fun i _ => congrFun hparent i) ?_
      · rw [hbook]
        exact Book.sides_openOffer _ _ i
      · rw [hparent, hnone]
        exact .offer l rfl hl hartist.symm
    case offer.counterOffer artist parent amount token expiresAt =>
      obtain ⟨id, h⟩ := h.discard
      obtain ⟨hdue, hid, o, hoffer, hbook⟩ := counterOffer_book hkeyed h
      obtain ⟨o', l, ho', -, hl, hartist, -, -⟩ := hdue.parent
      obtain rfl : o' = o := Option.mem_unique ho' hoffer
      have hparent : w'.counterOfferParent =
          update w.counterOfferParent id (some parent) := congrArg Book.counterParent hbook
      refine .one id (o'.listingId, artist) hid hdue.authorised (fun i => ?_) (fun i hi => ?_) ?_
      · rw [hbook]
        refine (Book.sides_openOffer _ _ i).trans ?_
        rw [show (w.book.closeOffer parent o' .rejected).sides = w.book.sides from
          Book.sides_setStatus hoffer .rejected]
        rfl
      · rw [hparent, update_of_ne hi]
      · rw [hparent, update_self]
        have hanswers : w.book.sides parent = some (o'.listingId, o'.offerer) :=
          Option.map_eq_some_iff.mpr ⟨o', hoffer, rfl⟩
        exact .counter l parent o'.offerer rfl hl hartist.symm hanswers
  · have hcount : w'.book.offerCount = w.book.offerCount := op_frame h hop
    obtain ⟨hsides, hparent⟩ := (op_moves hkeyed h).sides_eq hcount
    exact .none hsides hparent

theorem op_keepsSides (hreach : Reachable host w)
    (h : Returns (op.exec host env) w () w') : KeepsSides w w' := by
  cases op_tables hreach h with
  | none hsides hparent =>
    refine ⟨fun i s hs => ?_, fun i s hs => ?_⟩
    · rw [hsides]
      exact hs
    · rw [hsides] at hs
      exact .inl ⟨hs, congrFun hparent i⟩
  | one id s0 hid _ hsides hparent hright =>
    exact .enter hreach.keyed hid hsides hparent hright

/-- Offers are entered in the name of somebody who has authorised the call. -/
theorem op_sides_authorised (hreach : Reachable host w) (h : Returns (op.exec host env) w () w')
    (hs : w'.book.sides i = some s) : w.book.sides i = some s ∨ env.auth s.2 = true := by
  cases op_tables hreach h with
  | none hsides _ => exact .inl (hsides ▸ hs)
  | one id s0 _ hauth hsides _ _ =>
    rw [hsides] at hs
    split at hs
    · cases hs
      exact .inr hauth
    · exact .inl hs

/-- The right side stays the right side: artists do not change and offers keep their sides. -/
theorem World.RightSide.step (hreach : Reachable host w)
    (h : Returns (op.exec host env) w () w') (hside : w.RightSide parent s) :
    w'.RightSide parent s := by
  cases hside with
  | offer l hparent hl hwho =>
    obtain ⟨l', hl', hsame⟩ := op_listing_kept hreach.keyed h hl
    exact .offer l' hparent hl' (by rw [hsame.artist]; exact hwho)
  | counter l p other hparent hl hwho hanswers =>
    obtain ⟨l', hl', hsame⟩ := op_listing_kept hreach.keyed h hl
    exact .counter l' p other hparent hl' (by rw [hsame.artist]; exact hwho)
      ((op_keepsSides hreach h).kept p _ hanswers)

/-- **Sides.** In every reachable state every offer is on the right side of its listing. -/
theorem Reachable.sided (hreach : Reachable host w) : w.Sided := by
  refine hreach.induction ?_ ?_ ?_
  · intro balances collections i s hs
    cases hs
  · intro env op w w' hreach h hw i s hs
    rcases (op_keepsSides hreach h).entered i s hs with ⟨hold, hparent⟩ | hright
    · rw [hparent]
      exact (hw i s hold).step hreach h
    · exact hright.step hreach h
  · intro w collections balances hw i s hs
    cases hw i s hs with
    | offer l hparent hl hwho => exact .offer l hparent hl hwho
    | counter l p other hparent hl hwho hanswers =>
      exact .counter l p other hparent hl hwho hanswers

/-! ### Sales -/

/-- The three ways a listing is sold. -/
inductive ListingSale
  | purchase (buyer : Address) (listingId : Nat)
  | offer (artist : Address) (offerId : Nat)
  | counterOffer (buyer : Address) (offerId : Nat)

namespace ListingSale

/-- The call that makes the sale returns; `buy_artwork` returns `false` when the listing has
expired. -/
def Completes (host : Host C) (env : Env) (w w' : World C) : ListingSale → Prop
  | .purchase buyer k => Returns (buyArtwork host env buyer k) w true w'
  | .offer artist i => Returns (acceptOffer host env artist i) w () w'
  | .counterOffer buyer i => Returns (acceptCounterOffer host env buyer i) w () w'

/-- The offer that is settled. -/
def settled : ListingSale → Option Nat
  | .purchase _ _ => none
  | .offer _ i => some i
  | .counterOffer _ i => some i

/-- The listing that is sold. -/
def listingId (w : World C) : ListingSale → Option Nat
  | .purchase _ k => some k
  | .offer _ i => (w.offer i).map Offer.listingId
  | .counterOffer _ i => (w.offer i).map Offer.listingId

/-- The parties are right: the new owner on record is not the artist and, when a counter-offer is
settled, it is the offerer of the offer it answers. -/
def Proper (w w' : World C) (sale : ListingSale) : Prop :=
  ∃ k l owner, sale.listingId w = some k ∧ w'.listing k = some l ∧ l.owner = some owner ∧
    owner ≠ l.artist ∧
    ∀ i parent, sale.settled = some i → w.counterOfferParent i = some parent →
      ∃ o, w.offer parent = some o ∧ owner = o.offerer

/-- An offer that is accepted is not a counter-offer; a counter-offer is accepted by the offerer it
answers, and does not answer another counter-offer. -/
def Regular (w : World C) : ListingSale → Prop
  | .purchase _ _ => True
  | .offer _ i => w.counterOfferParent i = none
  | .counterOffer buyer i => ∀ parent o, w.counterOfferParent i = some parent →
      w.offer parent = some o → o.offerer = buyer ∧ w.counterOfferParent parent = none

end ListingSale

/-- A settlement that saves the offer and the listing and leaves the listings alone after that. -/
theorem listing_of_settle [Preserves World.catalogue c]
    (h : Returns (saveOffer o >>= fun _ => saveListing l' >>= fun _ => c) w u w') :
    w'.listing = update w.listing l'.listingId (some l') := by
  obtain ⟨w1, hoffer, h⟩ := h.seq
  have e : w1.catalogue = w.catalogue := hoffer.last rfl
  replace h := h.write
  refine (congrArg Register.get (h.last (f := World.catalogue) rfl)).trans ?_
  rw [show w.listing = w1.listing from (congrArg Register.get e).symm]
  rfl

/-- The artist cannot buy the work. -/
theorem buyArtwork_stranger
    (h : Returns (buyArtwork host env buyer k) w r w') (hl : w.listing k = some l) :
    buyer ≠ l.artist := by
  obtain ⟨_, _, _, w3, e, h⟩ := h.skip₃ (f := World.catalogue) rfl
  obtain ⟨l', hl', h⟩ := returns_requireListing_bind.mp h
  have hstored : w.catalogue.get k = some l' := by
    rw [← e]
    exact hl'
  obtain rfl : l = l' := Option.mem_unique hl hstored
  obtain ⟨_, _, _, _, w7, e, h⟩ := h.skip₄ e
  obtain ⟨_, w8, e, h⟩ := h.skip e
  obtain ⟨w9, hself, h⟩ := h.seq
  exact fun heq => (hself.passed).1 heq.symm

/-- The buyer on record: the caller of a purchase or of the acceptance of a counter-offer, the offerer
of an offer that is accepted. -/
def ListingSale.buyer (w : World C) : ListingSale → Option Address
  | .purchase buyer _ => some buyer
  | .offer _ i => (w.offer i).map Offer.offerer
  | .counterOffer buyer _ => some buyer

/-- The listing that is sold is stored as before but for its status and its owner. -/
theorem ListingSale.Completes.recorded {sale : ListingSale} (hkeyed : w.book.Keyed)
    (h : sale.Completes host env w w') :
    ∃ k l owner, sale.listingId w = some k ∧ w.listing k = some l ∧ sale.buyer w = some owner ∧
      w'.listing k = some { l with status := .sold, owner := some owner } := by
  -- what the calls do after the settlement leaves the listings alone
  have hsaved {k : Nat} {l l' : Listing} {w1 w2 : World C} (hl : w.listing k = some l)
      (hafter : w'.desk = w2.desk)
      (hsettle : w2.listing = update w1.listing l.listingId (some l')) :
      w'.listing k = some l' := by
    have hid : l.listingId = k := (hkeyed.listing hl).1
    rw [show w'.listing = w2.listing from congrArg Book.listing (book_of_desk hafter), hsettle, hid,
      update_self]
  cases sale with
  | purchase buyer k =>
    obtain ⟨l, w1, w2, -, hl, -, hafter, -, hexit⟩ := buyArtwork_cases h
    rcases hexit with ⟨hfalse, -⟩ | ⟨-, -, hsettle⟩
    · cases hfalse
    · replace hsettle := hsettle.write
      exact ⟨k, l, buyer, rfl, hl, rfl,
        hsaved hl hafter (congrArg Register.get (hsettle.last (f := World.catalogue) rfl))⟩
  | offer artist i =>
    obtain ⟨o, l, w1, w2, -, ho, -, hl, -, -, hafter, -, hsettle⟩ := acceptOffer_cases h
    exact ⟨o.listingId, l, o.offerer, by simp [ListingSale.listingId, ho], hl,
      by simp [ListingSale.buyer, ho], hsaved hl hafter (listing_of_settle hsettle)⟩
  | counterOffer buyer i =>
    obtain ⟨o, l, w1, w2, -, ho, -, -, hl, -, hafter, -, hsettle⟩ := acceptCounterOffer_cases h
    exact ⟨o.listingId, l, buyer, by simp [ListingSale.listingId, ho], hl, rfl,
      hsaved hl hafter (listing_of_settle hsettle)⟩

/-- The parties of a sale, read off the state before it. -/
theorem ListingSale.Completes.proper_iff (sale : ListingSale)
    (hkeyed : w.book.Keyed) (h : sale.Completes host env w w')
    (hk : sale.listingId w = some k) (hl : w.listing k = some l) (howner : sale.buyer w = some owner) :
    sale.Proper w w' ↔ owner ≠ l.artist ∧ ∀ i parent, sale.settled = some i →
      w.counterOfferParent i = some parent → ∃ o, w.offer parent = some o ∧ owner = o.offerer := by
  obtain ⟨k', l0, owner', hk', hl0, howner', hl'⟩ := h.recorded hkeyed
  obtain rfl : k = k' := Option.mem_unique hk hk'
  obtain rfl : l = l0 := Option.mem_unique hl hl0
  obtain rfl : owner = owner' := Option.mem_unique howner howner'
  constructor
  · rintro ⟨k1, l1, owner1, hk1, hl1, howner1, hne, hanswer⟩
    obtain rfl : k = k1 := Option.mem_unique hk hk1
    obtain rfl := Option.mem_unique hl' hl1
    obtain rfl : owner = owner1 := Option.some.inj howner1
    exact ⟨hne, hanswer⟩
  · rintro ⟨hne, hanswer⟩
    exact ⟨k, _, owner, hk, hl', rfl, hne, hanswer⟩

/-- Accepting an offer sells to a stranger exactly when it is not a counter-offer. -/
theorem offerer_ne_artist_iff (hsided : w.Sided)
    (ho : w.offer i = some o) (hk : o.listingId = k) (hl : w.listing k = some l) :
    o.offerer ≠ l.artist ↔ w.counterOfferParent i = none := by
  subst hk
  have hsides : w.book.sides i = some (o.listingId, o.offerer) :=
    Option.map_eq_some_iff.mpr ⟨o, ho, rfl⟩
  cases hsided i _ hsides with
  | offer l' hparent hl' hwho =>
    obtain rfl : l' = l := Option.mem_unique hl' hl
    exact iff_of_true hwho hparent
  | counter l' p other hparent hl' hwho _ =>
    obtain rfl : l' = l := Option.mem_unique hl' hl
    refine iff_of_false (fun hne => hne hwho) ?_
    rw [hparent]
    exact Option.some_ne_none p

/-- A counter-offer answers an offer on the same listing. -/
theorem counterOffer_answers (hsided : w.Sided)
    (ho : w.offer i = some o) (hk : o.listingId = k) (hparent : w.counterOfferParent i = some parent) :
    ∃ answered, w.offer parent = some answered ∧ answered.listingId = k := by
  subst hk
  have hsides : w.book.sides i = some (o.listingId, o.offerer) :=
    Option.map_eq_some_iff.mpr ⟨o, ho, rfl⟩
  cases hsided i _ hsides with
  | offer l hnone => exact absurd (hparent.symm.trans hnone) (Option.some_ne_none parent)
  | counter l p other hp hl hwho hanswers =>
    obtain rfl : parent = p := Option.mem_unique hparent hp
    obtain ⟨answered, hanswered, hsame⟩ := Option.map_eq_some_iff.mp hanswers
    exact ⟨answered, hanswered, congrArg Prod.fst hsame⟩

/-- **Sale counterparties.** From every reachable state, a sale has the right parties exactly when it
is regular. -/
theorem sale_counterparties (host : Host C) (env : Env) (w w' : World C) (sale : ListingSale)
    (hreach : Reachable host w) (h : sale.Completes host env w w') :
    sale.Proper w w' ↔ sale.Regular w := by
  have hsided := hreach.sided
  obtain ⟨k, l, owner, hk, hl, howner, -⟩ := h.recorded hreach.keyed
  rw [ListingSale.Completes.proper_iff sale hreach.keyed h hk hl howner]
  cases sale with
  | purchase buyer j =>
    obtain rfl : j = k := Option.some.inj hk
    obtain rfl : buyer = owner := Option.some.inj howner
    refine iff_of_true ⟨buyArtwork_stranger h hl, fun i parent hnone => ?_⟩ trivial
    cases hnone
  | offer artist i =>
    obtain ⟨o, ho, hlisting⟩ := Option.map_eq_some_iff.mp hk
    obtain rfl : o.offerer = owner := by
      obtain ⟨o', ho', hoffer⟩ := Option.map_eq_some_iff.mp howner
      rw [Option.mem_unique ho ho']
      exact hoffer
    have hiff := offerer_ne_artist_iff hsided ho hlisting hl
    refine ⟨fun hproper => hiff.mp hproper.1, fun hnone => ⟨hiff.mpr hnone, ?_⟩⟩
    rintro _ parent ⟨⟩ hparent
    exact absurd (hparent.symm.trans hnone) (Option.some_ne_none parent)
  | counterOffer buyer i =>
    obtain rfl : buyer = owner := Option.some.inj howner
    obtain ⟨o, ho, hlisting⟩ := Option.map_eq_some_iff.mp hk
    obtain ⟨parent, hparent⟩ : ∃ parent, w.counterOfferParent i = some parent := by
      obtain ⟨_, _, _, _, -, -, -, hsome, -⟩ := acceptCounterOffer_cases h
      exact Option.isSome_iff_exists.mp hsome
    obtain ⟨answered, hanswered, hsame⟩ := counterOffer_answers hsided ho hlisting hparent
    have hiff := offerer_ne_artist_iff hsided hanswered hsame hl
    constructor
    · rintro ⟨hne, hanswer⟩ p o' hp ho'
      obtain rfl : parent = p := Option.mem_unique hparent hp
      obtain rfl : answered = o' := Option.mem_unique hanswered ho'
      obtain ⟨o'', ho'', heq⟩ := hanswer i parent rfl hparent
      obtain rfl : answered = o'' := Option.mem_unique hanswered ho''
      exact ⟨heq.symm, hiff.mp (heq ▸ hne)⟩
    · intro hregular
      obtain ⟨heq, hnone⟩ := hregular parent answered hparent hanswered
      refine ⟨heq ▸ hiff.mpr hnone, ?_⟩
      rintro _ p ⟨⟩ hp
      obtain rfl : parent = p := Option.mem_unique hparent hp
      exact ⟨answered, hanswered, heq.symm⟩

/-- The artist `⟨10⟩` has answered offer 2, made by `⟨20⟩`, with counter-offer 3. -/
def countered : List (Step Unit) :=
  twoOffers ++ [.call (.signedBy ⟨10⟩ 300) (.offer (.counterOffer ⟨10⟩ 2 2000000 ⟨50⟩ none))]

/-- The offerer accepts the counter-offer. -/
theorem sale_counterparties_original :
    let w := run (.accepting ⟨0⟩ ⟨10⟩) (.fresh (fundedBidders ⟨0⟩) ()) countered
    let sale := ListingSale.counterOffer ⟨20⟩ 3
    ∃ w', sale.Completes (.accepting ⟨0⟩ ⟨10⟩) (.signedBy ⟨20⟩ 400) w w' ∧ sale.Proper w w' := by
  intro w sale
  obtain ⟨_, w', h, -⟩ := exists_returns (s := w) (p := fun _ _ => true)
    (c := acceptCounterOffer (.accepting ⟨0⟩ ⟨10⟩) (.signedBy ⟨20⟩ 400) ⟨20⟩ 3) (by decide +kernel)
  have hreach : Reachable (.accepting ⟨0⟩ ⟨10⟩) w := reachable_run ..
  refine ⟨w', h, (sale_counterparties _ _ w w' sale hreach h).mpr fun parent o hparent ho => ?_⟩
  obtain rfl : parent = 2 := by
    have htwo : w.counterOfferParent 3 = some 2 := by decide +kernel
    exact Option.mem_unique hparent htwo
  have hofferer : (w.offer 2).map Offer.offerer = some ⟨20⟩ := by decide +kernel
  rw [ho] at hofferer
  exact ⟨Option.some.inj hofferer, by decide +kernel⟩

/-- The artist accepts the counter-offer with `accept_offer` and is recorded as the owner; somebody who
made no offer accepts it with `accept_counter_offer`. -/
theorem counter_offer_wrong_parties :
    let host := Host.accepting ⟨0⟩ ⟨10⟩
    let w := run host (.fresh (fundedBidders ⟨0⟩) ()) countered
    (∃ w', (ListingSale.offer ⟨10⟩ 3).Completes host (.signedBy ⟨10⟩ 400) w w' ∧
        ¬ (ListingSale.offer ⟨10⟩ 3).Proper w w') ∧
      ∃ w', (ListingSale.counterOffer ⟨21⟩ 3).Completes host (.signedBy ⟨21⟩ 400) w w' ∧
        ¬ (ListingSale.counterOffer ⟨21⟩ 3).Proper w w' := by
  intro host w
  have hlisting : (w.offer 3).map Offer.listingId = some 1 := by decide +kernel
  have hreach : Reachable host w := reachable_run ..
  obtain ⟨l, hl, hartist⟩ : ∃ l, w.listing 1 = some l ∧ l.artist = ⟨10⟩ :=
    Option.map_eq_some_iff.mp (by decide +kernel : (w.listing 1).map Listing.artist = some ⟨10⟩)
  constructor
  · obtain ⟨_, w', h, -⟩ := exists_returns (s := w) (p := fun _ _ => true)
      (c := acceptOffer host (.signedBy ⟨10⟩ 400) ⟨10⟩ 3) (by decide +kernel)
    have howner : (ListingSale.offer ⟨10⟩ 3).buyer w = some ⟨10⟩ := by decide +kernel
    have hiff := ListingSale.Completes.proper_iff (.offer ⟨10⟩ 3) hreach.keyed h hlisting hl
      howner
    exact ⟨w', h, fun hproper => (hiff.mp hproper).1 hartist.symm⟩
  · obtain ⟨_, w', h, -⟩ := exists_returns (s := w) (p := fun _ _ => true)
      (c := acceptCounterOffer host (.signedBy ⟨21⟩ 400) ⟨21⟩ 3) (by decide +kernel)
    have hiff := ListingSale.Completes.proper_iff (.counterOffer ⟨21⟩ 3) hreach.keyed h
      hlisting hl rfl
    refine ⟨w', h, fun hproper => ?_⟩
    obtain ⟨o, ho, howner⟩ := (hiff.mp hproper).2 3 2 rfl (by decide +kernel)
    have hofferer : (w.offer 2).map Offer.offerer = some ⟨20⟩ := by decide +kernel
    rw [ho, Option.map_some, ← howner] at hofferer
    exact absurd hofferer (by decide)

end ElcareHub.Marketplace
