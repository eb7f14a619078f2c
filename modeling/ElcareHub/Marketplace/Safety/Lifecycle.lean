import ElcareHub.Marketplace.Refine.OfferBook

/-!
# Terminal states are absorbing

Listings, auctions and offers are entered open and are closed once. `Follows` says, for each of the three,
what a record may have become later: its status has changed at most once, from open to one of the closed
ones, and a record that is closed stays what it is. The owner of a listing is the one exception: the
administrator of collections reconciles it at any time.

The three relations are kept by every call, since every edit of a register is one of them
(`op_listing_follows`, `op_auction_follows`, `op_offer_follows`), and they compose along runs.

That a listing has one accepted offer at most is an invariant of two registers at once: an accepted offer
belongs to a listing that is closed, and only an offer of an open listing is accepted (`OneDeal`).
-/

namespace ElcareHub.Marketplace

open Call

variable {C : Type} {host : Host C} {env : Env} {w w' : World C}
variable {l : Listing} {a : Auction} {o o' : Offer} {i : Nat}
variable {l' : Listing} {a' : Auction} {k : Nat}

/-! ### What a record may become -/

structure Listing.Follows (l l' : Listing) : Prop where
  status : l'.status = l.status ∨ (l.status = .active ∧ (l'.status = .sold ∨ l'.status = .cancelled))
  closed : l.status ≠ .active → l' = { l with owner := l'.owner }

structure Auction.Follows (a a' : Auction) : Prop where
  status : a'.status = a.status ∨
    (a.status = .active ∧ (a'.status = .finalized ∨ a'.status = .cancelled))
  closed : a.status ≠ .active → a' = a

structure Offer.Follows (o o' : Offer) : Prop where
  status : o'.status = o.status ∨
    (o.status = .pending ∧ (o'.status = .accepted ∨ o'.status = .rejected ∨
      o'.status = .withdrawn ∨ o'.status = .expired))
  closed : o.status ≠ .pending → o' = o
  terms : o' = { o with status := o'.status }

theorem Listing.Follows.refl (l : Listing) : l.Follows l := ⟨.inl rfl, fun _ => rfl⟩
theorem Auction.Follows.refl (a : Auction) : a.Follows a := ⟨.inl rfl, fun _ => rfl⟩
theorem Offer.Follows.refl (o : Offer) : o.Follows o := ⟨.inl rfl, fun _ => rfl, rfl⟩

/-- A closed listing stays closed, so that of two changes of status the first is none or the second
is. -/
theorem Listing.Follows.trans (h : l.Follows l') (h' : l'.Follows l'') : l.Follows l'' := by
  refine ⟨?_, fun hclosed => ?_⟩
  · rcases h.status with hsame | ⟨hactive, hto⟩
    · rw [← hsame]
      exact h'.status
    · have hclosed : l'.status ≠ .active := by
        rcases hto with hto | hto <;> simp [hto]
      rw [h'.closed hclosed]
      exact .inr ⟨hactive, hto⟩
  · have hl' := h.closed hclosed
    have hclosed' : l'.status ≠ .active := by
      rw [hl']
      exact hclosed
    rw [h'.closed hclosed', hl']

theorem Auction.Follows.trans (h : a.Follows a') (h' : a'.Follows a'') : a.Follows a'' := by
  by_cases hactive : a'.status = .active
  · -- the auction has been open all along
    have hstart : a.status = .active := by
      by_contra hclosed
      rw [h.closed hclosed] at hactive
      exact hclosed hactive
    refine ⟨?_, fun hclosed => (hclosed hstart).elim⟩
    rw [hstart, ← hactive]
    rcases h'.status with hsame | ⟨-, hto⟩
    · exact .inl hsame
    · exact .inr ⟨rfl, hto⟩
  · rw [h'.closed hactive]
    exact h

theorem Offer.Follows.trans (h : o.Follows o') (h' : o'.Follows o'') : o.Follows o'' := by
  by_cases hpending : o'.status = .pending
  · have hstart : o.status = .pending := by
      by_contra hclosed
      rw [h.closed hclosed] at hpending
      exact hclosed hpending
    refine ⟨?_, fun hclosed => (hclosed hstart).elim, ?_⟩
    · rw [hstart, ← hpending]
      rcases h'.status with hsame | ⟨-, hto⟩
      · exact .inl hsame
      · exact .inr ⟨rfl, hto⟩
    · rw [h'.terms, h.terms]
  · rw [h'.closed hpending]
    exact h

/-! ### Edits -/

theorem Listing.Edit.follows (h : l.Edit updates l') (hopen : l.Open l') : l.Follows l' := by
  refine ⟨?_, fun hclosed => hopen.resolve_left hclosed⟩
  cases h with
  | close status owner hactive hclosed =>
    refine .inr ⟨hactive, ?_⟩
    cases status with
    | active => exact absurd rfl hclosed
    | sold => exact .inl rfl
    | cancelled => exact .inr rfl
  | _ => exact .inl rfl

theorem Auction.Edit.follows (h : a.Edit config a')
    (hactive : a.status = .active) : a.Follows a' := by
  refine ⟨?_, fun hclosed => (hclosed hactive).elim⟩
  cases h with
  | reserve => exact .inl rfl
  | close status _ hclosed =>
    refine .inr ⟨hactive, ?_⟩
    cases status with
    | active => exact absurd rfl hclosed
    | finalized => exact .inl rfl
    | cancelled => exact .inr rfl

theorem Auction.Admits.follows (h : a.Admits bidder amount)
    (extension : Option (Nat × Nat)) : a.Follows (a.withBid bidder amount extension) :=
  ⟨.inl rfl, fun hclosed => (hclosed h.active).elim⟩

theorem Offer.Close.follows (h : o.Close accepts o') : o.Follows o' := by
  cases h with
  | refuse status hpending hclosed hrefused =>
    refine ⟨.inr ⟨hpending, ?_⟩, fun hne => (hne hpending).elim, rfl⟩
    cases status <;> simp_all
  | accept hpending hid =>
    exact ⟨.inr ⟨hpending, .inl rfl⟩, fun hne => (hne hpending).elim, rfl⟩

/-! ### Calls -/

theorem op_listing_follows {op : Op} (hkeyed : w.book.Keyed)
    (h : Returns (op.exec host env) w () w') (hl : w.listing k = some l) :
    ∃ l', w'.listing k = some l' ∧ l.Follows l' :=
  Register.kept Listing.Follows.refl (fun _ _ _ h h' => h.trans h')
    (fun _ _ _ hedit => hedit.1.follows hedit.2) hkeyed.catalogue (op_turns hkeyed h) hl

theorem op_auction_follows {op : Op} (hkeyed : w.book.Keyed)
    (h : Returns (op.exec host env) w () w') (ha : w.auction k = some a) :
    ∃ a', w'.auction k = some a' ∧ a.Follows a' :=
  op_auction_kept Auction.Follows.refl (fun _ _ _ h h' => h.trans h') (fun _ _ _ he => he.follows) hkeyed h ha
    fun _ _ _ hadmits => hadmits.follows _

theorem op_offer_follows {op : Op} (hkeyed : w.book.Keyed) (h : Returns (op.exec host env) w () w')
    (ho : w.offer i = some o) : ∃ o', w'.offer i = some o' ∧ o.Follows o' :=
  Register.kept Offer.Follows.refl (fun _ _ _ h h' => h.trans h') (fun _ _ _ hedit => hedit.follows)
    hkeyed.offerBook (op_offerBook hkeyed h) ho

/-- An offer that is accepted after a call was so before, or is the one the call accepts. -/
theorem op_accepted {op : Op} (hkeyed : w.book.Keyed) (h : Returns (op.exec host env) w () w')
    (ho : w'.offer i = some o) (haccepted : o.status = .accepted) :
    w.offer i = some o ∨ i ∈ op.accepts := by
  have hkeyed' : w'.offerBook.Keyed Offer.offerId := Stable.steps hkeyed.offerBook (op_offerBook hkeyed h)
  have hid : o.offerId = i := hkeyed'.id_eq ho
  rw [← hid]
  refine Register.forall_get (op_offerBook hkeyed h)
    (I := fun o => o.status = .accepted → w.offer o.offerId = some o ∨ o.offerId ∈ op.accepts)
    ?_ ?_ ?_ i o ho haccepted
  · intro n x hnew hx
    rw [hnew.pending] at hx
    cases hx
  · intro x x' hclose _ hx'
    cases hclose with
    | refuse status _ _ hrefused => exact absurd hx' hrefused
    | accept _ hmem => exact .inr hmem
  · intro n x hx _
    have hn : x.offerId = n := hkeyed.offerBook.id_eq hx
    rw [hn]
    exact .inl hx

/-- The calls that accept an offer name no other, find its listing open and close it. -/
theorem op_accepts {op : Op} (hkeyed : w.book.Keyed) (h : Returns (op.exec host env) w () w')
    (hi : i ∈ op.accepts) (ho : w'.offer i = some o) :
    op.accepts = [i] ∧ (∃ l, w.listing o.listingId = some l ∧ l.status = .active) ∧
      ∃ l', w'.listing o.listingId = some l' ∧ l'.status ≠ .active := by
  have hlisting {o0 : Offer} (ho0 : w.offer i = some o0) : o.listingId = o0.listingId := by
    obtain ⟨o1, ho1, hfollows⟩ := op_offer_follows hkeyed h ho0
    obtain rfl : o = o1 := Option.mem_unique ho ho1
    rw [hfollows.terms]
  unfold Op.accepts at hi
  split at hi
  · obtain rfl := List.mem_singleton.mp hi
    obtain ⟨o0, l, w1, w2, e, hoffer, -, hl, hactive, hartist, e', -, hsettle⟩ := acceptOffer_cases h
    have e1 := book_of_desk e
    have hexits := (acceptSettle_exits (e1 ▸ hkeyed) (by rw [e1]; exact hoffer)
      (by rw [e1]; exact hl) hactive hartist hsettle).1
    rw [← book_of_desk e'] at hexits
    rw [hlisting hoffer]
    exact ⟨rfl, ⟨l, hl, hactive⟩, hexits.closed⟩
  · obtain rfl := List.mem_singleton.mp hi
    obtain ⟨o0, l, w1, w2, e, hoffer, -, -, hl, hactive, e', -, hsettle⟩ := acceptCounterOffer_cases h
    have e1 := book_of_desk e
    have hexits := (acceptCounterSettle_exits (e1 ▸ hkeyed) (by rw [e1]; exact hoffer)
      (by rw [e1]; exact hl) hactive hsettle).1
    rw [← book_of_desk e'] at hexits
    rw [hlisting hoffer]
    exact ⟨rfl, ⟨l, hl, hactive⟩, hexits.closed⟩
  · cases hi

/-! ### One accepted offer -/

/-- Accepted offers belong to closed listings, each to its own. -/
structure OneDeal (w : World C) : Prop where
  closed : ∀ {i o}, w.offer i = some o → o.status = .accepted →
    ∃ l, w.listing o.listingId = some l ∧ l.status ≠ .active
  unique : ∀ {i j o o'}, w.offer i = some o → w.offer j = some o' → o.status = .accepted →
    o'.status = .accepted → o.listingId = o'.listingId → i = j

/-- An offer that is being accepted is the first of its listing: the listing is open, and those of the
offers accepted before are closed. -/
theorem OneDeal.first {op : Op} (hw : OneDeal w) (hkeyed : w.book.Keyed)
    (h : Returns (op.exec host env) w () w') (hi : i ∈ op.accepts)
    (ho : w'.offer i = some o) (hold : w.offer j = some o') (haccepted : o'.status = .accepted) :
    o.listingId ≠ o'.listingId := by
  intro heq
  obtain ⟨-, ⟨l, hl, hactive⟩, -⟩ := op_accepts hkeyed h hi ho
  obtain ⟨l', hl', hclosed⟩ := hw.closed hold haccepted
  rw [heq, hl'] at hl
  cases hl
  exact hclosed hactive

theorem OneDeal.op {op : Op} (hw : OneDeal w) (hkeyed : w.book.Keyed)
    (h : Returns (op.exec host env) w () w') : OneDeal w' := by
  refine ⟨fun {i o} ho haccepted => ?_, fun {i j o o'} ho ho' haccepted haccepted' heq => ?_⟩
  · rcases op_accepted hkeyed h ho haccepted with hold | hnew
    · obtain ⟨l, hl, hclosed⟩ := hw.closed hold haccepted
      obtain ⟨l', hl', hfollows⟩ := op_listing_follows hkeyed h hl
      refine ⟨l', hl', ?_⟩
      rw [hfollows.closed hclosed]
      exact hclosed
    · exact (op_accepts hkeyed h hnew ho).2.2
  · rcases op_accepted hkeyed h ho haccepted with hold | hnew <;>
      rcases op_accepted hkeyed h ho' haccepted' with hold' | hnew'
    · exact hw.unique hold hold' haccepted haccepted' heq
    · exact absurd heq.symm (hw.first hkeyed h hnew' ho' hold haccepted)
    · exact absurd heq (hw.first hkeyed h hnew ho hold' haccepted')
    · rw [(op_accepts hkeyed h hnew ho).1] at hnew'
      exact (List.mem_singleton.mp hnew').symm

theorem Reachable.oneDeal (hreach : Reachable host w) : OneDeal w := by
  refine hreach.induction (fun balances collections => ?_) ?_ ?_
  · refine ⟨fun ho => ?_, fun ho => ?_⟩ <;> cases ho
  · exact fun env op w w' hreach h hw => hw.op hreach.keyed h
  · exact fun w collections balances hw => ⟨hw.closed, hw.unique⟩

/-! ### Runs -/

/-- Every record of `w` is still there in `w'`, and what it may have become. -/
structure World.Follows (w w' : World C) : Prop where
  listing : ∀ {k l}, w.listing k = some l → ∃ l', w'.listing k = some l' ∧ l.Follows l'
  auction : ∀ {k a}, w.auction k = some a → ∃ a', w'.auction k = some a' ∧ a.Follows a'
  offer : ∀ {i o}, w.offer i = some o → ∃ o', w'.offer i = some o' ∧ o.Follows o'

theorem World.Follows.refl (w : World C) : w.Follows w where
  listing hl := ⟨_, hl, .refl _⟩
  auction ha := ⟨_, ha, .refl _⟩
  offer ho := ⟨_, ho, .refl _⟩

theorem World.Follows.trans (h : w.Follows w') (h' : w'.Follows w'') : w.Follows w'' where
  listing hl := by
    obtain ⟨l', hl', hfirst⟩ := h.listing hl
    obtain ⟨l'', hl'', hsecond⟩ := h'.listing hl'
    exact ⟨l'', hl'', hfirst.trans hsecond⟩
  auction ha := by
    obtain ⟨a', ha', hfirst⟩ := h.auction ha
    obtain ⟨a'', ha'', hsecond⟩ := h'.auction ha'
    exact ⟨a'', ha'', hfirst.trans hsecond⟩
  offer ho := by
    obtain ⟨o', ho', hfirst⟩ := h.offer ho
    obtain ⟨o'', ho'', hsecond⟩ := h'.offer ho'
    exact ⟨o'', ho'', hfirst.trans hsecond⟩

theorem run_follows (hreach : Reachable host w) (steps : List (Step C)) :
    w.Follows (run host w steps) := by
  refine hreach.along_calls (Run.along_of_forall fun _ _ => trivial)
    (.refl w) (fun env op w1 w2 hreach _ h hw => hw.trans ?_) fun w1 _ _ hw => ?_
  · exact ⟨op_listing_follows hreach.keyed h, op_auction_follows hreach.keyed h,
      op_offer_follows hreach.keyed h⟩
  · exact ⟨hw.listing, hw.auction, hw.offer⟩

/-- **Terminal states are absorbing.** Between any two states of any run: a listing has stayed as it was
or gone from active to sold or cancelled, an auction from active to finalized or cancelled, an offer from
pending to accepted, rejected, withdrawn or expired; a closed listing has kept all but its owner, and a
closed auction or offer everything. At no time are two offers of one listing accepted. -/
theorem terminal_states_absorbing (host : Host C) (balances : Address × Address → Int)
    (collections : C) (before after : List (Step C)) :
    let w := run host (.fresh balances collections) before
    let w' := run host w after
    (∀ k l, w.listing k = some l → ∃ l', w'.listing k = some l' ∧ (l'.status = l.status ∨
        (l.status = .active ∧ (l'.status = .sold ∨ l'.status = .cancelled))) ∧
      (l.status ≠ .active → l' = { l with owner := l'.owner })) ∧
    (∀ k a, w.auction k = some a → ∃ a', w'.auction k = some a' ∧ (a'.status = a.status ∨
        (a.status = .active ∧ (a'.status = .finalized ∨ a'.status = .cancelled))) ∧
      (a.status ≠ .active → a' = a)) ∧
    (∀ i o, w.offer i = some o → ∃ o', w'.offer i = some o' ∧ (o'.status = o.status ∨
        (o.status = .pending ∧ (o'.status = .accepted ∨ o'.status = .rejected ∨
          o'.status = .withdrawn ∨ o'.status = .expired))) ∧
      (o.status ≠ .pending → o' = o)) ∧
    ∀ i j o o', w'.offer i = some o → w'.offer j = some o' → o.status = .accepted →
      o'.status = .accepted → o.listingId = o'.listingId → i = j := by
  intro w w'
  have hreach : Reachable host w := reachable_run host balances collections before
  have hfollows : w.Follows w' := run_follows hreach after
  have hreach' : Reachable host w' := hreach.after after
  refine ⟨fun k l hl => ?_, fun k a ha => ?_, fun i o ho => ?_, fun i j o o' => hreach'.oneDeal.unique⟩
  · obtain ⟨l', hl', h⟩ := hfollows.listing hl
    exact ⟨l', hl', h.status, h.closed⟩
  · obtain ⟨a', ha', h⟩ := hfollows.auction ha
    exact ⟨a', ha', h.status, h.closed⟩
  · obtain ⟨o', ho', h⟩ := hfollows.offer ho
    exact ⟨o', ho', h.status, h.closed⟩

end ElcareHub.Marketplace
