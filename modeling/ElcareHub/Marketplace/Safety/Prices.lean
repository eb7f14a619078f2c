import ElcareHub.Lib.Avoid
import ElcareHub.Marketplace.Refine.Catalogue
import ElcareHub.Marketplace.Refine.Steps
import ElcareHub.Marketplace.Safety.Split

/-!
# Listed prices can be settled

The settlement of a price multiplies it by a royalty rate, a fee rate and the shares of the
recipients, each of at most 10000 basis points, and aborts with `ArithmeticOverflow` when a product
leaves the range of `i128`. A price up to `i128::MAX / 10_000` is safe, and a higher price is not
(`not_settleable`).

`update_listing_price` refuses higher prices; the other calls that set a price do not. Along every run
in which they are not asked for a higher price, every listing can be settled
(`listed_prices_settleable`).
-/

namespace ElcareHub.Marketplace

open Call

set_option synthInstance.maxSize 100000000

variable {C : Type} {host : Host C} {env : Env} {w w' : World C}

/-! ### The split -/

/-- The recipients the contract accepts share at most 10000 basis points. -/
theorem bpsTotal_le_of_faultless
    (h : recipientsFault prior total rs = none) : total + bpsTotal rs ≤ 10000 := by
  induction rs generalizing prior total with
  | nil => simpa [recipientsFault, bpsTotal] using h
  | cons r rs ih =>
    simp only [recipientsFault] at h
    split at h
    · cases h
    split at h
    · cases h
    split at h
    · cases h
    have hrest := ih h
    rw [show bpsTotal (r :: rs) = r.percentage + bpsTotal rs from rfl]
    omega

/-- **The split is safe** for prices up to the cap, at every fee rate. -/
theorem distribute_ne_overflow (hprice : 0 ≤ price) (hcap : price ≤ priceCap) (hfee : feeBps ≤ 10000)
    (hrs : ValidRecipients rs) :
    distribute price feeBps rs ≠ .error (.contract .arithmeticOverflow) := by
  obtain ⟨front, last, rfl⟩ := (List.eq_nil_or_concat' rs).resolve_left hrs.nonempty
  have hbps := bpsTotal_le_of_faultless hrs.faultless
  rw [distribute_eq hprice hcap hfee hrs.few (by omega)]
  exact nofun

/-! ### The settlement -/

abbrev overflow : Abort := .contract .arithmeticOverflow

instance (token src dst : Address) (amount : Int) :
    Avoids overflow (tokenTransfer env token src dst amount : Tx C Unit) where
  ne w h := by
    unfold tokenTransfer attempt at h
    dsimp only at h
    split at h <;> cases h

instance (collection : Address) : Avoids overflow (invokeRoyaltyInfo host collection) where
  ne w h := by
    unfold invokeRoyaltyInfo attempt at h
    dsimp only at h
    split at h <;> cases h

instance (account : Account) (token : Address) (treasury : Option Address) (fee : Int) :
    Avoids overflow (payFee host env account token treasury fee) := by
  unfold payFee
  split <;> infer_instance

section Payout

variable {account : Account} {token collection seller buyer receiver : Address} {amount : Int}
  {recipients : List Recipient} {fromBuyer isListing : Bool} {feeBps bps id : Nat}

theorem avoids_payRoyalty (hamount : 0 ≤ amount) (hcap : amount ≤ priceCap) (hbps : bps ≤ 10000) :
    Avoids overflow (payRoyalty host env account token amount seller id isListing receiver bps) := by
  obtain ⟨royalty, hroyalty, -⟩ := bpsOf_of_le_cap hamount hcap hbps
  have hrest : Avoids overflow
      (expect (checkedI128 (amount - royalty)) "attempt to subtract with overflow" : Tx C Int) :=
    .orAbort (by simp) _
  unfold payRoyalty
  rw [hroyalty]
  -- the royalty is known to the rest of the program only once it has been loaded
  split
  · refine ⟨fun w h => ?_⟩
    obtain ⟨x, w1, hload, h⟩ := aborts_next h
    obtain ⟨hx, rfl⟩ := hload.value
    obtain rfl := Option.some.inj hx
    exact Avoids.ne _ h
  · infer_instance

theorem payRoyalty_rest (hamount : 0 ≤ amount) (hcap : amount ≤ priceCap) (hbps : bps ≤ 10000)
    (h : Returns (payRoyalty host env account token amount seller id isListing receiver bps) w
      (rest, royalty) w') : 0 ≤ rest ∧ rest ≤ amount := by
  unfold payRoyalty at h
  split at h
  · obtain ⟨x, w1, hload, h⟩ := h.bind
    obtain ⟨y, hy, hpart⟩ := bpsOf_of_le_cap hamount hcap hbps
    obtain rfl : y = x := Option.some.inj (hy.symm.trans (hload.value).1)
    obtain ⟨w2, hclaim, h⟩ := h.seq
    obtain ⟨rest', w3, hsub, h⟩ := h.bind
    obtain ⟨heq, rfl⟩ := h.pure
    cases heq
    rw [checkedI128_eq_some (hsub.value).1]
    omega
  · obtain ⟨heq, rfl⟩ := h.pure
    cases heq
    exact ⟨hamount, le_rfl⟩

/-- The rates that enter a settlement of `collection` in state `w`, other than that of the sale. -/
structure World.RatesWithin (host : Host C) (w : World C) (collection : Address) : Prop where
  fee : ∀ bps, w.config.collectionFeeBps collection = some bps → bps ≤ 10000
  royalty : ∀ receiver bps c,
    host.royaltyInfo w.collections collection = some ((receiver, bps), c) → bps ≤ 10000

theorem map_eq_error {x : Except Abort α} (h : x.map f = .error e) : x = .error e := by
  cases x with
  | error e' =>
    cases h
    rfl
  | ok a => cases h

/-- **A settlement is safe** for prices up to the cap, at every royalty and fee rate. -/
theorem distributePayoutTracked_ne_overflow (hamount : 0 ≤ amount) (hcap : amount ≤ priceCap)
    (hrecipients : ValidRecipients recipients) (hfee : feeBps ≤ 10000)
    (hrates : w.RatesWithin host collection) :
    distributePayoutTracked host env account token collection amount seller recipients buyer fromBuyer
      feeBps id isListing w ≠ .error overflow := by
  intro h
  obtain ⟨_, w1, hdeposit, h⟩ := aborts_next h
  have hconfig1 : w1.config = w.config := hdeposit.last rfl
  have hcollections : w1.collections = w.collections := hdeposit.last rfl
  obtain ⟨⟨receiver, bps⟩, w2, hinfo, h⟩ := aborts_next h
  have hconfig2 : w2.config = w.config := hinfo.last hconfig1
  have hbps : bps ≤ 10000 := by
    rw [invokeRoyaltyInfo, returns_attempt, hcollections] at hinfo
    split at hinfo
    · rename_i info c hanswer
      cases hinfo
      exact hrates.royalty receiver bps c hanswer
    · cases hinfo
  -- the royalty leaves a part of the price
  have hsafe : Avoids overflow
      (payRoyalty host env account token amount seller id isListing receiver bps) :=
    avoids_payRoyalty hamount hcap hbps
  obtain ⟨⟨rest, royalty⟩, w3, hroyalty, h⟩ := aborts_next h
  obtain ⟨hrest, hle⟩ := payRoyalty_rest hamount hcap hbps hroyalty
  have hconfig3 : w3.config = w.config := hroyalty.last hconfig2
  obtain ⟨config, w4, hview, h⟩ := aborts_next h
  obtain ⟨rfl, rfl⟩ := hview.read
  -- which is then split
  have hrate : (if w3.config.treasury.isSome then
      (settlementFeeBps w3.config collection feeBps).1 else 0) ≤ 10000 := by
    unfold settlementFeeBps
    split
    · split
      · exact (hconfig3 ▸ hrates.fee) _ ‹_›
      · exact hfee
    · exact Nat.zero_le _
  obtain ⟨_, w4, hevent, h⟩ := aborts_next h
  rcases bind_eq_error.mp h with h | ⟨dist, w5, hdist, h⟩
  · have hsplit := distribute_ne_overflow hrest (hle.trans hcap) hrate hrecipients
    exact hsplit (map_eq_error h)
  · obtain ⟨_, w6, hpay, h⟩ := aborts_next h
    exact Avoids.ne _ h

end Payout

/-! ### Listings -/

/-- The price of the listing can be settled: at no fee, override and royalty of up to 10000 basis
points does its settlement, or the split of its price, abort with `ArithmeticOverflow`. -/
structure Listing.Settleable (C : Type) (l : Listing) : Prop where
  settles : ∀ (host : Host C) (env : Env) (w : World C) (account : Account) (buyer : Address)
    (fromBuyer : Bool) (feeBps : Nat), feeBps ≤ 10000 → w.RatesWithin host l.collection →
      distributePayoutTracked host env account l.token l.collection l.price l.artist l.recipients
        buyer fromBuyer feeBps l.listingId true w ≠ .error overflow
  splits : ∀ feeBps ≤ 10000, distribute l.price feeBps l.recipients ≠ .error overflow

/-- What the checks on a listing leave: a positive price up to the cap and valid recipients. -/
structure Listing.Priced (l : Listing) : Prop where
  positive : 0 < l.price
  cap : l.price ≤ priceCap
  recipients : ValidRecipients l.recipients

theorem Listing.Priced.settleable {l : Listing} (h : l.Priced) : l.Settleable C where
  settles _ _ _ _ _ _ _ hfee hrates :=
    distributePayoutTracked_ne_overflow h.positive.le h.cap h.recipients hfee hrates
  splits _ hfee := distribute_ne_overflow h.positive.le h.cap hfee h.recipients

/-- **The cap is sharp.** A price above the cap cannot be settled at every royalty. -/
theorem not_settleable {l : Listing} (host : Host C) (env : Env) (w : World C)
    (hprice : priceCap < l.price) : ¬ l.Settleable C := by
  intro h
  -- a royalty of the whole price, to somebody else
  let receiver : Address := ⟨l.artist.num + 1⟩
  let greedy : Host C := { host with royaltyInfo := fun c _ => some ((receiver, 10000), c) }
  let w0 : World C := { w with config := { w.config with collectionFeeBps := fun _ => none } }
  have hrates : w0.RatesWithin greedy l.collection := by
    refine ⟨fun bps hbps => (by cases hbps), fun receiver bps c hanswer => ?_⟩
    cases hanswer
    exact le_rfl
  have hreceiver : receiver ≠ l.artist := by
    intro heq
    have hnum : l.artist.num + 1 = l.artist.num := congrArg Address.num heq
    omega
  have hproduct : bpsOf l.price 10000 = none := by
    have hmax : i128Max < (priceCap + 1) * 10000 := by decide
    rw [bpsOf, checkedI128, if_neg (by push_cast; omega), Option.map_none]
  have hroyalty : payRoyalty greedy env (.sale l.listingId) l.token l.price l.artist l.listingId
      true receiver 10000 w0 = .error overflow := by
    unfold payRoyalty
    rw [if_pos ⟨by decide, hreceiver⟩, hproduct]
    exact bind_eq_error.mpr (.inl rfl)
  refine h.settles greedy env w0 (.sale l.listingId) receiver false 0 (Nat.zero_le _) hrates ?_
  refine bind_eq_error.mpr (.inr ⟨(), w0, rfl, ?_⟩)
  refine bind_eq_error.mpr (.inr ⟨(receiver, 10000), w0, rfl, ?_⟩)
  exact bind_eq_error.mpr (.inl hroyalty)

/-- The requests of the step ask for prices up to the cap. -/
def AsksWithinCap (_ : World C) (s : Step C) : Prop :=
  ∀ env op, s = .call env op → (∀ request ∈ op.creates, request.price ≤ priceCap) ∧
      ∀ request ∈ op.updates, request.newPrice ≤ priceCap

theorem op_priced (hreach : Reachable host w) (hcondition : AsksWithinCap w (.call env op))
    (h : Returns (op.exec host env) w () w') (hw : ∀ k l, w.listing k = some l → l.Priced) :
    ∀ k l, w'.listing k = some l → l.Priced := by
  obtain ⟨hcreates, hupdates⟩ := hcondition env op rfl
  refine op_forall_listing hreach.keyed h (fun k l hnew => ?_) (fun l l' hedit hl => ?_) hw
  · cases hnew with
    | opened artist createdAt request hrequest hprice hrecipients =>
      exact ⟨hprice, hcreates request hrequest, hrecipients⟩
  · cases hedit with
    | revise request hrequest hprice hrecipients =>
      exact ⟨hprice, hupdates request hrequest, hrecipients⟩
    | reprice price hpositive hcap => exact ⟨hpositive, hcap, hl.recipients⟩
    | reserve | reconcile | close => exact ⟨hl.positive, hl.cap, hl.recipients⟩

/-- **Listed prices.** Along every run whose requests ask for prices up to `i128::MAX / 10_000`, every
listing, active or not, can be settled. -/
theorem listed_prices_settleable (host : Host C) (balances : Address × Address → Int)
    (collections : C) (steps : List (Step C))
    (hrun : Run.Along (step host) AsksWithinCap (.fresh balances collections) steps) (k : Nat)
    (l : Listing) (hl : (run host (.fresh balances collections) steps).listing k = some l) :
    l.Settleable C := by
  have hpriced : ∀ k l, (run host (.fresh balances collections) steps).listing k = some l →
      l.Priced := by
    refine run_calls (I := fun w => ∀ k l, w.listing k = some l → l.Priced) hrun ?_ ?_ ?_
    · intro k l h
      cases h
    · intro env op w w' hreach hcondition h hw
      exact op_priced hreach hcondition h hw
    · intro w collections balances hw
      exact hw
  exact (hpriced k l hl).settleable

/-- A work at the price `price`, shared by two recipients. -/
def sharedWork (price : Int) : List (Step Unit) :=
  [.call (.signedBy ⟨10⟩ 100) (.listing (.createListing ⟨10⟩
    ⟨price, "XLM", ⟨50⟩, ⟨60⟩, 7, 1, [⟨⟨10⟩, 5000⟩, ⟨⟨11⟩, 5000⟩], none⟩))]

/-- The highest price that is safe can be listed. -/
theorem listed_prices_settleable_atCap :
    let w := run (.accepting ⟨0⟩ ⟨10⟩) (.fresh (fundedBidders ⟨0⟩) ()) (sharedWork priceCap)
    ∃ l, w.listing 1 = some l ∧ l.status = .active ∧ l.price = priceCap ∧ l.Settleable Unit := by
  intro w
  have hlisted : (w.listing 1).map (fun l => (l.status, l.price)) = some (.active, priceCap) := by
    decide +kernel
  obtain ⟨l, hl, hterms⟩ := Option.map_eq_some_iff.mp hlisted
  obtain ⟨hstatus, hprice⟩ := Prod.mk.inj hterms
  refine ⟨l, hl, hstatus, hprice, listed_prices_settleable _ _ _ _ ?_ 1 l hl⟩
  simp [sharedWork, AsksWithinCap, Op.creates, Op.updates]

/-- So can `i128::MAX`, and then nobody can buy the work: without any fee or royalty, the share of the
first recipient is out of range. -/
theorem highest_price_not_settleable :
    let host := Host.accepting ⟨0⟩ ⟨10⟩
    let w := run host (.fresh (fun _ => i128Max) ()) (sharedWork i128Max)
    ∃ l, w.listing 1 = some l ∧ l.status = .active ∧ ¬ l.Settleable Unit ∧
      buyArtwork host (.signedBy ⟨20⟩ 200) ⟨20⟩ 1 w = .error overflow := by
  intro host w
  have hlisted : (w.listing 1).map (fun l => (l.status, l.price)) = some (.active, i128Max) := by
    decide +kernel
  obtain ⟨l, hl, hterms⟩ := Option.map_eq_some_iff.mp hlisted
  obtain ⟨hstatus, hprice⟩ := Prod.mk.inj hterms
  refine ⟨l, hl, hstatus, not_settleable host (.signedBy ⟨20⟩ 200) w ?_, ?_⟩
  · rw [hprice]
    decide
  · have hbuy : (buyArtwork host (.signedBy ⟨20⟩ 200) ⟨20⟩ 1 w).map Prod.fst = .error overflow := by
      decide +kernel
    exact map_eq_error hbuy

end ElcareHub.Marketplace
