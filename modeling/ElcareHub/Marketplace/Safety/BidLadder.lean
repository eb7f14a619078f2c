import ElcareHub.Marketplace.Refine.Saleroom
import ElcareHub.Marketplace.Refine.Steps
import Mathlib.Data.List.Chain
import Mathlib.Data.List.DropRight

/-!
# The bid ladder

The bids an auction has accepted, in the order they were accepted, are no part of the state: the
contract keeps the highest one and a history that forgets the oldest entries. They are what the run
has put on record (`acceptedBid`). In every reachable state the accepted bids form a ladder
(`BidLadder`): they start at the reserve price, rise by at least the increment of the auction, and are
never the creator's; what is stored is the end of the ladder.

That a bid which stands is positive rests on the terms of the auction: the reserve price and the
increment are positive whatever has been configured (`Reachable.soundTerms`).
-/

namespace ElcareHub.Marketplace

open Call Function

variable {C : Type} {host : Host C} {env : Env} {w w' : World C}
variable {op : Op} {config : Config} {k : Nat} {bidder : Address} {amount : Int}

/-! ### Terms -/

/-- The configuration asks for a positive increment and a history of at least one entry. -/
structure Config.SoundTerms (config : Config) : Prop where
  increment : 0 < config.minIncrement
  cap : 1 ≤ config.bidHistoryCap.getD defaultBidHistoryCap

theorem op_minIncrement (h : Returns (op.exec host env) w () w') (hw : 0 < w.config.minIncrement) :
    0 < w'.config.minIncrement := by
  by_cases hsets : Setting.minBidIncrement ∈ op.sets
  · cases op with
    | admin op =>
      cases op with
      | setAdmin admin =>
        obtain ⟨_, w1, -, h⟩ := h.bind
        obtain ⟨w2, -, h⟩ := h.seq
        obtain ⟨w3, -, h⟩ := h.seq
        obtain rfl := h.update
        exact (by decide : 0 < defaultMinBidIncrement)
      | setMinBidIncrement admin increment =>
        obtain ⟨w1, -, h⟩ := h.seq
        obtain ⟨hpositive, h⟩ := h.check
        obtain ⟨_, w3, hview, h⟩ := h.bind
        replace h := h.write
        rw [h.last (f := World.config) rfl]
        exact Int.not_le.mp hpositive
      | _ => simp [Op.sets, AdminOp.sets] at hsets
    | _ => simp [Op.sets] at hsets
  · have hsame : w'.config.minBidIncrement = w.config.minBidIncrement := op_setting h hsets
    rw [Config.minIncrement, hsame]
    exact hw

theorem op_bidHistoryCap (h : Returns (op.exec host env) w () w')
    (hw : 1 ≤ w.config.bidHistoryCap.getD defaultBidHistoryCap) :
    1 ≤ w'.config.bidHistoryCap.getD defaultBidHistoryCap := by
  by_cases hsets : Setting.bidHistoryCap ∈ op.sets
  · cases op with
    | admin op =>
      cases op with
      | setBidHistoryCap admin cap =>
        obtain ⟨w1, -, h⟩ := h.seq
        obtain ⟨hcap, h⟩ := h.check
        obtain rfl := h.update
        exact Nat.one_le_iff_ne_zero.mpr (not_or.mp hcap).1
      | _ => simp [Op.sets, AdminOp.sets] at hsets
    | _ => simp [Op.sets] at hsets
  · have hsame : w'.config.bidHistoryCap = w.config.bidHistoryCap := op_setting h hsets
    rw [hsame]
    exact hw

theorem Reachable.configTerms (hreach : Reachable host w) : w.config.SoundTerms :=
  hreach.induction (I := fun w => w.config.SoundTerms) 
    (fun _ _ => ⟨(by decide : (0 : Int) < defaultMinBidIncrement), (by decide : 1 ≤ defaultBidHistoryCap)⟩)
    (fun _ _ _ _ _ h hw => ⟨op_minIncrement h hw.increment, op_bidHistoryCap h hw.cap⟩)
    fun _ _ _ hw => hw

/-- The terms of an auction: its reserve price and its increment are positive. -/
structure Auction.SoundTerms (a : Auction) : Prop where
  reserve : 0 < a.reservePrice
  increment : 0 < a.minIncrement
  cap : 1 ≤ a.bidHistoryCap

theorem Reachable.soundTerms (hreach : Reachable host w) :
    ∀ k a, w.auction k = some a → a.SoundTerms := by
  refine hreach.induction (I := fun w => ∀ k a, w.auction k = some a → a.SoundTerms) ?_ ?_ ?_
  · intro balances collections k a ha
    cases ha
  · intro env op w w' hreach h hw
    have hconfig := hreach.configTerms
    refine op_forall_auction hreach.keyed h (fun k a hnew => ?_) (fun a a' hedit ha => ?_)
      (fun a bidder amount _ ha => ⟨ha.reserve, ha.increment, ha.cap⟩) hw
    · cases hnew with
      | opened creator token collection tokenId reservePrice endTime recipients hreserve =>
        exact ⟨hconfig.increment.trans_le hreserve, hconfig.increment, hconfig.cap⟩
    · cases hedit with
      | reserve reservePrice hbidder hreserve =>
        exact ⟨hconfig.increment.trans_le hreserve, ha.increment, ha.cap⟩
      | close status => exact ⟨ha.reserve, ha.increment, ha.cap⟩
  · intro w collections balances hw
    exact hw

/-! ### Accepted bids -/

/-- A bid that was accepted, with the reserve price then in force. -/
structure AcceptedBid where
  record : BidRecord
  reserve : Int

/-- What a call puts on record about auction `k`: the bid it has accepted. -/
def acceptedBid (k : Nat) (env : Env) : Op → World C → World C → List AcceptedBid
  | .auction (.placeBid bidder j amount), w, _ =>
    if j = k then
      (w.auction k).toList.map fun a => ⟨⟨bidder, amount, env.sequence⟩, a.reservePrice⟩
    else []
  | _, _, _ => []

/-- The bids on auction `k` that a run has accepted, in order. -/
abbrev acceptedBids (host : Host C) (k : Nat) (w : World C) (steps : List (Step C)) :
    List AcceptedBid :=
  record host (acceptedBid k) w steps

/-- The accepted bids of an auction form a ladder, and what is stored is the end of it. -/
structure BidLadder (a : Auction) (bids : List AcceptedBid) (stored : List BidRecord) : Prop where
  /-- there is a highest bidder exactly when there is a bid to speak of -/
  bidder : a.highestBidder.isSome ↔ 0 < a.highestBid
  zero : a.highestBidder = none → a.highestBid = 0
  /-- the first bid reached the reserve price then in force -/
  first : ∀ b ∈ bids.head?, b.reserve ≤ b.record.amount
  /-- each later bid outbids the one before it by a raise -/
  raises : bids.IsChain fun b b' => b.record.amount + a.minIncrement ≤ b'.record.amount
  strangers : ∀ b ∈ bids, b.record.bidder ≠ a.creator
  /-- the last bid stands -/
  standing : bids.getLast?.map (fun b => (b.record.bidder, b.record.amount)) =
    a.highestBidder.map (·, a.highestBid)
  /-- the history is the end of the ladder, as long as the cap allows -/
  history : stored = (bids.map AcceptedBid.record).rtake (min bids.length a.bidHistoryCap)
  latest : stored.getLast?.map (fun r => (r.bidder, r.amount)) = a.highestBidder.map (·, a.highestBid)
  /-- the reserve price is the one every bid has met -/
  reserve : ∀ b ∈ bids, b.reserve = a.reservePrice

/-- A history that holds the last bids holds the last bids after the next one. -/
theorem pushBid_rtake (bids : List BidRecord) (r : BidRecord) (hcap : 1 ≤ cap) :
    pushBid (bids.rtake (min bids.length cap)) r cap =
      (bids ++ [r]).rtake (min (bids.length + 1) cap) := by
  obtain ⟨n, rfl⟩ : ∃ n, cap = n + 1 := ⟨cap - 1, by omega⟩
  rw [show min (bids.length + 1) (n + 1) = min bids.length n + 1 by omega, List.rtake_concat_succ,
    pushBid]
  congr 1
  unfold List.rtake
  rw [List.length_drop]
  split
  · -- the buffer is full
    rw [List.drop_drop]
    congr 1
    omega
  · congr 1
    omega

namespace BidLadder

variable {a a' : Auction} {bids : List AcceptedBid} {stored : List BidRecord}

/-- A new auction has an empty ladder. -/
theorem opened (h : Auction.New config k a) : BidLadder a [] [] := by
  cases h
  exact ⟨by simp [Auction.opened], fun _ => rfl, by simp, .nil, by simp, rfl, rfl, rfl, by simp⟩

/-- Edits leave the ladder alone: the reserve price moves only below the first rung. -/
theorem edit (h : BidLadder a bids stored) (hedit : a.Edit config a') : BidLadder a' bids stored := by
  cases hedit with
  | reserve reservePrice hbidder hreserve =>
    -- without a highest bidder there has been no bid
    have hnone := h.standing
    rw [hbidder, Option.map_none, Option.map_eq_none_iff, List.getLast?_eq_none_iff] at hnone
    subst hnone
    exact ⟨h.bidder, h.zero, h.first, h.raises, h.strangers, h.standing, h.history, h.latest, by simp⟩
  | close status =>
    exact ⟨h.bidder, h.zero, h.first, h.raises, h.strangers, h.standing, h.history, h.latest,
      h.reserve⟩

/-- The last rung is the bid that stands, and it is positive. -/
theorem standing_of_last (h : BidLadder a bids stored) (hb : b ∈ bids.getLast?) :
    b.record.amount = a.highestBid ∧ 0 < a.highestBid := by
  have hlast := h.standing
  rw [hb] at hlast
  obtain ⟨bidder, hbidder, hsame⟩ := Option.map_eq_some_iff.mp hlast.symm
  exact ⟨(congrArg Prod.snd hsame).symm, h.bidder.mp (by simp [hbidder])⟩

/-- A bid that passes the checks is positive. -/
theorem amount_pos (h : BidLadder a bids stored) (hterms : a.SoundTerms)
    (hadmits : a.Admits bidder amount) : 0 < amount := by
  by_cases hzero : a.highestBid = 0
  · exact hterms.reserve.trans_le (hadmits.first hzero)
  · have hsome : a.highestBidder.isSome := by
      rw [Option.isSome_iff_ne_none]
      exact fun hnone => hzero (h.zero hnone)
    have hpositive := h.bidder.mp hsome
    have hraise := hadmits.raise hzero
    have hincrement := hterms.increment
    omega

/-- An accepted bid is the next rung. -/
theorem bid (h : BidLadder a bids stored) (hterms : a.SoundTerms) (hadmits : a.Admits bidder amount) :
    BidLadder (a.withBid bidder amount extension)
      (bids ++ [⟨⟨bidder, amount, ledger⟩, a.reservePrice⟩])
      (pushBid stored ⟨bidder, amount, ledger⟩ a.bidHistoryCap) where
  bidder := by simp [Auction.withBid, h.amount_pos hterms hadmits]
  zero hnone := by cases hnone
  first b hb := by
    cases hbids : bids with
    | nil =>
      rw [hbids] at hb
      obtain rfl : _ = b := Option.some.inj hb
      have hnone : a.highestBidder = none := by
        have hlast := h.standing
        rw [hbids] at hlast
        exact Option.map_eq_none_iff.mp hlast.symm
      exact hadmits.first (h.zero hnone)
    | cons b0 bids' =>
      rw [hbids] at hb
      exact h.first b (by rw [hbids]; exact hb)
  raises := by
    refine h.raises.append (.singleton _) fun b hb b' hb' => ?_
    obtain rfl : _ = b' := Option.some.inj hb'
    obtain ⟨hamount, hpositive⟩ := h.standing_of_last hb
    have hraise := hadmits.raise (by omega)
    show b.record.amount + a.minIncrement ≤ amount
    omega
  strangers b hb := by
    rcases List.mem_append.mp hb with hb | hb
    · exact h.strangers b hb
    · obtain rfl := List.mem_singleton.mp hb
      exact hadmits.bidder_ne
  standing := by
    rw [List.getLast?_concat]
    rfl
  history := by
    rw [h.history, List.map_append, List.length_append, List.length_singleton]
    have hpush := pushBid_rtake (bids.map AcceptedBid.record) ⟨bidder, amount, ledger⟩ hterms.cap
    rw [List.length_map] at hpush
    exact hpush
  latest := by
    rw [pushBid, List.getLast?_concat]
    rfl
  reserve b hb := by
    rcases List.mem_append.mp hb with hb | hb
    · exact h.reserve b hb
    · obtain rfl := List.mem_singleton.mp hb
      rfl

end BidLadder

/-! ### Runs -/

/-- An auction that is open has its ladder; one that is not has no bids. -/
structure Laddered (bids : List AcceptedBid) (stored : List BidRecord) (auction : Option Auction) :
    Prop where
  ladder : ∀ a, auction = some a → BidLadder a bids stored
  unopened : auction = none → bids = [] ∧ stored = []

/-- Opening and editing auctions keeps the ladder of auction `k`. -/
instance :
    Stable (fun r : Register Config Auction =>
      r.Keyed Auction.auctionId ∧ Laddered bids stored (r.get k))
      (Register.Change Auction.New Auction.Edit) where
  step {r r'} hr hchange := by
    obtain ⟨hkeyed, hladdered⟩ := hr
    refine ⟨Stable.step hkeyed hchange, ?_⟩
    cases hchange with
    | enter x hnew =>
      show Laddered bids stored (Function.update r.get (r.count + 1) (some x) k)
      by_cases hk : k = r.count + 1
      · -- the auction is new, so nothing has been bid on it
        have hnone : r.get k = none := by
          by_contra hsome
          obtain ⟨y, hy⟩ := Option.ne_none_iff_exists'.mp hsome
          have hle := hkeyed.le_count hy
          omega
        obtain ⟨rfl, rfl⟩ := hladdered.unopened hnone
        rw [hk, update_self]
        refine ⟨fun a ha => ?_, fun hnone => (by cases hnone)⟩
        obtain rfl := Option.some.inj ha
        exact .opened hnew
      · rw [update_of_ne hk]
        exact hladdered
    | edit n x x' hx hedit =>
      show Laddered bids stored (Function.update r.get n (some x') k)
      by_cases hk : k = n
      · subst hk
        rw [update_self]
        refine ⟨fun a ha => ?_, fun hnone => (by cases hnone)⟩
        obtain rfl := Option.some.inj ha
        exact (hladdered.ladder x hx).edit hedit
      · rw [update_of_ne hk]
        exact hladdered

theorem acceptedBid_eq_nil (hop : ∀ bidder j amount, op ≠ .auction (.placeBid bidder j amount)) :
    acceptedBid k env op w w' = [] := by
  unfold acceptedBid
  split
  · exact absurd rfl (hop _ _ _)
  · rfl

/-- A call keeps the ladder of auction `k`, with the bid it accepts. -/
theorem op_laddered (hreach : Reachable host w) (h : Returns (op.exec host env) w () w')
    (hw : Laddered bids (w.auctionBids k) (w.auction k)) :
    Laddered (bids ++ acceptedBid k env op w w') (w'.auctionBids k) (w'.auction k) := by
  by_cases hop : ∃ bidder j amount, op = .auction (.placeBid bidder j amount)
  · obtain ⟨bidder, j, amount, rfl⟩ := hop
    obtain ⟨a, ha, hadmits, hsaleroom, hbids⟩ := placeBid_saleroom hreach.keyed h
    have hauction : w'.auction = Function.update w.auction j _ := congrArg Register.get hsaleroom
    rw [hbids, hauction]
    by_cases hj : j = k
    · subst hj
      rw [update_self, update_self]
      have hrecord : acceptedBid j env (.auction (.placeBid bidder j amount)) w w' =
          [⟨⟨bidder, amount, env.sequence⟩, a.reservePrice⟩] := by
        simp [acceptedBid, ha]
      rw [hrecord]
      refine ⟨fun a' ha' => ?_, fun hnone => (by cases hnone)⟩
      obtain rfl := Option.some.inj ha'
      exact (hw.ladder a ha).bid (hreach.soundTerms j a ha) hadmits
    · rw [update_of_ne (Ne.symm hj), update_of_ne (Ne.symm hj), acceptedBid,
        if_neg hj, List.append_nil]
      exact hw
  · simp only [not_exists] at hop
    have hoff : Field.auctionBids ∉ op.footprint := by
      rcases op with op | op | op | op | op <;> cases op <;>
        simp [Op.footprint, ListingOp.footprint, AuctionOp.footprint, OfferOp.footprint] at hop ⊢
    have hbids : w'.auctionBids = w.auctionBids := op_frame h hoff
    rw [acceptedBid_eq_nil hop, List.append_nil, hbids]
    exact (Stable.steps (P := fun r : Register Config Auction =>
        r.Keyed Auction.auctionId ∧ Laddered bids (w.auctionBids k) (r.get k))
      ⟨hreach.keyed.saleroom, hw⟩ (op_saleroom hop hreach.keyed h)).2

theorem run_laddered (host : Host C) (balances : Address × Address → Int) (collections : C)
    (steps : List (Step C)) (k : Nat) :
    let w := run host (.fresh balances collections) steps
    Laddered (acceptedBids host k (.fresh balances collections) steps) (w.auctionBids k)
      (w.auction k) := by
  refine run_record (acceptedBid k)
    (I := fun bids w => Laddered bids (w.auctionBids k) (w.auction k))
    (Run.along_of_forall fun _ _ => trivial) ?_ ?_ ?_
  · exact ⟨fun a ha => (by cases ha), fun _ => ⟨rfl, rfl⟩⟩
  · intro bids env op w w' hreach _ h hw
    exact op_laddered hreach h hw
  · intro bids w collections balances hw
    exact hw

/-- **Bid ladder.** In every reachable state the accepted bids of an auction form a ladder of which the
stored bids are the end; and once there is a bid, the reserve price is never changed. -/
theorem bid_ladder (host : Host C) (balances : Address × Address → Int) (collections : C)
    (steps : List (Step C)) (k : Nat) (a : Auction)
    (ha : (run host (.fresh balances collections) steps).auction k = some a) :
    BidLadder a (acceptedBids host k (.fresh balances collections) steps)
        ((run host (.fresh balances collections) steps).auctionBids k) ∧
      ∀ more a', (run host (.fresh balances collections) (steps ++ more)).auction k = some a' →
        acceptedBids host k (.fresh balances collections) steps ≠ [] →
        a'.reservePrice = a.reservePrice := by
  have hladder := (run_laddered host balances collections steps k).ladder a ha
  refine ⟨hladder, fun more a' ha' hbids => ?_⟩
  obtain ⟨b, hb⟩ := List.exists_mem_of_ne_nil _ hbids
  have hladder' := (run_laddered host balances collections (steps ++ more) k).ladder a' ha'
  -- the bid is on record in both states, with the reserve price it has met
  have hb' : b ∈ acceptedBids host k (.fresh balances collections) (steps ++ more) := by
    rw [acceptedBids, record, Run.transcript_append]
    exact List.mem_append_left _ hb
  rw [← hladder'.reserve b hb', hladder.reserve b hb]

/-- Three bids on an auction whose history holds two. -/
def threeBids : List (Step Unit) :=
  [.call (.signedBy ⟨1⟩ 100) (.admin (.setAdmin ⟨1⟩)),
    .call (.signedBy ⟨1⟩ 110) (.admin (.setBidHistoryCap ⟨1⟩ 2)),
    .call (.signedBy ⟨10⟩ 200) (.auction (.createAuction ⟨10⟩ ⟨50⟩ ⟨60⟩ 7 1000000 3600
      [⟨⟨10⟩, 10000⟩])),
    .call (.signedBy ⟨20⟩ 300) (.auction (.placeBid ⟨20⟩ 1 1000000)),
    .call (.signedBy ⟨21⟩ 400) (.auction (.placeBid ⟨21⟩ 1 2000000)),
    .call (.signedBy ⟨20⟩ 500) (.auction (.placeBid ⟨20⟩ 1 3500000))]

theorem bid_ladder_threeBids :
    let host := Host.accepting ⟨0⟩ ⟨10⟩
    let w := run host (.fresh (fundedBidders ⟨0⟩) ()) threeBids
    let bids := acceptedBids host 1 (.fresh (fundedBidders ⟨0⟩) ()) threeBids
    ∃ a, w.auction 1 = some a ∧ BidLadder a bids (w.auctionBids 1) ∧
      bids.map (·.record.amount) = [1000000, 2000000, 3500000] ∧
      (w.auctionBids 1).map BidRecord.amount = [2000000, 3500000] := by
  have hopen : ((run (.accepting ⟨0⟩ ⟨10⟩) (.fresh (fundedBidders ⟨0⟩) ()) threeBids).auction
      1).isSome := by decide +kernel
  obtain ⟨a, ha⟩ := Option.isSome_iff_exists.mp hopen
  have hladder := (bid_ladder (.accepting ⟨0⟩ ⟨10⟩) (fundedBidders ⟨0⟩) () threeBids 1 a ha).1
  exact ⟨a, ha, hladder, by decide +kernel, by decide +kernel⟩

end ElcareHub.Marketplace
