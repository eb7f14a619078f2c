import ElcareHub.Marketplace.Refine.Saleroom
import ElcareHub.Marketplace.Refine.Steps

/-!
# Anti-sniping extensions

A bid that comes less than `extension_trigger` before the end of an auction moves the end to
`extension_window` after the bid. Nothing relates the two settings: where the window is shorter than the
time that is left, the end moves to an earlier time.

The caps on the extensions hold in every run. The end of an auction never moves back in a run whose bids
are all timely (`Auction.Timely`), and a single bid moves it back exactly when it is not.
-/

namespace ElcareHub.Marketplace

open Call

variable {C : Type} {host : Host C} {env : Env} {w w' : World C} {a : Auction}

/-- A bid at `now` does not move the end back: it comes before the trigger, at most a window before the
end, or extensions are switched off, used up or would exceed the longest duration. -/
def Auction.Timely (a : Auction) (now : Nat) : Prop :=
  a.extensionTrigger ≤ a.endTime - now ∨ a.endTime ≤ now + a.extensionWindow ∨ a.extensionWindow = 0 ∨
    (0 < a.maxExtensions ∧ a.maxExtensions ≤ a.extensionCount) ∨
    saturatingAddU64 a.originalEndTime maxTotalAuctionDuration < now + a.extensionWindow

/-- The extensions of an auction are within its caps. -/
structure Auction.Capped (a : Auction) : Prop where
  endTime : a.endTime ≤ a.originalEndTime + maxTotalAuctionDuration
  count : 0 < a.maxExtensions → a.extensionCount ≤ a.maxExtensions

/-- What an extension is. -/
theorem bidExtension_eq_some (h : bidExtension env a = some (endTime, count)) :
    a.endTime - env.timestamp < a.extensionTrigger ∧ a.extensionWindow ≠ 0 ∧
      ¬ (0 < a.maxExtensions ∧ a.maxExtensions ≤ a.extensionCount) ∧
      endTime = (if env.timestamp + a.extensionWindow ≤ u64Max then env.timestamp + a.extensionWindow
        else a.endTime) ∧
      endTime ≤ saturatingAddU64 a.originalEndTime maxTotalAuctionDuration ∧
      count = saturatingAddU32 a.extensionCount 1 := by
  simp only [bidExtension, Option.ite_none_right_eq_some, Option.ite_none_left_eq_some, Option.some.injEq,
    Prod.mk.injEq] at h
  obtain ⟨⟨-, htrigger⟩, hcount, hwindow, hallowed, hend, hnext⟩ := h
  exact ⟨htrigger, hwindow, hcount, hend.symm, hend ▸ hallowed, hnext.symm⟩

theorem Auction.Capped.bid (h : a.Capped) :
    (a.withBid bidder amount (bidExtension env a)).Capped := by
  cases hextension : bidExtension env a with
  | none => exact ⟨h.endTime, h.count⟩
  | some extension =>
    obtain ⟨-, -, hcount, -, hallowed, hnext⟩ := bidExtension_eq_some hextension
    refine ⟨hallowed.trans (Nat.min_le_left ..), fun hmax => ?_⟩
    have hle : extension.2 ≤ a.extensionCount + 1 := hnext ▸ Nat.min_le_left ..
    change extension.2 ≤ a.maxExtensions
    change 0 < a.maxExtensions at hmax
    omega

/-- **One bid.** The end of the auction moves back exactly when the bid is not timely. -/
theorem Auction.le_endTime_withBid_iff (a : Auction) (bidder : Address) (amount : Int) :
    a.endTime ≤ (a.withBid bidder amount (bidExtension env a)).endTime ↔ a.Timely env.timestamp := by
  cases hextension : bidExtension env a with
  | none =>
    refine ⟨fun _ => ?_, fun _ => le_rfl⟩
    by_contra htimely
    simp only [Auction.Timely, not_or, Nat.not_le, Nat.not_lt] at htimely
    obtain ⟨htrigger, -, hwindow, hcount, hallowed⟩ := htimely
    have hsum : env.timestamp + a.extensionWindow ≤ u64Max := hallowed.trans (Nat.min_le_right ..)
    have hpos : a.extensionTrigger > 0 := by omega
    rw [bidExtension, if_pos ⟨hpos, htrigger⟩, if_neg hcount, if_neg hwindow] at hextension
    simp only [if_pos hsum, if_pos hallowed] at hextension
    cases hextension
  | some extension =>
    obtain ⟨htrigger, hwindow, hcount, hend, hallowed, -⟩ := bidExtension_eq_some hextension
    change a.endTime ≤ extension.1 ↔ _
    have hcap : saturatingAddU64 a.originalEndTime maxTotalAuctionDuration ≤ u64Max := Nat.min_le_right ..
    by_cases hsum : env.timestamp + a.extensionWindow ≤ u64Max
    · rw [if_pos hsum] at hend
      simp only [Auction.Timely]
      omega
    · rw [if_neg hsum] at hend
      exact ⟨fun _ => .inr (.inr (.inr (.inr (by omega)))), fun _ => hend.ge⟩

/-! ### Runs -/

theorem Reachable.capped (hreach : Reachable host w) : ∀ k a, w.auction k = some a → a.Capped := by
  refine hreach.induction (I := fun w => ∀ k a, w.auction k = some a → a.Capped) (fun _ _ _ _ ha => nomatch ha)
    ?_ fun _ _ _ hw => hw
  intro env op w w' hreach h hw
  refine op_forall_auction hreach.keyed h (fun k a hnew => ?_) (fun a a' hedit ha => ?_)
    (fun _ _ _ _ ha => ha.bid) hw
  · cases hnew
    exact ⟨Nat.le_add_right .., fun _ => Nat.zero_le _⟩
  · cases hedit <;> exact ⟨ha.endTime, ha.count⟩

/-- The bid of a step, if it is one, is timely. -/
def Step.Timely (w : World C) : Step C → Prop
  | .call env (.auction (.placeBid _ k _)) => ∀ a, w.auction k = some a → a.Timely env.timestamp
  | _ => True

/-- **Anti-sniping.** In every reachable state the extensions of an auction are within its caps; an accepted
bid does not move its end back if and only if the bid is timely; and in every run that goes on with timely
bids only, the end never moves back. -/
theorem auction_end_extends (host : Host C) (balances : Address × Address → Int) (collections : C)
    (steps : List (Step C)) (k : Nat) (a : Auction)
    (ha : (run host (.fresh balances collections) steps).auction k = some a) :
    let w := run host (.fresh balances collections) steps
    a.endTime ≤ a.originalEndTime + maxTotalAuctionDuration ∧
      (0 < a.maxExtensions → a.extensionCount ≤ a.maxExtensions) ∧
      (∀ env bidder amount w', Returns (placeBid host env bidder k amount) w () w' →
        ∃ a', w'.auction k = some a' ∧ (a.endTime ≤ a'.endTime ↔ a.Timely env.timestamp)) ∧
      ∀ more, Run.Along (step host) Step.Timely w more →
        ∃ a', (run host w more).auction k = some a' ∧ a.endTime ≤ a'.endTime := by
  intro w
  have hreach : Reachable host w := reachable_run host balances collections steps
  have hcapped := hreach.capped k a ha
  refine ⟨hcapped.endTime, hcapped.count, fun env bidder amount w' h => ?_, fun more hmore => ?_⟩
  · obtain ⟨b, hb, -, hsaleroom, -⟩ := placeBid_saleroom hreach.keyed h
    obtain rfl : a = b := Option.mem_unique ha hb
    have hget : w'.auction = Function.update w.auction k _ := congrArg Register.get hsaleroom
    exact ⟨_, hget ▸ Function.update_self .., a.le_endTime_withBid_iff bidder amount⟩
  · refine hreach.along_calls (I := fun w => ∃ a', w.auction k = some a' ∧ a.endTime ≤ a'.endTime) hmore
      ⟨a, ha, le_rfl⟩ ?_ fun _ _ _ hw => hw
    rintro env op w₁ w₂ hreach₁ htimely h ⟨a₁, ha₁, hle⟩
    obtain ⟨a₂, ha₂, hle₂⟩ := op_auction_kept (S := fun a a' => a.endTime ≤ a'.endTime) (fun _ => le_rfl)
      (fun _ _ _ h h' => h.trans h') (fun _ _ _ hedit _ => by cases hedit <;> exact le_rfl) hreach₁.keyed h ha₁
      (by
        rintro bidder amount rfl -
        exact (a₁.le_endTime_withBid_iff bidder amount).mpr (htimely a₁ ha₁))
    exact ⟨a₂, ha₂, hle.trans hle₂⟩

/-- An auction that ends at 3800, with a window of 600 and a trigger. -/
def triggered (trigger : Nat) : List (Step Unit) :=
  [.call (.signedBy ⟨1⟩ 100) (.admin (.setAdmin ⟨1⟩)),
    .call (.signedBy ⟨1⟩ 110) (.admin (.setAuctionExtensionTrigger ⟨1⟩ trigger)),
    .call (.signedBy ⟨10⟩ 200) (.auction (.createAuction ⟨10⟩ ⟨50⟩ ⟨60⟩ 7 1000000 3600
      [⟨⟨10⟩, 10000⟩]))]

def bidAt (now : Nat) : Step Unit := .call (.signedBy ⟨20⟩ now) (.auction (.placeBid ⟨20⟩ 1 1000000))

/-- A bid in the last five minutes extends an auction with a trigger of ten. -/
theorem auction_end_extends_lastMinutes :
    let host := Host.accepting ⟨0⟩ ⟨10⟩
    let w := run host (.fresh (fundedBidders ⟨0⟩) ()) (triggered 600)
    ∃ a, w.auction 1 = some a ∧ a.endTime = 3800 ∧
      ∃ a', (run host w [bidAt 3500]).auction 1 = some a' ∧ a.endTime ≤ a'.endTime := by
  intro host w
  have hopen : (w.auction 1).map (fun a => (a.endTime, a.extensionWindow)) = some (3800, 600) := by
    decide +kernel
  obtain ⟨a, ha, hterms⟩ := Option.map_eq_some_iff.mp hopen
  obtain ⟨hend, hwindow⟩ := Prod.mk.inj hterms
  have hextends : ∀ more, Run.Along (step host) Step.Timely w more →
      ∃ a', (run host w more).auction 1 = some a' ∧ a.endTime ≤ a'.endTime :=
    (auction_end_extends host (fundedBidders ⟨0⟩) () (triggered 600) 1 a ha).2.2.2
  clear_value w
  refine ⟨a, ha, hend, hextends [bidAt 3500] ⟨fun b hb => .inr (.inl ?_), Run.along_nil⟩⟩
  obtain rfl : a = b := Option.mem_unique ha hb
  rw [hend, hwindow]
  decide

/-- With a trigger of an hour, a bid at the start ends the auction ten minutes later. -/
theorem bid_ends_auction_early :
    let host := Host.accepting ⟨0⟩ ⟨10⟩
    let w := run host (.fresh (fundedBidders ⟨0⟩) ()) (triggered 3600)
    let w' := run host w [bidAt 300]
    (w.auction 1).map Auction.endTime = some 3800 ∧ (w'.auction 1).map Auction.endTime = some 900 := by
  decide +kernel

end ElcareHub.Marketplace
