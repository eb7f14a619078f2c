import ElcareHub.Marketplace.Refine.Payout

/-!
# The arithmetic of the split

For a price up to `i128::MAX / 10_000` and shares that add up to at most 10000 basis points, no step of
`distribute` leaves the range of `i128`. Every recipient but the last gets the floor of its share, and the
last one what is left. The floors lose less than one unit each (`shareTotal_bounds`), which bounds what the
last recipient gets above its own floor.
-/

namespace ElcareHub.Marketplace

/-- The highest price `update_listing_price` accepts. -/
def priceCap : Int := i128Max.tdiv 10000

theorem priceCap_mul_le : priceCap * 10000 ≤ i128Max := by decide

theorem checkedI128_of_le (hx : 0 ≤ x) (hmax : x ≤ i128Max) : checkedI128 x = some x :=
  if_pos ⟨hx.trans' (by decide), hmax⟩

/-- A share of `x`, rounded down. -/
def shareOf (x : Int) (bps : Nat) : Int := x * bps / 10000

variable {x price : Int} {bps feeBps : Nat} {rs front : List Recipient} {last : Recipient}

theorem bpsOf_eq_shareOf (hx : 0 ≤ x) (hcap : x ≤ priceCap) (hbps : bps ≤ 10000) :
    bpsOf x bps = some (shareOf x bps) := by
  have hproduct : x * bps ≤ x * 10000 := Int.mul_le_mul_of_nonneg_left (by omega) hx
  have hpositive : 0 ≤ x * bps := Int.mul_nonneg hx (by omega)
  have hmax := priceCap_mul_le
  rw [bpsOf, checkedI128_of_le hpositive (by omega), Option.map_some,
    Int.tdiv_eq_ediv_of_nonneg hpositive, shareOf]

theorem shareOf_nonneg (hx : 0 ≤ x) : 0 ≤ shareOf x bps :=
  Int.ediv_nonneg (Int.mul_nonneg hx (by omega)) (by omega)

/-- A rate of at most 10000 basis points takes a part of the price. -/
theorem bpsOf_of_le_cap (hx : 0 ≤ x) (hcap : x ≤ priceCap) (hbps : bps ≤ 10000) :
    ∃ y, bpsOf x bps = some y ∧ 0 ≤ y ∧ y ≤ x := by
  have hproduct : x * bps ≤ x * 10000 := Int.mul_le_mul_of_nonneg_left (by omega) hx
  refine ⟨_, bpsOf_eq_shareOf hx hcap hbps, shareOf_nonneg hx, ?_⟩
  unfold shareOf
  omega

/-! ### Shares of a list -/

def bpsTotal (rs : List Recipient) : Nat := (rs.map Recipient.percentage).sum

def shareTotal (x : Int) (rs : List Recipient) : Int := (rs.map fun r => shareOf x r.percentage).sum

/-- What the floors lose is less than one unit for every recipient. -/
theorem shareTotal_bounds (x : Int) (rs : List Recipient) :
    10000 * shareTotal x rs ≤ x * bpsTotal rs ∧
      x * bpsTotal rs ≤ 10000 * shareTotal x rs + 9999 * rs.length := by
  induction rs with
  | nil => simp [shareTotal, bpsTotal]
  | cons r rs ih =>
    have hshares : shareTotal x (r :: rs) = shareOf x r.percentage + shareTotal x rs := rfl
    have hbps : x * (bpsTotal (r :: rs) : Int) = x * r.percentage + x * bpsTotal rs := by
      rw [← Int.mul_add]
      norm_cast
    have hfloor : 10000 * shareOf x r.percentage ≤ x * r.percentage ∧
        x * r.percentage ≤ 10000 * shareOf x r.percentage + 9999 := by
      unfold shareOf
      omega
    rw [hshares, hbps, List.length_cons]
    push_cast
    omega

theorem shareTotal_nonneg (hx : 0 ≤ x) : 0 ≤ shareTotal x rs :=
  List.sum_nonneg (by
    intro y hy
    obtain ⟨r, -, rfl⟩ := List.mem_map.mp hy
    exact shareOf_nonneg hx)

theorem shareTotal_le (hx : 0 ≤ x) (hbps : bpsTotal rs ≤ 10000) : shareTotal x rs ≤ x := by
  have hbound := (shareTotal_bounds x rs).1
  have hproduct : x * bpsTotal rs ≤ x * 10000 := Int.mul_le_mul_of_nonneg_left (by omega) hx
  omega

/-- Part of the recipients have part of the shares. -/
theorem bpsTotal_left (h : bpsTotal (front ++ rs) ≤ n) : bpsTotal front ≤ n := by
  simp only [bpsTotal, List.map_append, List.sum_append] at h
  exact Nat.le_of_add_right_le h

theorem percentage_le_bpsTotal (hr : r ∈ rs) : r.percentage ≤ bpsTotal rs :=
  List.single_le_sum (fun _ _ => Nat.zero_le _) _ (List.mem_map_of_mem hr)

/-! ### The loops -/

/-- The payouts: a floor for each recipient, and what is left for the last one. -/
def payoutsOf (remaining : Int) (front : List Recipient) (last : Recipient) : List RecipientPayout :=
  front.map (fun r => ⟨r.address, shareOf remaining r.percentage⟩) ++
    [⟨last.address, remaining - shareTotal remaining front⟩]

/-- The recipient loop, from where `done` have been given their shares. -/
theorem distributeShares_eq (hx : 0 ≤ x) (hcap : x ≤ priceCap) (done front : List Recipient)
    (last : Recipient) (hbps : bpsTotal (done ++ front) ≤ 10000) (slot : Nat) (hslot : slot + front.length < maxRecipients) :
    distributeShares x slot (shareTotal x done) (front ++ [last]) =
      .ok (front.map (fun r => ⟨r.address, shareOf x r.percentage⟩) ++
        [⟨last.address, x - shareTotal x (done ++ front)⟩]) := by
  have hmax := priceCap_mul_le
  induction front generalizing done slot with
  | nil =>
    rw [List.append_nil] at hbps ⊢
    have hle := shareTotal_le hx hbps
    have hpos : 0 ≤ shareTotal x done := shareTotal_nonneg hx
    have hnot : ¬ slot ≥ maxRecipients := by simpa using hslot
    have hrest : checkedI128 (x - shareTotal x done) = some (x - shareTotal x done) :=
      checkedI128_of_le (by omega) (by omega)
    have hsum : checkedI128 x = some x := checkedI128_of_le hx (by omega)
    simp [distributeShares, hrest, hsum, hnot, bind, Except.bind]
  | cons r front ih =>
    have hr : r.percentage ≤ 10000 := (percentage_le_bpsTotal (by simp)).trans hbps
    have hnext : shareTotal x done + shareOf x r.percentage = shareTotal x (done ++ [r]) := by
      simp [shareTotal]
    have hsplit : done ++ r :: front = (done ++ [r]) ++ front := by simp
    rw [hsplit] at hbps ⊢
    have hsum : checkedI128 (shareTotal x (done ++ [r])) = some (shareTotal x (done ++ [r])) := by
      have hle := shareTotal_le hx (bpsTotal_left hbps)
      exact checkedI128_of_le (shareTotal_nonneg hx) (by omega)
    have hnot : ¬ slot ≥ maxRecipients := by
      omega
    have hrest := ih (done ++ [r]) hbps (slot + 1) (by rw [List.length_cons] at hslot; omega)
    simp [distributeShares, bpsOf_eq_shareOf hx hcap hr, hnext, hsum, hnot, hrest, bind, Except.bind]

theorem calcRecipientAmount_eq (hx : 0 ≤ x) (hcap : x ≤ priceCap) (hbps : bps ≤ 10000) :
    calcRecipientAmount x bps = shareOf x bps := by
  unfold calcRecipientAmount
  split
  · rename_i hzero
    rcases hzero with rfl | rfl <;> simp [shareOf]
  · rw [bpsOf_eq_shareOf hx hcap hbps, Option.getD_some]

theorem saturateI128_of_le (hx : 0 ≤ x) (hmax : x ≤ i128Max) : saturateI128 x = x := by
  have hmin : i128Min ≤ 0 := by decide
  unfold saturateI128
  omega

/-- The reported dust is what the floors lose. -/
theorem dustOf_eq (hx : 0 ≤ x) (hcap : x ≤ priceCap) (hbps : bpsTotal rs ≤ 10000) :
    dustOf x rs = x - shareTotal x rs := by
  have hmax := priceCap_mul_le
  have hideal (done rs : List Recipient) (hbps : bpsTotal (done ++ rs) ≤ 10000) :
      rs.foldl (fun acc r => saturateI128 (acc + calcRecipientAmount x r.percentage)) (shareTotal x done) =
        shareTotal x (done ++ rs) := by
    induction rs generalizing done with
    | nil => simp
    | cons r rs ih =>
      have hsplit : done ++ r :: rs = (done ++ [r]) ++ rs := by simp
      have hr : r.percentage ≤ 10000 := (percentage_le_bpsTotal (by simp)).trans hbps
      rw [hsplit] at hbps ⊢
      have hle := shareTotal_le hx (bpsTotal_left hbps)
      have hnext : shareTotal x done + calcRecipientAmount x r.percentage = shareTotal x (done ++ [r]) := by
        rw [calcRecipientAmount_eq hx hcap hr]
        simp [shareTotal]
      rw [List.foldl_cons, hnext, saturateI128_of_le (shareTotal_nonneg hx) (by omega)]
      exact ih (done ++ [r]) hbps
  have hle := shareTotal_le hx hbps
  have hpos : 0 ≤ shareTotal x rs := shareTotal_nonneg hx
  have hfold := hideal [] rs hbps
  simp only [shareTotal, List.map_nil, List.sum_nil] at hfold
  rw [dustOf, hfold]
  change max (saturateI128 (x - shareTotal x rs)) 0 = _
  rw [saturateI128_of_le (by omega) (by omega), max_eq_left (by omega)]

/-! ### The split -/

/-- **The split in closed form.** -/
theorem distribute_eq (hprice : 0 ≤ price) (hcap : price ≤ priceCap) (hfee : feeBps ≤ 10000)
    (hfew : (front ++ [last]).length ≤ maxRecipients) (hbps : bpsTotal (front ++ [last]) ≤ 10000) :
    distribute price feeBps (front ++ [last]) =
      .ok ⟨shareOf price feeBps, payoutsOf (price - shareOf price feeBps) front last,
        price - shareOf price feeBps - shareTotal (price - shareOf price feeBps) (front ++ [last])⟩ := by
  have hmax := priceCap_mul_le
  obtain ⟨y, hy, hpos, hle⟩ := bpsOf_of_le_cap hprice hcap hfee
  obtain rfl := Option.some.inj ((bpsOf_eq_shareOf hprice hcap hfee).symm.trans hy)
  have hrate : (if 0 < feeBps ∧ 0 < price then bpsOf price feeBps else some 0) =
      some (shareOf price feeBps) := by
    split
    · exact hy
    · rename_i hzero
      have hproduct : price * feeBps = 0 := by
        rcases not_and_or.mp hzero with h | h
        · simp [Nat.eq_zero_of_not_pos h]
        · simp [le_antisymm (Int.not_lt.mp h) hprice]
      simp [shareOf, hproduct]
  have hremaining : checkedI128 (price - shareOf price feeBps) = some (price - shareOf price feeBps) :=
    checkedI128_of_le (by omega) (by omega)
  have hshares := distributeShares_eq (by omega : 0 ≤ price - shareOf price feeBps) (by omega)
    [] front last (bpsTotal_left hbps) 0 (by simpa [Nat.succ_le_iff] using hfew)
  have hdust := dustOf_eq (by omega : 0 ≤ price - shareOf price feeBps) (by omega) hbps
  unfold distribute
  simp only [hrate, hremaining, Option.elim_some, bind, Except.bind]
  rw [show (0 : Int) = shareTotal (price - shareOf price feeBps) [] from rfl, hshares]
  simp [payoutsOf, hdust]

/-- **The split.** Within the range of the contract `distribute` returns; fee and payouts add up to the
price, no payout is negative, all but the last are the floors of their shares; and when the shares add up to
10000 basis points, the last payout is its floor and the reported dust, which is less than a unit for each
recipient. -/
theorem distribute_splits (price : Int) (feeBps : Nat) (rs : List Recipient) (hprice : 0 ≤ price)
    (hcap : price ≤ i128Max / 10000) (hfee : feeBps ≤ 10000) (hrs : rs ≠ [])
    (hfew : rs.length ≤ maxRecipients) (hbps : (rs.map Recipient.percentage).sum ≤ 10000) :
    ∃ d, distribute price feeBps rs = .ok d ∧ d.fee + (d.payouts.map RecipientPayout.amount).sum = price ∧
      (∀ p ∈ d.payouts, 0 ≤ p.amount) ∧
      d.payouts.map RecipientPayout.address = rs.map Recipient.address ∧
      d.payouts.dropLast.map RecipientPayout.amount =
        rs.dropLast.map (fun r => (price - d.fee) * r.percentage / 10000) ∧
      ((rs.map Recipient.percentage).sum = 10000 → (d.payouts.getLast?.map RecipientPayout.amount =
          rs.getLast?.map fun r => (price - d.fee) * r.percentage / 10000 + d.dust) ∧
        0 ≤ d.dust ∧ d.dust < rs.length) := by
  obtain ⟨front, last, rfl⟩ := (List.eq_nil_or_concat' rs).resolve_left hrs
  have hcap' : price ≤ priceCap := hcap
  obtain ⟨y, hy, hpos, hle⟩ := bpsOf_of_le_cap hprice hcap' hfee
  obtain rfl := Option.some.inj ((bpsOf_eq_shareOf hprice hcap' hfee).symm.trans hy)
  have heq := distribute_eq hprice hcap' hfee hfew hbps
  have htotal := distribute_total heq
  have hremaining : 0 ≤ price - shareOf price feeBps := by omega
  refine ⟨_, heq, htotal.1, fun p hp => ?_, distribute_addresses heq, ?_, fun hfull => ?_⟩
  · rcases List.mem_append.mp hp with hp | hp
    · obtain ⟨r, -, rfl⟩ := List.mem_map.mp hp
      exact shareOf_nonneg hremaining
    · rw [List.mem_singleton.mp hp]
      exact Int.sub_nonneg.mpr (shareTotal_le hremaining (bpsTotal_left hbps))
  · simp [payoutsOf, shareOf]
  · obtain ⟨hlow, hhigh⟩ := shareTotal_bounds (price - shareOf price feeBps) (front ++ [last])
    have hfull' : bpsTotal (front ++ [last]) = 10000 := hfull
    rw [hfull'] at hlow hhigh
    refine ⟨?_, ?_, ?_⟩
    · simp [payoutsOf, shareTotal, shareOf]
      omega
    · dsimp only
      omega
    · dsimp only
      have hpos : 0 < ((front ++ [last]).length : Int) := by simp
      omega

theorem distribute_splits_thirds :
    ∃ d, distribute 100 0 [⟨⟨1⟩, 3333⟩, ⟨⟨2⟩, 3333⟩, ⟨⟨3⟩, 3334⟩] = .ok d ∧
      d.fee + (d.payouts.map RecipientPayout.amount).sum = 100 := by
  obtain ⟨d, hd, htotal, -⟩ := distribute_splits 100 0 [⟨⟨1⟩, 3333⟩, ⟨⟨2⟩, 3333⟩, ⟨⟨3⟩, 3334⟩] (by decide)
    (by decide) (by decide) (by decide) (by decide) (by decide)
  exact ⟨d, hd, htotal⟩

end ElcareHub.Marketplace
