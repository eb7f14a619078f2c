import ElcareHub.Marketplace.Refine.Steps

/-!
# What a purse still holds

The difference between what was deposited on account of a purse and what was paid out on account of
it. The moves change it in few ways: a deposit, a payment, and the refund of a listing's offers.
-/

namespace ElcareHub.Marketplace

namespace Book

variable {ids : List Nat} {k : Nat} {t : Address}

/-- What the contract still holds on account of `p`; negative when it has paid out more than was
deposited. -/
def inPurse (b : Book) (p : Purse) : Int := b.deposited p - b.paidOut p

variable {b : Book} {p q : Purse} {x : Int}

theorem deposited_deposit :
    (b.deposit q x).deposited p = b.deposited p + if p = q then x else 0 := by
  simp only [deposit, Function.update_apply]
  split
  · rename_i hp
    rw [hp]
  · rw [Int.add_zero]

theorem paidOut_pay : (b.pay q x).paidOut p = b.paidOut p + if p = q then x else 0 := by
  simp only [pay, Function.update_apply]
  split
  · rename_i hp
    rw [hp]
  · rw [Int.add_zero]

theorem inPurse_deposit :
    (b.deposit q x).inPurse p = b.inPurse p + if p = q then x else 0 := by
  unfold inPurse
  rw [deposited_deposit]
  change b.deposited p + _ - b.paidOut p = _
  omega

theorem inPurse_pay : (b.pay q x).inPurse p = b.inPurse p - if p = q then x else 0 := by
  unfold inPurse
  rw [paidOut_pay]
  change b.deposited p - _ = _
  omega

/-- What is deposited on another account does not matter. -/
theorem inPurse_deposit_other (hp : p ≠ q) : (b.deposit q x).inPurse p = b.inPurse p := by
  rw [inPurse_deposit, if_neg hp, Int.add_zero]

/-- Nor does what is paid out on another account. -/
theorem inPurse_pay_other (hp : p ≠ q) : (b.pay q x).inPurse p = b.inPurse p := by
  rw [inPurse_pay, if_neg hp, Int.sub_zero]

theorem inPurse_refundAll : (b.refundAll ids).inPurse p = b.inPurse p - b.refund ids p := by
  simp only [inPurse, refundAll]
  omega

theorem inPurse_refundPending :
    (b.refundPending k).inPurse p = b.inPurse p - b.refund (b.pendingOffers k) p := by
  change (b.refundAll (b.pendingOffers k)).inPurse p = _
  exact inPurse_refundAll

theorem inPurse_setEscrow : (b.setEscrow asset r).inPurse p = b.inPurse p := rfl

theorem inPurse_closeListing {active : ActiveIndex} :
    (b.closeListing k l active).inPurse p = b.inPurse p := rfl

/-- Refunds of offers are paid out of the purses of the offers. -/
theorem refund_auction : b.refund ids ⟨.auction k, t⟩ = 0 := rfl

end Book

/-- A payment on the exit of a listing does not touch the purse of an auction. -/
theorem Payment.inPurse_auction (h : Payment k b b1) :
    b1.inPurse ⟨.auction j, t⟩ = b.inPurse ⟨.auction j, t⟩ := by
  cases h with
  | nothing => rfl
  | sale token price => simp [Book.inPurse_pay, Book.inPurse_deposit]
  | offer i o _ _ _ =>
    rfl
  | counter i o _ _ _ _ =>
    rfl

end ElcareHub.Marketplace
