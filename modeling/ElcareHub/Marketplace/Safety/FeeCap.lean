import ElcareHub.Marketplace.Refine.Saleroom
import ElcareHub.Marketplace.Refine.Steps
import ElcareHub.Marketplace.Safety.Governance

/-!
# The protocol fee stays under its cap

`set_protocol_fee` refuses a fee of more than 1000 basis points. The fee has one other writer: an
executed proposal of type `FeeIncrease` writes its payload, which `execute_governance_action` bounds
by 10000 instead. Along every run that executes no such proposal with a payload above 1000, the fee
that is stored, and the fee every listing and auction has taken from it, are at most 1000
(`protocol_fee_capped`).
-/

namespace ElcareHub.Marketplace

open Call

variable {C : Type} {host : Host C} {env : Env} {w w' : World C}

/-- The cap of `set_protocol_fee`, in basis points. -/
def feeCap : Nat := 1000

/-- The fee is stored by `set_protocol_fee`, or by the execution of a proposal. -/
theorem op_protocolFee {op : Op} (htidy : w.config.Tidy) (h : Returns (op.exec host env) w () w') :
    w'.config.protocolFeeBps = w.config.protocolFeeBps ∨
      (∃ bps ≤ feeCap, w'.config.protocolFeeBps = some bps) ∨
      ∃ executor id p bps, op = .admin (.executeGovernanceAction executor id) ∧
        w.config.governanceProposal id = some p ∧ p.proposalType = .feeIncrease ∧
        p.payloadU32 = some bps ∧ w'.config.protocolFeeBps = some bps := by
  by_cases hsets : Setting.protocolFee ∈ op.sets
  · cases op with
    | admin op =>
      cases op with
      | setProtocolFee admin bps =>
        obtain ⟨_, w1, hrole, h⟩ := h.bind
        obtain ⟨hcap, h⟩ := h.check
        obtain rfl := h.update
        exact .inr (.inl ⟨bps, Nat.not_lt.mp hcap, rfl⟩)
      | executeGovernanceAction executor id =>
        obtain ⟨p, hp, -, -, -, -, hpayload, -⟩ := executeGovernanceAction_spec htidy h
        unfold GovernanceProposal.WritesPayload at hpayload
        split at hpayload
        · obtain ⟨_, -, -, hsame, -⟩ := hpayload
          exact .inl hsame
        · rename_i htype
          obtain ⟨bps, hbps, -, hwrites, -, -⟩ := hpayload
          exact .inr (.inr ⟨executor, id, p, bps, rfl, hp, htype, hbps, hwrites⟩)
        · obtain ⟨_, -, -, -, hsame⟩ := hpayload
          exact .inl hsame
      | _ => simp [Op.sets, AdminOp.sets] at hsets
    | _ => simp [Op.sets] at hsets
  · exact .inl (op_setting h hsets)

/-- The fee that is stored, and the fees taken from it, are under the cap. -/
structure World.FeeCapped (w : World C) : Prop where
  stored : ∀ bps, w.config.protocolFeeBps = some bps → bps ≤ feeCap
  listing : ∀ k l, w.listing k = some l → l.protocolFeeBps ≤ feeCap
  auction : ∀ k a, w.auction k = some a → a.protocolFeeBps ≤ feeCap

/-- What a new listing or auction takes as its fee is under the cap. -/
theorem World.FeeCapped.getD_le (h : w.FeeCapped) : w.config.protocolFeeBps.getD 0 ≤ feeCap := by
  cases hfee : w.config.protocolFeeBps with
  | none => exact Nat.zero_le _
  | some bps => exact h.stored bps hfee

/-- The step does not execute a fee proposal whose payload is above the cap. -/
def ProposesWithinCap (w : World C) (s : Step C) : Prop :=
  ∀ env executor id p bps, s = .call env (.admin (.executeGovernanceAction executor id)) →
    w.config.governanceProposal id = some p → p.proposalType = .feeIncrease →
    p.payloadU32 = some bps → bps ≤ feeCap

theorem op_feeCapped (hreach : Reachable host w)
    (hcondition : ProposesWithinCap w (.call env op)) (h : Returns (op.exec host env) w () w')
    (hw : w.FeeCapped) : w'.FeeCapped where
  stored bps hbps := by
    obtain ⟨acts, hgoverned⟩ := hreach.governedBy
    rcases op_protocolFee hgoverned.tidy h with
      hsame | ⟨b, hle, hb⟩ | ⟨executor, id, p, b, rfl, hp, htype, hpayload, hb⟩
    · exact hw.stored bps (hsame ▸ hbps)
    · rw [← Option.mem_unique hb hbps]
      exact hle
    · rw [← Option.mem_unique hb hbps]
      exact hcondition env executor id p b rfl hp htype hpayload
  listing := by
    refine op_forall_listing hreach.keyed h (fun k l hnew => ?_) (fun l l' hedit hl => ?_) hw.listing
    · cases hnew
      exact hw.getD_le
    · rw [hedit.sameOrigin.protocolFeeBps]
      exact hl
  auction := by
    refine op_forall_auction hreach.keyed h (fun k a hnew => ?_) (fun a a' hedit ha => ?_)
      (fun a bidder amount _ ha => ha) hw.auction
    · cases hnew
      exact hw.getD_le
    · cases hedit <;> exact ha

/-- **Fee cap.** Along every run that executes no fee proposal above the cap, the stored fee and the
fee of every listing and auction are at most 1000 basis points. -/
theorem protocol_fee_capped (host : Host C) (balances : Address × Address → Int) (collections : C)
    (steps : List (Step C))
    (hrun : Run.Along (step host) ProposesWithinCap (.fresh balances collections) steps) :
    (run host (.fresh balances collections) steps).FeeCapped := by
  refine run_calls hrun ⟨?_, ?_, ?_⟩ ?_ ?_
  · intro bps h
    cases h
  · intro k l h
    cases h
  · intro k a h
    cases h
  · intro env op w w' hreach hcondition h hw
    exact op_feeCapped hreach hcondition h hw
  · intro w collections balances hw
    exact ⟨hw.stored, hw.listing, hw.auction⟩

/-- The administrator proposes the fee `bps`, the only signer approves it, and it is executed. -/
def feeByProposal (bps : Nat) : List (Step Unit) :=
  appointed ++
    [.call (.signedBy ⟨1⟩ 200) (.admin (.proposeGovernanceAction ⟨1⟩ .feeIncrease [⟨2⟩] 1 900 none
        (some bps) none)),
      .call (.signedBy ⟨2⟩ 300) (.admin (.approveGovernanceAction ⟨2⟩ 1)),
      .call (.signedBy ⟨2⟩ 400) (.admin (.executeGovernanceAction ⟨2⟩ 1)),
      .call (.signedBy ⟨10⟩ 500) (.listing (.createListing ⟨10⟩
        ⟨1000000, "XLM", ⟨50⟩, ⟨60⟩, 7, 1, [⟨⟨10⟩, 10000⟩], none⟩))]

/-- A fee of five percent that is proposed, approved and executed is the fee of the next listing. -/
theorem protocol_fee_capped_byProposal :
    let w := run (.accepting ⟨0⟩ ⟨10⟩) (.fresh (fundedBidders ⟨0⟩) ()) (feeByProposal 500)
    w.FeeCapped ∧ w.config.protocolFeeBps = some 500 ∧
      (w.listing 1).map Listing.protocolFeeBps = some 500 := by
  refine ⟨protocol_fee_capped _ _ _ _ ?_, by decide +kernel, by decide +kernel⟩
  simp only [feeByProposal, appointed, List.cons_append, List.nil_append, Run.along_cons,
    Run.along_nil, ProposesWithinCap, Step.call.injEq, Op.admin.injEq, reduceCtorEq, and_false,
    AdminOp.executeGovernanceAction.injEq, false_implies, implies_true, true_and, and_true]
  rintro _ _ _ p bps ⟨rfl, rfl, rfl⟩ hp - hbps
  -- the only proposal that is executed, as it stands before the execution
  let before := run (.accepting ⟨0⟩ ⟨10⟩) (.fresh (fundedBidders ⟨0⟩) ()) ((feeByProposal 500).take 3)
  have hpayload : (before.config.governanceProposal 1).bind GovernanceProposal.payloadU32 =
      some 500 := by decide +kernel
  change before.config.governanceProposal 1 = some p at hp
  rw [hp] at hpayload
  obtain rfl : bps = 500 := Option.mem_unique hbps hpayload
  decide

/-- A fee of fifty percent can be proposed, approved and executed as well: it is stored, and the next
listing takes it. -/
theorem protocol_fee_half_byProposal :
    let w := run (.accepting ⟨0⟩ ⟨10⟩) (.fresh (fundedBidders ⟨0⟩) ()) (feeByProposal 5000)
    ¬ w.FeeCapped ∧ w.config.protocolFeeBps = some 5000 ∧
      (w.listing 1).map Listing.protocolFeeBps = some 5000 := by
  intro w
  have hstored : w.config.protocolFeeBps = some 5000 := by decide +kernel
  refine ⟨fun h => ?_, hstored, by decide +kernel⟩
  have hle := h.stored 5000 hstored
  exact absurd hle (by decide)

end ElcareHub.Marketplace
