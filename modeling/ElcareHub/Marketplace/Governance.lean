import ElcareHub.Marketplace.Escrow

/-!
# Governance quorum

The multi-approval proposals of `contract.rs`: propose, approve, execute, cancel.
-/

namespace ElcareHub.Marketplace

open Call

variable {C : Type} (env : Env)

/-- The role that owns a proposal type. -/
def GovernanceProposalType.role : GovernanceProposalType → RoleType
  | .globalPause => .emergencyPause
  | _ => .protocolConfig

abbrev saveGovernanceProposal (proposal : GovernanceProposal) : Tx C Unit :=
  modifyConfig fun c =>
    { c with
      governanceProposal :=
        Function.update c.governanceProposal proposal.proposalId (some proposal) }

abbrev proposeGovernanceAction (proposer : Address) (proposalType : GovernanceProposalType)
    (signers : List Address) (threshold expiresAt : Nat) (payloadAddress : Option Address)
    (payloadU32 : Option Nat) (payloadBool : Option Bool) : Tx C Nat := do
  requireRole env proposer proposalType.role
  failIf (signers = [] ∨ threshold = 0 ∨ threshold > signers.length) .invalidSplit
  failIf (expiresAt ≤ env.timestamp) .governanceProposalExpired
  let count ← view fun w => w.config.governanceProposalCount
  let proposalId ← addU64 count 1
  modifyConfig fun c => { c with governanceProposalCount := proposalId }
  saveGovernanceProposal
    { proposalId, proposalType, proposedBy := proposer, signers, threshold, expiresAt,
      createdAt := env.sequence, executed := false, cancelled := false, payloadAddress, payloadU32,
      payloadBool }
  emit (.governanceProposed proposalId proposalType proposer threshold expiresAt env.sequence)
  pure proposalId

/-- The stored proposal, neither executed nor cancelled: the checks the other three entry points
share. -/
abbrev requireLiveProposal (proposalId : Nat) : Tx C GovernanceProposal := do
  let stored ← view fun w => w.config.governanceProposal proposalId
  let proposal ← orFail stored .governanceProposalNotFound
  failIf (proposal.executed = true) .governanceProposalAlreadyExecuted
  failIf (proposal.cancelled = true) .governanceProposalCancelled
  pure proposal

abbrev approveGovernanceAction (approver : Address) (proposalId : Nat) : Tx C Unit := do
  requireAuth env approver
  let proposal ← requireLiveProposal proposalId
  failIf (env.timestamp > proposal.expiresAt) .governanceProposalExpired
  failIf (approver ∉ proposal.signers) .governanceSignerNotAuthorized
  let approvals ← view fun w => w.config.governanceApprovals proposalId
  failIf (approver ∈ approvals) .governanceAlreadyApproved
  modifyConfig fun c =>
    { c with
      governanceApprovals :=
        Function.update c.governanceApprovals proposalId (approvals ++ [approver]) }
  emit (.governanceApproved proposalId approver (approvals.length + 1) proposal.threshold
    env.sequence)

/-- The action of an approved proposal. -/
def applyGovernanceAction (proposal : GovernanceProposal) : Tx C Unit :=
  match proposal.proposalType with
  | .treasuryRotation => do
    let treasury ← orFail proposal.payloadAddress .unauthorized
    modifyConfig fun c => { c with treasury := some treasury }
  | .feeIncrease => do
    let bps ← orFail proposal.payloadU32 .unauthorized
    failIf (bps > 10000) .invalidSplit
    modifyConfig fun c => { c with protocolFeeBps := some bps }
  | .globalPause => do
    let pause ← orFail proposal.payloadBool .unauthorized
    modifyConfig fun c => { c with isPaused := pause }

abbrev executeGovernanceAction (executor : Address) (proposalId : Nat) : Tx C Unit := do
  requireAuth env executor
  let proposal ← requireLiveProposal proposalId
  failIf (env.timestamp > proposal.expiresAt) .governanceProposalExpired
  let approvals ← view fun w => w.config.governanceApprovals proposalId
  failIf (approvals.length < proposal.threshold) .governanceThresholdNotMet
  saveGovernanceProposal { proposal with executed := true }
  applyGovernanceAction proposal
  emit (.governanceExecuted proposalId proposal.proposalType executor env.sequence)

/-- `cancel_governance_action`: by the proposer or the holder of the owning role. -/
abbrev cancelGovernanceAction (canceller : Address) (proposalId : Nat) : Tx C Unit := do
  requireAuth env canceller
  let proposal ← requireLiveProposal proposalId
  when (canceller ≠ proposal.proposedBy) do
    let holder ← getRole proposal.proposalType.role
    failIf (canceller ≠ holder) .unauthorized
  saveGovernanceProposal { proposal with cancelled := true }
  emit (.governanceCancelled proposalId canceller env.sequence)

end ElcareHub.Marketplace
