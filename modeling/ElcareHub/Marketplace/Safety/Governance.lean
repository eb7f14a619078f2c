import ElcareHub.Lib.Quorum
import ElcareHub.Marketplace.Settings
import ElcareHub.Marketplace.Refine.Effects

/-!
# The governance quorum

The proposals of `contract.rs` are motions that pass by quorum: the four governance calls are the acts
of `Quorum.Step`, with the conditions they have there, and no other call touches a proposal or its
approvals. What is known of such motions therefore holds of the proposals after every run: a proposal
is executed at most once and never when it was cancelled, only with the approval of as many different
signers as it asks for, and as it was proposed.

Whether a proposal can ever be executed is another matter. The threshold is compared with the length
of the list of signers, and a list may name a signer twice.
-/

namespace ElcareHub.Marketplace

open Call hiding update
open Function

variable {C : Type} {host : Host C} {env : Env} {w w' : World C} {u : Unit}
variable {acts : List (Quorum.Act Address GovernanceContent)} {id : Nat} {p : GovernanceProposal}
variable {proposer approver : Address} {proposalType : GovernanceProposalType}
  {signers : List Address} {threshold expiresAt : Nat} {payloadAddress : Option Address}
  {payloadU32 : Option Nat} {payloadBool : Option Bool}

/-! ### Proposals as motions -/

/-- What a proposal is to do: its type and its payload. -/
structure GovernanceContent where
  proposalType : GovernanceProposalType
  payloadAddress : Option Address
  payloadU32 : Option Nat
  payloadBool : Option Bool

/-- The terms of a proposal. -/
def GovernanceProposal.motion (p : GovernanceProposal) : Quorum.Motion Address GovernanceContent where
  voters := p.signers
  threshold := p.threshold
  deadline := p.expiresAt
  content := ⟨p.proposalType, p.payloadAddress, p.payloadU32, p.payloadBool⟩

/-- The proposals of a configuration with their approvals. -/
def Config.polls (c : Config) : Quorum.Polls Address GovernanceContent := fun id =>
  (c.governanceProposal id).map fun p => ⟨p.motion, c.governanceApprovals id, p.executed, p.cancelled⟩

/-- The act of a governance call that has returned. -/
def governanceActs (env : Env) (op : Op) (_ w' : World C) :
    List (Quorum.Act Address GovernanceContent) :=
  match op with
  | .admin (.proposeGovernanceAction _ proposalType signers threshold expiresAt payloadAddress
      payloadU32 payloadBool) =>
    [.propose w'.config.governanceProposalCount
      ⟨signers, threshold, expiresAt, ⟨proposalType, payloadAddress, payloadU32, payloadBool⟩⟩]
  | .admin (.approveGovernanceAction approver id) => [.approve id approver env.timestamp]
  | .admin (.executeGovernanceAction _ id) => [.execute id env.timestamp]
  | .admin (.cancelGovernanceAction _ id) => [.cancel id]
  | _ => []

/-- Proposals are stored under their ids, which the counter has given out, and only they have
approvals. -/
structure Config.Tidy (c : Config) : Prop where
  keyed : ∀ {id p}, c.governanceProposal id = some p → p.proposalId = id
  counted : ∀ {id p}, c.governanceProposal id = some p → id ≤ c.governanceProposalCount
  unopened : ∀ {id}, c.governanceProposal id = none → c.governanceApprovals id = []

/-- `c'` is `c` with the proposal `p` and its approvals stored. -/
structure Config.Stores (c c' : Config) (p : GovernanceProposal) (approvals : List Address) :
    Prop where
  count : c'.governanceProposalCount = max c.governanceProposalCount p.proposalId
  proposal : c'.governanceProposal = update c.governanceProposal p.proposalId (some p)
  approvals : c'.governanceApprovals = update c.governanceApprovals p.proposalId approvals

namespace Config

variable {c c' : Config} {approvals : List Address}

theorem polls_eq_some (h : c.governanceProposal id = some p) :
    c.polls id = some ⟨p.motion, c.governanceApprovals id, p.executed, p.cancelled⟩ := by
  rw [polls, h]
  rfl

theorem polls_congr (h : c'.setting .governance = c.setting .governance) : c'.polls = c.polls := by
  have hproposal : c'.governanceProposal = c.governanceProposal := congrArg (·.2.1) h
  have happrovals : c'.governanceApprovals = c.governanceApprovals := congrArg (·.2.2) h
  funext id
  rw [polls, polls, hproposal, happrovals]

theorem Tidy.congr (htidy : c.Tidy) (h : c'.setting .governance = c.setting .governance) :
    c'.Tidy := by
  have hcount : c'.governanceProposalCount = c.governanceProposalCount := congrArg (·.1) h
  have hproposal : c'.governanceProposal = c.governanceProposal := congrArg (·.2.1) h
  have happrovals : c'.governanceApprovals = c.governanceApprovals := congrArg (·.2.2) h
  refine ⟨?_, ?_, ?_⟩
  · rw [hproposal]
    exact htidy.keyed
  · rw [hproposal, hcount]
    exact htidy.counted
  · rw [hproposal, happrovals]
    exact htidy.unopened

theorem Stores.polls (h : c.Stores c' p approvals) : c'.polls = update c.polls p.proposalId
      (some ⟨p.motion, approvals, p.executed, p.cancelled⟩) := by
  funext i
  rw [Config.polls, h.proposal, h.approvals]
  by_cases hi : i = p.proposalId
  · rw [hi, update_self, update_self, update_self]
    rfl
  · rw [update_of_ne hi, update_of_ne hi, update_of_ne hi]
    rfl

theorem Stores.tidy (h : c.Stores c' p approvals) (htidy : c.Tidy) : c'.Tidy := by
  refine ⟨fun {i q} hq => ?_, fun {i q} hq => ?_, fun {i} hi => ?_⟩
  · rw [h.proposal, update_apply] at hq
    split at hq
    · rename_i hi
      cases hq
      exact hi.symm
    · exact htidy.keyed hq
  · rw [h.proposal, update_apply] at hq
    rw [h.count]
    split at hq
    · omega
    · have hle := htidy.counted hq
      omega
  · rw [h.proposal, update_apply] at hi
    split at hi
    · cases hi
    · rename_i hne
      rw [h.approvals, update_of_ne hne]
      exact htidy.unopened hi

/-- The approvals of a proposal that is stored again stay what they are. -/
theorem Stores.of_same (hcount : p.proposalId ≤ c.governanceProposalCount)
    (h : c'.setting .governance = (c.governanceProposalCount,
      update c.governanceProposal p.proposalId (some p), c.governanceApprovals)) :
    c.Stores c' p (c.governanceApprovals p.proposalId) where
  count := by
    rw [Nat.max_eq_left hcount]
    exact congrArg (·.1) h
  proposal := congrArg (·.2.1) h
  approvals := by
    rw [update_eq_self]
    exact congrArg (·.2.2) h

end Config

/-! ### The calls -/

theorem returns_requireLiveProposal
    (h : Returns (requireLiveProposal id : Tx C GovernanceProposal) w p w') :
    w.config.governanceProposal id = some p ∧ p.executed = false ∧ p.cancelled = false ∧ w = w' := by
  obtain ⟨q, hstored, h⟩ := h.found
  obtain ⟨hexecuted, h⟩ := h.check
  obtain ⟨hcancelled, h⟩ := h.check
  obtain ⟨rfl, rfl⟩ := h.pure
  exact ⟨hstored, by simpa using hexecuted, by simpa using hcancelled, rfl⟩

theorem proposeGovernanceAction_spec (htidy : w.config.Tidy) (h : Returns (proposeGovernanceAction env proposer proposalType signers threshold expiresAt
      payloadAddress payloadU32 payloadBool) w id w') :
    threshold ≤ signers.length ∧ env.timestamp < expiresAt ∧
      w.config.governanceProposal id = none ∧ w'.config.governanceProposalCount = id ∧
      w.config.Stores w'.config ⟨id, proposalType, proposer, signers, threshold, expiresAt,
        env.sequence, false, false, payloadAddress, payloadU32, payloadBool⟩ [] := by
  obtain ⟨_, w1, e, h⟩ := h.skip (f := World.config) rfl
  obtain ⟨hsplit, h⟩ := h.check
  obtain ⟨hexpiry, h⟩ := h.check
  replace h := h.view
  obtain ⟨next, w2, hadd, hrest⟩ := h.bind
  obtain ⟨hnext, rfl⟩ := returns_addU64 hadd
  have h := hrest.write
  replace h := h.write
  obtain ⟨_, w5, e5, h⟩ := h.skip (f := World.config) rfl
  obtain ⟨rfl, rfl⟩ := h.pure
  rw [e] at hnext e5
  -- the counter is ahead of every stored proposal
  have hnone : w.config.governanceProposal next = none := by
    cases hp : w.config.governanceProposal next with
    | none => rfl
    | some p =>
      have hle := htidy.counted hp
      omega
  refine ⟨by omega, by omega, hnone, by rw [e5], ?_, by rw [e5], ?_⟩
  · rw [e5]
    show next = max w.config.governanceProposalCount next
    omega
  · rw [e5]
    rw [← htidy.unopened hnone, update_eq_self]

theorem approveGovernanceAction_spec (htidy : w.config.Tidy)
    (h : Returns (approveGovernanceAction env approver id) w u w') :
    ∃ p, w.config.governanceProposal id = some p ∧ p.executed = false ∧ p.cancelled = false ∧
      env.timestamp ≤ p.expiresAt ∧ approver ∈ p.signers ∧
      approver ∉ w.config.governanceApprovals id ∧
      w.config.Stores w'.config p (w.config.governanceApprovals id ++ [approver]) := by
  obtain ⟨_, w1, e, h⟩ := h.skip (f := World.config) rfl
  obtain ⟨p, w2, hlive, h⟩ := h.bind
  obtain ⟨hp, hexecuted, hcancelled, rfl⟩ := returns_requireLiveProposal hlive
  obtain ⟨htime, h⟩ := h.check
  obtain ⟨hsigner, h⟩ := h.check
  replace h := h.view
  obtain ⟨hnew, h⟩ := h.check
  replace h := h.write
  have hconfig := h.last (f := World.config) rfl
  rw [e] at hp hnew hconfig
  obtain rfl := htidy.keyed hp
  refine ⟨p, hp, hexecuted, hcancelled, by omega, by simpa using hsigner, hnew, ?_, ?_, ?_⟩
  · rw [hconfig, Nat.max_eq_left (htidy.counted hp)]
  · rw [hconfig, ← hp, update_eq_self]
  · rw [hconfig]

/-- What executing a proposal writes: the payload, to the setting its type names. -/
def GovernanceProposal.WritesPayload (p : GovernanceProposal) (c c' : Config) : Prop :=
  match p.proposalType with
  | .treasuryRotation => ∃ treasury, p.payloadAddress = some treasury ∧
      c'.treasury = some treasury ∧ c'.protocolFeeBps = c.protocolFeeBps ∧ c'.isPaused = c.isPaused
  | .feeIncrease => ∃ bps, p.payloadU32 = some bps ∧ bps ≤ 10000 ∧
      c'.protocolFeeBps = some bps ∧ c'.treasury = c.treasury ∧ c'.isPaused = c.isPaused
  | .globalPause => ∃ pause, p.payloadBool = some pause ∧
      c'.isPaused = pause ∧ c'.treasury = c.treasury ∧ c'.protocolFeeBps = c.protocolFeeBps

theorem applyGovernanceAction_config (h : Returns (applyGovernanceAction p : Tx C Unit) w u w') :
    p.WritesPayload w.config w'.config ∧
      w'.config.setting .governance = w.config.setting .governance := by
  have hsets : Sets [.treasury, .protocolFee, .paused] (applyGovernanceAction p : Tx C Unit) :=
    inferInstance
  refine ⟨?_, hsets.get_eq h (by decide)⟩
  unfold applyGovernanceAction at h
  cases htype : p.proposalType with
  | treasuryRotation =>
    simp only [htype] at h
    obtain ⟨treasury, hpayload, h⟩ := h.found
    obtain rfl := h.update
    simp [GovernanceProposal.WritesPayload, htype, hpayload]
  | feeIncrease =>
    simp only [htype] at h
    obtain ⟨bps, hpayload, h⟩ := h.found
    obtain ⟨hcap, h⟩ := h.check
    obtain rfl := h.update
    simpa [GovernanceProposal.WritesPayload, htype, hpayload] using hcap
  | globalPause =>
    simp only [htype] at h
    obtain ⟨pause, hpayload, h⟩ := h.found
    obtain rfl := h.update
    simp [GovernanceProposal.WritesPayload, htype, hpayload]

theorem executeGovernanceAction_spec (htidy : w.config.Tidy)
    (h : Returns (executeGovernanceAction env executor id) w u w') :
    ∃ p, w.config.governanceProposal id = some p ∧ p.executed = false ∧ p.cancelled = false ∧
      env.timestamp ≤ p.expiresAt ∧ p.threshold ≤ (w.config.governanceApprovals id).length ∧
      p.WritesPayload w.config w'.config ∧
      w.config.Stores w'.config { p with executed := true } (w.config.governanceApprovals id) := by
  obtain ⟨_, w1, e, h⟩ := h.skip (f := World.config) rfl
  obtain ⟨p, w2, hlive, h⟩ := h.bind
  obtain ⟨hp, hexecuted, hcancelled, rfl⟩ := returns_requireLiveProposal hlive
  obtain ⟨htime, h⟩ := h.check
  replace h := h.view
  obtain ⟨hquorum, h⟩ := h.check
  replace h := h.write
  obtain ⟨w3, happly, h⟩ := h.seq
  obtain ⟨hpayload, hgovernance⟩ := applyGovernanceAction_config happly
  rw [← Preserves.eq (f := World.config) h] at hpayload hgovernance
  rw [← e] at htidy ⊢
  obtain rfl := htidy.keyed hp
  exact ⟨p, hp, hexecuted, hcancelled, by omega, by omega, hpayload,
    .of_same (htidy.counted hp) hgovernance⟩

theorem cancelGovernanceAction_spec (htidy : w.config.Tidy)
    (h : Returns (cancelGovernanceAction env canceller id) w u w') :
    ∃ p, w.config.governanceProposal id = some p ∧ p.executed = false ∧ p.cancelled = false ∧
      w.config.Stores w'.config { p with cancelled := true } (w.config.governanceApprovals id) := by
  obtain ⟨_, w1, e, h⟩ := h.skip (f := World.config) rfl
  obtain ⟨p, w2, hlive, h⟩ := h.bind
  obtain ⟨hp, hexecuted, hcancelled, rfl⟩ := returns_requireLiveProposal hlive
  obtain ⟨_, w2, e2, h⟩ := h.skip e
  replace h := h.write
  have hconfig := h.last (f := World.config) rfl
  rw [e2] at hconfig
  rw [e] at hp
  obtain rfl := htidy.keyed hp
  exact ⟨p, hp, hexecuted, hcancelled, .of_same (htidy.counted hp) (by rw [hconfig]; rfl)⟩

/-! ### Refinement -/

/-- The acts on record are a history of the proposals and approvals that are stored. -/
structure GovernedBy (acts : List (Quorum.Act Address GovernanceContent)) (w : World C) : Prop where
  tidy : w.config.Tidy
  history : Quorum.History acts w.config.polls

/-- **Refinement.** Every call that returns makes the act it is recorded for, and nothing else touches
a proposal. -/
theorem GovernedBy.op {op : Op} (hw : GovernedBy acts w) (h : Returns (op.exec host env) w () w') :
    GovernedBy (acts ++ governanceActs env op w w') w' := by
  by_cases hop : Setting.governance ∈ op.sets
  · rcases op with op | op | op | op | op <;> try exact absurd hop List.not_mem_nil
    cases op <;> simp only [Op.sets, AdminOp.sets, List.mem_cons, List.not_mem_nil, reduceCtorEq,
      or_false] at hop
    case admin.proposeGovernanceAction =>
      obtain ⟨id, h⟩ := h.discard
      obtain ⟨-, -, hnone, hcount, hstores⟩ := proposeGovernanceAction_spec hw.tidy h
      refine ⟨hstores.tidy hw.tidy, hw.history.snoc ?_⟩
      rw [hstores.polls, hcount]
      exact .propose _ (by simp [Config.polls, hnone])
    case admin.approveGovernanceAction approver id =>
      obtain ⟨p, hp, hexecuted, hcancelled, htime, hsigner, hnew, hstores⟩ :=
        approveGovernanceAction_spec hw.tidy h
      refine ⟨hstores.tidy hw.tidy, hw.history.snoc ?_⟩
      rw [hstores.polls, hw.tidy.keyed hp]
      exact .approve approver env.timestamp (Config.polls_eq_some hp) ⟨hexecuted, hcancelled⟩ htime
        hsigner hnew
    case admin.executeGovernanceAction executor id =>
      obtain ⟨p, hp, hexecuted, hcancelled, htime, hquorum, -, hstores⟩ :=
        executeGovernanceAction_spec hw.tidy h
      refine ⟨hstores.tidy hw.tidy, hw.history.snoc ?_⟩
      rw [hstores.polls, show p.proposalId = id from hw.tidy.keyed hp]
      exact .execute env.timestamp (Config.polls_eq_some hp) ⟨hexecuted, hcancelled⟩ htime hquorum
    case admin.cancelGovernanceAction canceller id =>
      obtain ⟨p, hp, hexecuted, hcancelled, hstores⟩ := cancelGovernanceAction_spec hw.tidy h
      refine ⟨hstores.tidy hw.tidy, hw.history.snoc ?_⟩
      rw [hstores.polls, show p.proposalId = id from hw.tidy.keyed hp]
      exact .cancel (Config.polls_eq_some hp) ⟨hexecuted, hcancelled⟩
  · have hsame := op_setting h hop
    have hnothing : governanceActs env op w w' = [] := by
      unfold governanceActs
      split <;> first | rfl | simp [Op.sets, AdminOp.sets] at hop
    rw [hnothing, List.append_nil]
    exact ⟨hw.tidy.congr hsame, Config.polls_congr hsame ▸ hw.history⟩

/-- After every run the acts on record are a history of the proposals. -/
theorem run_governedBy (host : Host C) (balances : Address × Address → Int) (collections : C)
    (steps : List (Step C)) :
    GovernedBy (record host governanceActs (.fresh balances collections) steps)
      (run host (.fresh balances collections) steps) := by
  refine run_record governanceActs (Run.along_of_forall fun _ _ => trivial) ?_ ?_ ?_
  · refine ⟨⟨fun h => ?_, fun h => ?_, fun _ => rfl⟩, .nil⟩ <;> cases h
  · exact fun acts env op w w' _ _ h hw => hw.op h
  · exact fun acts w collections balances hw => ⟨hw.tidy, hw.history⟩

/-- **Quorum safety.** After every run, of every proposal: it has been executed at most once, and not
if it was cancelled; whenever it was executed, as many different addresses as its threshold asks for,
all of them among its signers, had approved it no later than its expiry; what is stored of its signers,
threshold, expiry, type and payload is what was proposed; and a call that executes it writes its payload
to the setting its type names, and leaves the other two alone. -/
theorem quorum_safety (host : Host C) (balances : Address × Address → Int) (collections : C)
    (steps : List (Step C)) (id : Nat) :
    let w := run host (.fresh balances collections) steps
    let acts := record host governanceActs (.fresh balances collections) steps
    acts.countP (Quorum.Act.executes id) ≤ 1 ∧ (∀ time, .execute id time ∈ acts → .cancel id ∉ acts) ∧
      (∀ before after time, acts = before ++ .execute id time :: after →
        ∃ motion, .propose id motion ∈ before ∧ time ≤ motion.deadline ∧
          ∃ approvers : List Address, approvers.Nodup ∧ motion.threshold ≤ approvers.length ∧
            ∀ a ∈ approvers, a ∈ motion.voters ∧ ∃ t ≤ motion.deadline, .approve id a t ∈ before) ∧
      (∀ motion, .propose id motion ∈ acts →
        ∃ p, w.config.governanceProposal id = some p ∧ p.motion = motion) ∧
      ∀ env executor w', Returns (executeGovernanceAction env executor id) w () w' →
        ∃ p, w.config.governanceProposal id = some p ∧ p.WritesPayload w.config w'.config := by
  intro w acts
  have hw : GovernedBy acts w := run_governedBy host balances collections steps
  refine ⟨hw.history.executed_once id, fun time => hw.history.not_executed_and_cancelled,
    fun before after time => hw.history.quorum, fun motion hmotion => ?_, fun env executor w' h => ?_⟩
  · obtain ⟨poll, hpoll, hterms⟩ := hw.history.proposed_kept hmotion
    obtain ⟨p, hp, rfl⟩ := Option.map_eq_some_iff.mp hpoll
    exact ⟨p, hp, hterms⟩
  · obtain ⟨p, hp, -, -, -, -, hpayload, -⟩ := executeGovernanceAction_spec hw.tidy h
    exact ⟨p, hp, hpayload⟩

/-! ### Which proposals can pass -/

theorem Reachable.governedBy (hreach : Reachable host w) : ∃ acts, GovernedBy acts w := by
  obtain ⟨balances, collections, steps, rfl⟩ := hreach
  exact ⟨_, run_governedBy host balances collections steps⟩

/-- A run from a governed state only adds to the acts on record. -/
theorem GovernedBy.run (host : Host C) (hw : GovernedBy acts w) (steps : List (Step C)) :
    ∃ more, GovernedBy (acts ++ more) (Marketplace.run host w steps) := by
  refine along_calls (I := fun w => ∃ more, GovernedBy (acts ++ more) w)
    (Run.along_of_forall fun _ _ => trivial) ⟨[], by rwa [List.append_nil]⟩ ?_ ?_
  · rintro env op w w' - h ⟨more, hw⟩
    exact ⟨_, List.append_assoc .. ▸ hw.op h⟩
  · rintro w collections balances ⟨more, hw⟩
    exact ⟨more, hw.tidy, hw.history⟩

/-- The calls that approve the proposal `id`. -/
def approveAll (id : Nat) (approvals : List (Env × Address)) : List (Step C) :=
  approvals.map fun a => .call a.1 (.admin (.approveGovernanceAction a.2 id))

/-- However it is approved, a proposal has no more approvals than different signers. -/
theorem GovernedBy.approvals_le (host : Host C) (hw : GovernedBy acts w)
    (hproposed : .propose id motion ∈ acts)
    (steps : List (Step C)) : ((Marketplace.run host w steps).config.governanceApprovals id).length ≤
      motion.voters.dedup.length := by
  obtain ⟨more, hrun⟩ := hw.run host steps
  obtain ⟨poll, hpoll, rfl⟩ := hrun.history.proposed_kept (List.mem_append_left more hproposed)
  obtain ⟨p, hp, rfl⟩ := Option.map_eq_some_iff.mp hpoll
  exact (hrun.history.explained.2 id _ hpoll).approvals_le

theorem GovernedBy.proposed_approvals_le (host : Host C) (hw : GovernedBy acts w) (h : Returns (proposeGovernanceAction env proposer proposalType signers threshold expiresAt
      payloadAddress payloadU32 payloadBool) w id w') (steps : List (Step C)) :
    ((Marketplace.run host w' steps).config.governanceApprovals id).length ≤ signers.dedup.length := by
  obtain ⟨-, -, -, hcount, -⟩ := proposeGovernanceAction_spec hw.tidy h
  have hcall : Returns (Op.exec host env (.admin (.proposeGovernanceAction proposer proposalType signers
      threshold expiresAt payloadAddress payloadU32 payloadBool))) w () w' :=
    returns_discard.mpr ⟨id, h⟩
  have hle := (hw.op hcall).approvals_le host
    (List.mem_append_right acts (List.mem_singleton.mpr rfl)) steps
  rwa [hcount] at hle

/-- A signer of a live proposal that has not approved it yet can do so. -/
theorem exists_approve (env : Env) (hp : w.config.governanceProposal id = some p)
    (hexecuted : p.executed = false) (hcancelled : p.cancelled = false)
    (hauth : env.auth approver = true) (htime : env.timestamp ≤ p.expiresAt)
    (hsigner : approver ∈ p.signers) (hnew : approver ∉ w.config.governanceApprovals id) :
    ∃ w', Returns (approveGovernanceAction env approver id) w () w' := by
  have hlive : Returns (requireLiveProposal id : Tx C GovernanceProposal) w p w :=
    returns_bind.mpr ⟨_, w, returns_view.mpr ⟨rfl, rfl⟩, returns_bind.mpr
      ⟨p, w, returns_orAbort.mpr ⟨hp, rfl⟩, returns_seq.mpr
        ⟨w, returns_abortIf.mpr ⟨by simp [hexecuted], rfl⟩, returns_seq.mpr
          ⟨w, returns_abortIf.mpr ⟨by simp [hcancelled], rfl⟩, returns_pure.mpr ⟨rfl, rfl⟩⟩⟩⟩⟩
  refine ⟨_, returns_seq.mpr ⟨w, returns_abortIf.mpr ⟨by simp [hauth], rfl⟩, returns_bind.mpr
    ⟨p, w, hlive, returns_seq.mpr ⟨w, returns_abortIf.mpr ⟨by omega, rfl⟩, returns_seq.mpr
      ⟨w, returns_abortIf.mpr ⟨by simp [hsigner], rfl⟩, returns_bind.mpr
        ⟨_, w, returns_view.mpr ⟨rfl, rfl⟩, returns_seq.mpr
          ⟨w, returns_abortIf.mpr ⟨hnew, rfl⟩, returns_seq.mpr
            ⟨_, returns_update.mpr rfl, returns_update.mpr rfl⟩⟩⟩⟩⟩⟩⟩⟩

/-- Signers that have not approved a live proposal yet can approve it one after the other. -/
theorem run_approveAll (htidy : w.config.Tidy)
    (hp : w.config.governanceProposal id = some p) (hexecuted : p.executed = false)
    (hcancelled : p.cancelled = false) (htime : time ≤ p.expiresAt) (approvers : List Address)
    (hnodup : approvers.Nodup) (hsigners : approvers ⊆ p.signers)
    (hnew : ∀ a ∈ approvers, a ∉ w.config.governanceApprovals id) :
    (run host w (approveAll id (approvers.map fun a => (.signedBy a time, a)))).config.governanceApprovals
      id = w.config.governanceApprovals id ++ approvers := by
  induction approvers generalizing w with
  | nil => exact (List.append_nil _).symm
  | cons a approvers ih =>
    obtain ⟨ha, hnodup'⟩ := List.nodup_cons.mp hnodup
    obtain ⟨w1, h⟩ := exists_approve (.signedBy a time) hp hexecuted hcancelled
      (by simp [Env.signedBy]) htime (hsigners List.mem_cons_self) (hnew a List.mem_cons_self)
    obtain ⟨p', hp', -, -, -, -, -, hstores⟩ := approveGovernanceAction_spec htidy h
    obtain rfl : p = p' := Option.mem_unique hp hp'
    have hid := htidy.keyed hp
    have hproposal : w1.config.governanceProposal id = some p := by
      rw [hstores.proposal, hid, update_self]
    have happrovals : w1.config.governanceApprovals id = w.config.governanceApprovals id ++ [a] := by
      rw [hstores.approvals, hid, update_self]
    have hrest := ih (hstores.tidy htidy) hproposal hnodup'
      (fun b hb => hsigners (List.mem_cons_of_mem a hb)) fun b hb hmem => by
        rw [happrovals] at hmem
        rcases List.mem_append.mp hmem with hmem | hmem
        · exact hnew b (List.mem_cons_of_mem a hb) hmem
        · exact ha (List.mem_singleton.mp hmem ▸ hb)
    have hstep : step host w (.call (.signedBy a time) (.admin (.approveGovernanceAction a id))) = w1 :=
      step_of_returns h
    simp only [approveAll, List.map_cons, Run.exec_cons, hstep]
    rw [happrovals] at hrest
    simpa [approveAll] using hrest

/-- **Quorum in reach.** After `propose_governance_action` has accepted a proposal, its signers can
approve it before it expires until the threshold is met, exactly when the threshold is not more than
the number of different signers. -/
theorem quorum_reachable_iff (host : Host C) (env : Env) (w w' : World C) (proposer : Address)
    (proposalType : GovernanceProposalType) (signers : List Address) (threshold expiresAt id : Nat)
    (payloadAddress : Option Address) (payloadU32 : Option Nat) (payloadBool : Option Bool)
    (hreach : Reachable host w)
    (h : Returns (proposeGovernanceAction env proposer proposalType signers threshold expiresAt
      payloadAddress payloadU32 payloadBool) w id w') : (∃ approvals : List (Env × Address),
      (∀ a ∈ approvals, a.2 ∈ signers ∧ a.1.timestamp ≤ expiresAt) ∧ threshold ≤
          ((run host w' (approveAll id approvals)).config.governanceApprovals id).length) ↔
      threshold ≤ signers.dedup.length := by
  obtain ⟨acts, hw⟩ := hreach.governedBy
  obtain ⟨-, htime, hnone, hcount, hstores⟩ := proposeGovernanceAction_spec hw.tidy h
  constructor
  · rintro ⟨approvals, -, hmet⟩
    exact hmet.trans (hw.proposed_approvals_le host h _)
  · intro hle
    refine ⟨signers.dedup.map fun a => (.signedBy a env.timestamp, a), ?_, ?_⟩
    · intro a ha
      obtain ⟨b, hb, rfl⟩ := List.mem_map.mp ha
      exact ⟨List.mem_dedup.mp hb, htime.le⟩
    · have hnone' : w'.config.governanceApprovals id = [] := by
        rw [hstores.approvals, update_self]
      rw [run_approveAll (hstores.tidy hw.tidy) (by rw [hstores.proposal, update_self]) rfl
        rfl htime.le _ (List.nodup_dedup signers) (fun a ha => List.mem_dedup.mp ha)
        (by simp [hnone']), hnone']
      exact hle

/-- The contract has an admin, who holds every role. -/
def appointed : List (Step Unit) := [.call (.signedBy ⟨1⟩ 100) (.admin (.setAdmin ⟨1⟩))]

theorem quorum_reachable_iff_twoSigners :
    let host := Host.accepting ⟨0⟩ ⟨10⟩
    let w := run host (.fresh (fundedBidders ⟨0⟩) ()) appointed
    ∃ w', Returns (proposeGovernanceAction (.signedBy ⟨1⟩ 200) ⟨1⟩ .globalPause [⟨2⟩, ⟨3⟩] 2 900 none
        none (some true)) w 1 w' ∧
      ∃ approvals : List (Env × Address), (∀ a ∈ approvals, a.2 ∈ [⟨2⟩, ⟨3⟩] ∧ a.1.timestamp ≤ 900) ∧
          2 ≤ ((run host w' (approveAll 1 approvals)).config.governanceApprovals 1).length := by
  intro host w
  obtain ⟨id, w', h, hid⟩ := exists_returns (c := proposeGovernanceAction (.signedBy ⟨1⟩ 200) ⟨1⟩
    .globalPause [⟨2⟩, ⟨3⟩] 2 900 none none (some true)) (s := w) (p := fun id _ => id == 1)
    (by decide +kernel)
  obtain rfl : id = 1 := by simpa using hid
  exact ⟨w', h, (quorum_reachable_iff host _ w w' _ _ _ _ _ _ _ _ _ (reachable_run ..) h).mpr
    (by decide)⟩

/-- A proposal that names its only signer twice and asks for two approvals is accepted, and can never
be executed: whatever is called afterwards, it has at most one approval. -/
theorem proposal_without_quorum :
    let host := Host.accepting ⟨0⟩ ⟨10⟩
    let w := run host (.fresh (fundedBidders ⟨0⟩) ()) appointed
    ∃ w', Returns (proposeGovernanceAction (.signedBy ⟨1⟩ 200) ⟨1⟩ .globalPause [⟨2⟩, ⟨2⟩] 2 900 none
        none (some true)) w 1 w' ∧
      ∀ steps, ¬ 2 ≤ ((run host w' steps).config.governanceApprovals 1).length := by
  intro host w
  obtain ⟨id, w', h, hid⟩ := exists_returns (c := proposeGovernanceAction (.signedBy ⟨1⟩ 200) ⟨1⟩
    .globalPause [⟨2⟩, ⟨2⟩] 2 900 none none (some true)) (s := w) (p := fun id _ => id == 1)
    (by decide +kernel)
  obtain rfl : id = 1 := by simpa using hid
  refine ⟨w', h, fun steps hmet => ?_⟩
  have hle := (run_governedBy host _ _ appointed).proposed_approvals_le host h steps
  have hone : ([⟨2⟩, ⟨2⟩] : List Address).dedup.length = 1 := by decide
  omega

end ElcareHub.Marketplace
