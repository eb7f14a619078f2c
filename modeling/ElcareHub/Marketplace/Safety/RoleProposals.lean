import ElcareHub.Marketplace.Safety.Governance

/-!
# Who proposed the transfer of a role

A role changes hands in two steps: its holder proposes a candidate, the candidate accepts. The proposal
that is stored does not say who made it, so the history of the accepted proposals is kept beside the
state as a record, and `Backed` relates the two: whatever proposal is pending was the last one
recorded for its role, and its issuer holds the role now.

A role without an explicit holder is held by the admin. `accept_admin` therefore moves such a role from
one address to another without a look at its pending proposal, and what the former admin had proposed
can still be accepted. That is the only call that breaks `Backed` (`RoleBook.Move.backed`):
`accept_role_transfer` and `cancel_role_proposal` close the proposal they find, and `migrate_roles` writes
down the holders there are.
-/

namespace ElcareHub.Marketplace

open Call hiding update
open Function

variable {C : Type} {host : Host C} {env : Env} {w w' : World C}
variable {role : RoleType} {admin candidate : Address}

/-! ### Roles and proposals -/

/-- A proposal as it was made. -/
structure RoleProposal where
  role : RoleType
  issuer : Address
  candidate : Address

/-- The part of the configuration that says who holds which role, and what is pending. -/
structure RoleBook where
  admin : Option Address
  role : RoleType → Option Address
  pendingRole : RoleType → Option PendingRoleProposal

def World.roleBook (w : World C) : RoleBook where
  admin := w.config.admin
  role := w.config.role
  pendingRole := w.config.pendingRole

namespace RoleBook

/-- The effective holder: the explicit one, else the admin. -/
def holder (b : RoleBook) (role : RoleType) : Option Address := (b.role role).or b.admin

def setRole (b : RoleBook) (role : RoleType) (a : Address) : RoleBook :=
  { b with role := update b.role role (some a) }

def setPending (b : RoleBook) (role : RoleType) (pending : Option PendingRoleProposal) : RoleBook :=
  { b with pendingRole := update b.pendingRole role pending }

/-- No role that the admin holds by default has a proposal pending. -/
def Settled (b : RoleBook) : Prop := ∀ role, b.pendingRole role ≠ none → (b.role role).isSome

/-- What a call can do to the roles, and the proposals it puts on record. A new admin comes in while
the roles are settled. -/
inductive Move (b : RoleBook) : List RoleProposal → RoleBook → Prop
  | skip : Move b [] b
  | appoint (admin : Address) (hnone : b.admin = none) : Move b [] { b with admin := some admin }
  | succeed (admin : Address) (hsome : b.admin.isSome) (hsettled : b.admin = some admin ∨ b.Settled) :
      Move b [] { b with admin := some admin }
  | propose (p : RoleProposal) (expiresAt : Nat) (hholder : b.holder p.role = some p.issuer) :
      Move b [p] (b.setPending p.role (some ⟨p.candidate, expiresAt⟩))
  | close (role : RoleType) : Move b [] (b.setPending role none)
  | accept (role : RoleType) (candidate : Address) (hpending : b.pendingRole role ≠ none) :
      Move b [] ((b.setRole role candidate).setPending role none)
  | migrate (admin : Address) (hadmin : b.admin = some admin) :
      Move b [] { b with role := fun role => some ((b.role role).getD admin) }

/-- The last proposal on record for a role. -/
def lastProposal (log : List RoleProposal) (role : RoleType) : Option RoleProposal :=
  (log.filter (·.role = role)).getLast?

theorem lastProposal_snoc (log : List RoleProposal) (p : RoleProposal) (role : RoleType) :
    lastProposal (log ++ [p]) role = if p.role = role then some p else lastProposal log role := by
  by_cases hrole : p.role = role
  · simp [lastProposal, hrole]
  · simp [lastProposal, hrole]

/-- Every pending proposal is the last one made for its role, and its issuer holds the role. -/
structure Backed (log : List RoleProposal) (b : RoleBook) : Prop where
  issued : ∀ {role pending}, b.pendingRole role = some pending →
    ∃ p, lastProposal log role = some p ∧ p.candidate = pending.candidate ∧
      b.holder role = some p.issuer
  appointed : b.admin = none → ∀ role, b.role role = none ∧ b.pendingRole role = none

variable {log out : List RoleProposal} {b b' : RoleBook}

/-- A new admin, or new explicit holders: the holder of every role with a pending proposal stays. -/
theorem Backed.of_holder (h : Backed log b) (hpending : b'.pendingRole = b.pendingRole)
    (hadmin : b'.admin.isSome)
    (hholder : ∀ role, b.pendingRole role ≠ none → b'.holder role = b.holder role) :
    Backed log b' := by
  refine ⟨fun {role pending} hrole => ?_, fun hnone => ?_⟩
  · rw [hpending] at hrole
    obtain ⟨p, hlast, hcandidate, hissuer⟩ := h.issued hrole
    refine ⟨p, hlast, hcandidate, ?_⟩
    rw [hholder role (by simp [hrole]), hissuer]
  · rw [hnone] at hadmin
    cases hadmin

/-- Closing a proposal, whatever happens to the holder of its role. -/
theorem Backed.close (h : Backed log b) (hadmin : b'.admin = b.admin)
    (hpending : b'.pendingRole = update b.pendingRole role none)
    (hholder : ∀ other, other ≠ role → b'.role other = b.role other)
    (hclosed : b.admin = none → b'.role role = none) : Backed log b' := by
  refine ⟨fun {other pending} hother => ?_, fun hnone other => ?_⟩
  · by_cases hrole : other = role
    · rw [hpending, hrole, update_self] at hother
      cases hother
    · rw [hpending, update_of_ne hrole] at hother
      obtain ⟨p, hlast, hcandidate, hissuer⟩ := h.issued hother
      refine ⟨p, hlast, hcandidate, ?_⟩
      rw [holder, hholder other hrole, hadmin]
      exact hissuer
  · rw [hadmin] at hnone
    obtain ⟨hnobody, hnothing⟩ := h.appointed hnone other
    rw [hpending, update_apply, hnothing, ite_self]
    refine ⟨?_, rfl⟩
    by_cases hrole : other = role
    · exact hrole ▸ hclosed hnone
    · rw [hholder other hrole, hnobody]

/-- A proposal of the holder. -/
theorem Backed.propose (h : Backed log b) (p : RoleProposal) (expiresAt : Nat)
    (hholder : b.holder p.role = some p.issuer) :
    Backed (log ++ [p]) (b.setPending p.role (some ⟨p.candidate, expiresAt⟩)) := by
  refine ⟨fun {role pending} hrole => ?_, fun hnone => ?_⟩
  · change update b.pendingRole p.role _ role = some pending at hrole
    rw [lastProposal_snoc]
    by_cases hp : role = p.role
    · subst hp
      rw [update_self] at hrole
      cases hrole
      exact ⟨p, if_pos rfl, rfl, hholder⟩
    · rw [update_of_ne hp] at hrole
      rw [if_neg (Ne.symm hp)]
      exact h.issued hrole
  · -- without an admin nobody holds a role, so that nobody could have proposed
    change b.admin = none at hnone
    rw [holder, hnone, (h.appointed hnone p.role).1] at hholder
    cases hholder

/-- **A move keeps every pending proposal backed.** -/
theorem Move.backed (hmove : b.Move out b') (h : Backed log b) : Backed (log ++ out) b' := by
  cases hmove with
  | skip => rwa [List.append_nil]
  | appoint admin hnone =>
    -- before there is an admin nothing is pending, so that no holder is compared
    rw [List.append_nil]
    exact h.of_holder rfl rfl fun role hrole => absurd (h.appointed hnone role).2 hrole
  | succeed admin hsome hsettled =>
    rw [List.append_nil]
    refine h.of_holder rfl rfl fun role hrole => ?_
    rcases hsettled with hsame | hsettled
    · simp only [holder, hsame]
    · -- the role has an explicit holder, whom a new admin does not replace
      obtain ⟨a, ha⟩ := Option.isSome_iff_exists.mp (hsettled role hrole)
      simp only [holder, ha, Option.some_or]
  | propose p expiresAt hholder => exact h.propose p expiresAt hholder
  | close role =>
    rw [List.append_nil]
    exact h.close rfl rfl (fun _ _ => rfl) fun hnone => (h.appointed hnone role).1
  | accept role candidate hpending =>
    rw [List.append_nil]
    exact h.close rfl rfl (fun other hne => update_of_ne hne _ _)
      fun hnone => absurd (h.appointed hnone role).2 hpending
  | migrate admin hadmin =>
    rw [List.append_nil]
    refine h.of_holder rfl (by rw [hadmin]; rfl) fun role _ => ?_
    cases hrole : b.role role <;> simp [holder, hadmin]

end RoleBook

/-! ### Calls -/

/-- The proposals a call that returns puts on record. -/
def roleProposals (_ : Env) (op : Op) (_ _ : World C) : List RoleProposal :=
  match op with
  | .admin (.proposeRoleTransfer authority role candidate) => [⟨role, authority, candidate⟩]
  | _ => []

/-- The call does not assign a role directly, past the proposals. -/
def Op.twoStep : Op → Bool
  | .admin (.setRoleDirect ..) => false
  | _ => true

def Step.twoStep : Step C → Bool
  | .call _ op => op.twoStep
  | .external _ _ => true

/-- No other admin takes over while a proposal is pending for a role that the admin holds by default. -/
def Op.Timely (host : Host C) (env : Env) (w : World C) (op : Op) : Prop :=
  ∀ newAdmin w', op = .admin (.acceptAdmin newAdmin) → Returns (op.exec host env) w () w' →
    w.config.admin = some newAdmin ∨ w.roleBook.Settled

instance [Preserves World.config c] : Preserves World.roleBook c where
  eq h := by simp only [World.roleBook, Preserves.eq (f := World.config) h]

instance (pendingAdmin : Config → Option PendingAdminProposal) :
    Preserves World.roleBook
      (modifyConfig fun c => { c with pendingAdmin := pendingAdmin c } : Tx C Unit) :=
  .update fun _ => rfl

theorem returns_getRole :
    Returns (getRole role : Tx C Address) w a w' ↔ roleHolder w.config role = some a ∧ w = w' := by
  simp only [returns_bind, returns_view, returns_orAbort]
  constructor
  · rintro ⟨config, w1, ⟨rfl, rfl⟩, h⟩
    exact h
  · exact fun h => ⟨w.config, w, ⟨rfl, rfl⟩, h⟩

theorem roleBook_eq (h : w'.config = w.config) : w'.roleBook = w.roleBook := by
  rw [World.roleBook, World.roleBook, h]

theorem setAdmin_move (h : Returns (setAdmin env admin) w () w') :
    w.roleBook.Move [] w'.roleBook := by
  obtain ⟨hnone, h⟩ := h.check
  obtain ⟨_, h⟩ := h.pass
  obtain rfl := h.update
  exact .appoint admin (Option.not_isSome_iff_eq_none.mp hnone)

theorem acceptAdmin_move (h : Returns (acceptAdmin env newAdmin) w () w')
    (htimely : w.config.admin = some newAdmin ∨ w.roleBook.Settled) :
    w.roleBook.Move [] w'.roleBook := by
  obtain ⟨_, h⟩ := h.pass
  replace h := h.view
  obtain ⟨_, _, _, h⟩ := h.pass₃
  obtain ⟨old, hold, h⟩ := h.found
  replace h := h.write
  rw [roleBook_eq (h.last rfl)]
  exact .succeed newAdmin (Option.isSome_iff_exists.mpr ⟨old, hold⟩) htimely

theorem proposeRoleTransfer_move
    (h : Returns (proposeRoleTransfer host env authority role candidate) w () w') :
    w.roleBook.Move [⟨role, authority, candidate⟩] w'.roleBook := by
  obtain ⟨_, h⟩ := h.pass
  obtain ⟨stored, w1, hstored, h⟩ := h.bind
  obtain ⟨hholder, rfl⟩ := returns_getRole.mp hstored
  obtain ⟨hmine, h⟩ := h.check
  rw [← show authority = stored by simpa using hmine] at hholder
  obtain ⟨_, _, w2, e, h⟩ := h.skip₂ (f := World.config) rfl
  obtain ⟨expiresAt, w3, e, h⟩ := h.skip e
  obtain ⟨_, _, w5, e, h⟩ := h.skip₂ e
  replace h := h.write
  rw [roleBook_eq (h.last rfl), ← roleBook_eq e]
  refine .propose ⟨role, authority, candidate⟩ expiresAt ?_
  rw [roleBook_eq e]
  exact hholder

theorem acceptRoleTransfer_pending (h : Returns (acceptRoleTransfer env role candidate) w () w') :
    ∃ pending, w.config.pendingRole role = some pending ∧ pending.candidate = candidate := by
  obtain ⟨_, h⟩ := h.pass
  obtain ⟨pending, hpending, h⟩ := h.found
  obtain ⟨w1, hcheck, -⟩ := h.seq
  obtain ⟨hmine, rfl⟩ := hcheck.passed
  exact ⟨pending, hpending, by simpa [eq_comm] using hmine⟩

theorem acceptRoleTransfer_move (h : Returns (acceptRoleTransfer env role candidate) w () w') :
    w.roleBook.Move [] w'.roleBook := by
  obtain ⟨pending, hpending, -⟩ := acceptRoleTransfer_pending h
  obtain ⟨_, _, _, _, w4, e, h⟩ := h.skip₄ (f := World.config) rfl
  obtain ⟨_, _, w6, e, h⟩ := h.skip₂ e
  replace h := h.write
  replace h := h.write
  rw [roleBook_eq (h.last rfl), ← roleBook_eq e]
  refine .accept role candidate ?_
  rw [roleBook_eq e]
  exact fun hnone => by cases (hpending.symm.trans hnone)

theorem cancelRoleProposal_move (h : Returns (cancelRoleProposal env authority role) w () w') :
    w.roleBook.Move [] w'.roleBook := by
  obtain ⟨_, _, _, _, w4, e, h⟩ := h.skip₄ (f := World.config) rfl
  obtain ⟨_, w5, e, h⟩ := h.skip e
  replace h := h.write
  rw [roleBook_eq (h.last rfl), ← roleBook_eq e]
  exact .close role

/-- One pass of the loop of `migrate_roles`. -/
theorem migrateRole_roleBook (h : Returns (migrateRole admin role) w () w') :
    w'.roleBook = w.roleBook.setRole role ((w.roleBook.role role).getD admin) := by
  obtain ⟨hnone, h⟩ | ⟨hsome, rfl⟩ := h.when
  · replace h := h.write
    rw [roleBook_eq (h.last rfl)]
    have hrole : w.roleBook.role role = none := Option.isNone_iff_eq_none.mp hnone
    rw [hrole]
    rfl
  · -- the holder that is stored is written again
    cases hrole : w.roleBook.role role with
    | none => exact absurd (Option.isNone_iff_eq_none.mpr hrole) hsome
    | some a => rw [Option.getD_some, RoleBook.setRole, ← hrole, update_eq_self]

theorem migrateRoles_move (h : Returns (migrateRoles env admin) w () w') :
    w.roleBook.Move [] w'.roleBook := by
  obtain ⟨_, h⟩ := h.pass
  obtain ⟨stored, hadmin, h⟩ := h.found
  obtain ⟨hmine, h⟩ := h.check
  rw [← show admin = stored by simpa using hmine] at hadmin
  obtain ⟨w1, h1, h⟩ := h.next
  obtain ⟨w2, h2, h⟩ := h.next
  obtain ⟨w3, h3, h⟩ := h.next
  obtain ⟨w4, h4, h⟩ := h.next
  obtain rfl := h.done
  have hmigrated : w4.roleBook =
      { w.roleBook with role := fun role => some ((w.roleBook.role role).getD admin) } := by
    rw [migrateRole_roleBook h4, migrateRole_roleBook h3, migrateRole_roleBook h2,
      migrateRole_roleBook h1]
    simp only [RoleBook.setRole, RoleBook.mk.injEq, true_and, and_true]
    funext role
    cases role <;> simp
  rw [hmigrated]
  exact .migrate admin hadmin

/-- **Refinement.** A call in two steps, made while a change of the admin would be timely, makes one move
and puts its proposals on record. -/
theorem op_roleMove (h : Returns (op.exec host env) w () w') (htwo : op.twoStep = true)
    (htimely : op.Timely host env w) : w.roleBook.Move (roleProposals env op w w') w'.roleBook := by
  by_cases hop : Setting.roles ∈ op.sets
  · rcases op with op | op | op | op | op <;> try exact absurd hop List.not_mem_nil
    cases op <;> simp only [Op.sets, AdminOp.sets, List.mem_cons, List.not_mem_nil, reduceCtorEq,
      or_false] at hop
    case admin.setAdmin => exact setAdmin_move h
    case admin.transferAdmin a b =>
      rw [show w'.roleBook = w.roleBook from h.last (x := transferAdmin env a b) rfl]
      exact .skip
    case admin.acceptAdmin newAdmin => exact acceptAdmin_move h (htimely newAdmin w' rfl h)
    case admin.cancelAdminProposal a =>
      rw [show w'.roleBook = w.roleBook from h.last (x := cancelAdminProposal env a) rfl]
      exact .skip
    case admin.proposeRoleTransfer => exact proposeRoleTransfer_move h
    case admin.acceptRoleTransfer => exact acceptRoleTransfer_move h
    case admin.cancelRoleProposal => exact cancelRoleProposal_move h
    case admin.migrateRoles => exact migrateRoles_move h
    case admin.setRoleDirect => cases htwo
  · have hsame := op_setting h hop
    have hnothing : roleProposals env op w w' = [] := by
      unfold roleProposals
      split <;> first | rfl | simp [Op.sets, AdminOp.sets] at hop
    have hbook : w'.roleBook = w.roleBook := by
      have hroles : ((w'.config.admin, w'.config.pendingAdmin), w'.config.role, w'.config.pendingRole) =
        ((w.config.admin, w.config.pendingAdmin), w.config.role, w.config.pendingRole) := hsame
      simp only [Prod.mk.injEq] at hroles
      simp only [World.roleBook, hroles]
    rw [hnothing, hbook]
    exact .skip

/-! ### Runs -/

/-- The calls of a run may be any but direct assignments, and a new admin comes in at a timely moment. -/
def Step.Orderly (host : Host C) (w : World C) : Step C → Prop
  | .call env op => op.twoStep = true ∧ op.Timely host env w
  | .external _ _ => True

theorem run_backed
    (hrun : Run.Along (step host) (Step.Orderly host) (.fresh balances collections) steps) :
    RoleBook.Backed (record host roleProposals (.fresh balances collections) steps)
      (run host (.fresh balances collections) steps).roleBook := by
  refine run_record roleProposals (I := fun log w => RoleBook.Backed log w.roleBook) hrun ?_ ?_ ?_
  · refine ⟨fun h => ?_, fun _ _ => ⟨rfl, rfl⟩⟩
    cases h
  · exact fun log env op w w' _ horderly h hbacked =>
      (op_roleMove h horderly.1 horderly.2).backed hbacked
  · exact fun log w collections balances hbacked => hbacked

/-- **Roles pass from their holders.** In every run of two-step transfers in which no other admin takes
over while a role that the admin holds by default has a proposal pending: whenever a candidate accepts a
role, the last proposal for the role named that candidate, and its issuer is who `get_role` answers. -/
theorem role_granted_by_holder (host : Host C) (balances : Address × Address → Int) (collections : C)
    (steps : List (Step C))
    (hrun : Run.Along (step host) (Step.Orderly host) (.fresh balances collections) steps)
    (env : Env) (role : RoleType) (candidate : Address) (w' : World C)
    (haccept : Returns (acceptRoleTransfer env role candidate)
      (run host (.fresh balances collections) steps) () w') :
    ∃ p, RoleBook.lastProposal (record host roleProposals (.fresh balances collections) steps) role =
        some p ∧ p.candidate = candidate ∧
      Returns (getRole role) (run host (.fresh balances collections) steps) p.issuer
        (run host (.fresh balances collections) steps) := by
  obtain ⟨pending, hpending, rfl⟩ := acceptRoleTransfer_pending haccept
  obtain ⟨p, hlast, hcandidate, hholder⟩ := (run_backed hrun).issued hpending
  exact ⟨p, hlast, hcandidate, returns_getRole.mpr ⟨hholder, rfl⟩⟩

/-- The admin writes down who holds the roles, proposes another holder for one of them, and hands
over. -/
def rolesThenAdmin : List (Step Unit) :=
  appointed ++ [.call (.signedBy ⟨1⟩ 100) (.admin (.migrateRoles ⟨1⟩)),
      .call (.signedBy ⟨1⟩ 100) (.admin (.proposeRoleTransfer ⟨1⟩ .emergencyPause ⟨2⟩)),
      .call (.signedBy ⟨1⟩ 100) (.admin (.transferAdmin ⟨1⟩ ⟨3⟩)),
      .call (.signedBy ⟨3⟩ 100) (.admin (.acceptAdmin ⟨3⟩))]

theorem role_granted_by_holder_rolesThenAdmin :
    let host := Host.accepting ⟨0⟩ ⟨10⟩
    let w := run host (.fresh (fundedBidders ⟨0⟩) ()) rolesThenAdmin
    ∃ p, RoleBook.lastProposal (record host roleProposals (.fresh (fundedBidders ⟨0⟩) ())
        rolesThenAdmin) .emergencyPause = some p ∧ p.candidate = ⟨2⟩ ∧
      Returns (getRole .emergencyPause) w p.issuer w := by
  intro host w
  obtain ⟨u, w', h, -⟩ := exists_returns (c := acceptRoleTransfer (.signedBy ⟨2⟩ 100) .emergencyPause ⟨2⟩)
    (s := w) (p := fun _ _ => true) (by decide +kernel)
  refine role_granted_by_holder host _ () rolesThenAdmin ?_ (.signedBy ⟨2⟩ 100) .emergencyPause ⟨2⟩ w' h
  refine ⟨⟨rfl, ?_⟩, ⟨rfl, ?_⟩, ⟨rfl, ?_⟩, ⟨rfl, ?_⟩, ⟨rfl, ?_⟩, trivial⟩
  · rintro _ _ ⟨⟩
  · rintro _ _ ⟨⟩
  · rintro _ _ ⟨⟩
  · rintro _ _ ⟨⟩
  · refine fun _ _ _ _ => .inr fun role _ => ?_
    cases role <;> decide +kernel

/-- The admin proposes another holder for a role and then hands over, without having written down who
holds the roles. -/
def staleProposal : List (Step Unit) :=
  appointed ++ [.call (.signedBy ⟨1⟩ 100) (.admin (.proposeRoleTransfer ⟨1⟩ .emergencyPause ⟨2⟩)),
      .call (.signedBy ⟨1⟩ 100) (.admin (.transferAdmin ⟨1⟩ ⟨3⟩)),
      .call (.signedBy ⟨3⟩ 100) (.admin (.acceptAdmin ⟨3⟩))]

/-- The role is held by the new admin when what the former one proposed is accepted. -/
theorem former_admin_grants : ¬ ∀ steps : List (Step Unit), (∀ s ∈ steps, s.twoStep = true) →
      ∀ env role candidate w', Returns (acceptRoleTransfer env role candidate)
          (run (.accepting ⟨0⟩ ⟨10⟩) (.fresh (fundedBidders ⟨0⟩) ()) steps) () w' →
        ∃ p, RoleBook.lastProposal (record (.accepting ⟨0⟩ ⟨10⟩) roleProposals
            (.fresh (fundedBidders ⟨0⟩) ()) steps) role = some p ∧
          Returns (getRole role) (run (.accepting ⟨0⟩ ⟨10⟩) (.fresh (fundedBidders ⟨0⟩) ()) steps)
            p.issuer (run (.accepting ⟨0⟩ ⟨10⟩) (.fresh (fundedBidders ⟨0⟩) ()) steps) := by
  intro hgranted
  obtain ⟨u, w', h, -⟩ := exists_returns
    (c := acceptRoleTransfer (.signedBy ⟨2⟩ 100) .emergencyPause ⟨2⟩)
    (s := run (.accepting ⟨0⟩ ⟨10⟩) (.fresh (fundedBidders ⟨0⟩) ()) staleProposal)
    (p := fun _ _ => true) (by decide +kernel)
  obtain ⟨p, hlast, hissuer⟩ := hgranted staleProposal (by decide) (.signedBy ⟨2⟩ 100)
    .emergencyPause ⟨2⟩ w' h
  obtain ⟨hholder, -⟩ := returns_getRole.mp hissuer
  have hfirst : (RoleBook.lastProposal (record (.accepting ⟨0⟩ ⟨10⟩) roleProposals
      (.fresh (fundedBidders ⟨0⟩) ()) staleProposal) .emergencyPause).map RoleProposal.issuer =
        some ⟨1⟩ := by decide +kernel
  have hthird : roleHolder (run (.accepting ⟨0⟩ ⟨10⟩) (.fresh (fundedBidders ⟨0⟩) ())
      staleProposal).config .emergencyPause = some ⟨3⟩ := by decide +kernel
  rw [hlast, Option.map_some, ← hholder, hthird] at hfirst
  exact absurd hfirst (by decide)

end ElcareHub.Marketplace
