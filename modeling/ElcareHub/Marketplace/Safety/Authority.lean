import ElcareHub.Marketplace.Refine.Migration
import ElcareHub.Marketplace.Settings

/-!
# Who may configure the contract

Fees, bounds, auction parameters, circuit breakers, moderation and the whitelist belong to a role each. As long as
nobody signs who holds the role at the time, they stay what they are, whatever else is called. Three entry points
are authorised in another way: the first `set_admin`, the acceptance of a treasury by its candidate, and the
execution of a proposal that has its approvals.
-/

namespace ElcareHub.Marketplace

open Call

variable {C : Type} {host : Host C} {env : Env} {w w' : World C}

/-- The role a setting belongs to. -/
def Setting.role : Setting → Option RoleType
  | .roles | .governance => none
  | .paused => some .emergencyPause
  | .revoked => some .collectionAdmin
  | _ => some .protocolConfig

/-- The entry points that are authorised otherwise. -/
def Op.selfAuthorised : Op → Bool
  | .admin (.setAdmin _) | .admin (.acceptTreasury _) | .admin (.executeGovernanceAction ..) => true
  | _ => false

/-- A call that changes a setting is signed by the holder of its role. -/
theorem op_authority {op : Op} (h : Returns (op.exec host env) w () w') (hop : op.selfAuthorised = false)
    (hrole : F.role = some role) (hchanged : w'.config.setting F ≠ w.config.setting F) :
    ∃ caller, roleHolder w.config role = some caller ∧ env.auth caller = true := by
  have hF : F ∈ op.sets := by_contra fun hF => hchanged (op_setting h hF)
  rcases op with op | op | op | op | op <;> try exact absurd hF List.not_mem_nil
  cases op with
  | setAdmin | acceptTreasury | executeGovernanceAction => cases hop
  | _ =>
    rw [List.mem_singleton.mp hF] at hrole
    -- roles and proposals belong to no role; the others begin with the check of theirs
    cases hrole <;> obtain ⟨_, hcheck, -⟩ := Returns.seq h <;> exact ⟨_, (returns_requireRole.mp hcheck).1⟩

/-- Nobody signs who holds the role of the setting. -/
def Unsigned (F : Setting) (w : World C) : Step C → Prop
  | .call env op => op.selfAuthorised = false ∧
      ∀ role caller, F.role = some role → roleHolder w.config role = some caller → env.auth caller = false
  | .external _ _ => True

/-- **Authority.** In every run, from whatever state, in which nobody signs who holds the role of a setting at the
time, no proposal is executed and no treasury or first admin comes in, the setting stays what it was. -/
theorem setting_kept_unsigned (host : Host C) (w : World C) (steps : List (Step C)) (F : Setting) (role : RoleType)
    (hrole : F.role = some role) (hrun : Run.Along (step host) (Unsigned F) w steps) :
    (run host w steps).config.setting F = w.config.setting F := by
  refine along_calls (I := fun w' => w'.config.setting F = w.config.setting F) hrun rfl
    (fun env op w1 w2 hunsigned h hw => ?_) fun _ _ _ hw => hw
  refine (by_contra fun hchanged => ?_ : w2.config.setting F = w1.config.setting F).trans hw
  obtain ⟨caller, hholder, hauth⟩ := op_authority h hunsigned.1 hrole hchanged
  rw [hunsigned.2 role caller hrole hholder] at hauth
  cases hauth

/-- Somebody who is not the admin asks for another fee. -/
theorem setting_kept_unsigned_outsider :
    let w := run (.accepting ⟨0⟩ ⟨10⟩) (.fresh (fundedBidders ⟨0⟩) ())
      [.call (.signedBy ⟨10⟩ 100) (.admin (.setAdmin ⟨10⟩))]
    (run (.accepting ⟨0⟩ ⟨10⟩) w [.call (.signedBy ⟨20⟩ 200) (.admin (.setProtocolFee ⟨20⟩ 500))]).config.setting
      .protocolFee = w.config.setting .protocolFee := by
  refine setting_kept_unsigned _ _ _ _ .protocolConfig rfl ⟨⟨rfl, fun role caller hrole hholder => ?_⟩, trivial⟩
  cases hrole
  cases hholder
  rfl

end ElcareHub.Marketplace
