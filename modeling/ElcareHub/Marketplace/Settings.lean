import ElcareHub.Marketplace.Footprint

/-!
# What each entry point may configure

The configuration is written by the administrative calls alone, and each of them writes a small part of
it. `Op.sets` lists the settings an entry point may change; outside that list the configuration is what
it was (`op_setting`).
-/

namespace ElcareHub.Marketplace

open Call

set_option synthInstance.maxSize 100000000

variable {C : Type} {host : Host C} {env : Env}

/-- The settings: the parts of the configuration that are changed together. -/
inductive Setting
  | roles | treasury | protocolFee | collectionFee | listingPolicy | minBidIncrement | bidHistoryCap
  | extension | paused | revoked | whitelist | governance
  deriving DecidableEq

/-- The type of a setting. -/
def Setting.Val : Setting → Type
  | .roles => (Option Address × Option PendingAdminProposal) ×
      (RoleType → Option Address) × (RoleType → Option PendingRoleProposal)
  | .treasury => Option Address × Option PendingTreasuryProposal
  | .protocolFee => Option Nat
  | .collectionFee => Address → Option Nat
  | .listingPolicy => (Option Int × Option Int) × (Option Nat × Option Nat)
  | .minBidIncrement => Option Int
  | .bidHistoryCap => Option Nat
  | .extension => Option Nat × Option Nat × Option Nat
  | .paused => Bool × (Address → Bool) × (Symbol → Bool)
  | .revoked => Address → Bool
  | .whitelist => (Address → Option TokenWhitelistEntry) × Nat × (Nat → Option Address)
  | .governance => Nat × (Nat → Option GovernanceProposal) × (Nat → List Address)

/-- The value of a setting. -/
def Config.setting (c : Config) : (F : Setting) → F.Val
  | .roles => ((c.admin, c.pendingAdmin), c.role, c.pendingRole)
  | .treasury => (c.treasury, c.pendingTreasury)
  | .protocolFee => c.protocolFeeBps
  | .collectionFee => c.collectionFeeBps
  | .listingPolicy => ((c.minPrice, c.maxPrice), (c.minListingDuration, c.maxListingDuration))
  | .minBidIncrement => c.minBidIncrement
  | .bidHistoryCap => c.bidHistoryCap
  | .extension => (c.auctionExtensionWindow, c.auctionExtensionTrigger, c.auctionMaxExtensions)
  | .paused => (c.isPaused, c.collectionPaused, c.functionPaused)
  | .revoked => c.revokedArtist
  | .whitelist => (c.tokenWhitelistEntry, c.tokenWhitelistCount, c.tokenWhitelistId)
  | .governance => (c.governanceProposalCount, c.governanceProposal, c.governanceApprovals)

def World.setting (F : Setting) (w : World C) : F.Val := w.config.setting F

/-- `c` changes no setting outside `S`. -/
abbrev Sets {α : Type} (S : List Setting) (c : Tx C α) : Prop := Within World.setting S c

/-- The configuration ignores everything else. -/
instance : Ignores (World.config (C := C)) World.field
    ([.upkeep, .legacy, .accounting, .escrowedToken, .history, .events, .collections, .transfers]
      ++ Field.tables ++ Field.background) where
  eq_of_outside h := h .config (by decide)

instance (F : Setting) : Ignores (World.setting (C := C) F) World.field
    [.upkeep, .history, .events] where
  eq_of_outside h := congrArg (Config.setting · F) (h .config (by decide))

/-! ### Writes of a setting -/

section Writes

variable {S : List Setting}

theorem sets_modifyConfig (F : Setting) [Lists S F]
    (hg : ∀ c G, G ≠ F → (g c).setting G = c.setting G := by
      intro _ G hG; cases G <;> first | rfl | exact absurd rfl hG) : Sets S (modifyConfig g : Tx C Unit) :=
  .update F fun G w hG => hg w.config G hG

-- a record update leaves the settings it does not name as they are
instance [Lists S .roles] (admin : Config → Option Address)
    (pendingAdmin : Config → Option PendingAdminProposal)
    (role : Config → RoleType → Option Address)
    (pendingRole : Config → RoleType → Option PendingRoleProposal) :
    Sets S (modifyConfig fun c => { c with
      admin := admin c, pendingAdmin := pendingAdmin c, role := role c,
      pendingRole := pendingRole c } : Tx C Unit) :=
  sets_modifyConfig .roles

instance [Lists S .treasury] (treasury : Config → Option Address)
    (pendingTreasury : Config → Option PendingTreasuryProposal) :
    Sets S (modifyConfig fun c => { c with
      treasury := treasury c, pendingTreasury := pendingTreasury c } : Tx C Unit) :=
  sets_modifyConfig .treasury

instance [Lists S .protocolFee] (bps : Config → Option Nat) :
    Sets S (modifyConfig fun c => { c with protocolFeeBps := bps c } : Tx C Unit) :=
  sets_modifyConfig .protocolFee

instance [Lists S .collectionFee] (bps : Config → Address → Option Nat) :
    Sets S (modifyConfig fun c => { c with collectionFeeBps := bps c } : Tx C Unit) :=
  sets_modifyConfig .collectionFee

instance [Lists S .listingPolicy] (minPrice maxPrice : Config → Option Int)
    (minDuration maxDuration : Config → Option Nat) :
    Sets S (modifyConfig fun c => { c with
      minPrice := minPrice c, maxPrice := maxPrice c, minListingDuration := minDuration c,
      maxListingDuration := maxDuration c } : Tx C Unit) :=
  sets_modifyConfig .listingPolicy

instance [Lists S .minBidIncrement] (increment : Config → Option Int) :
    Sets S (modifyConfig fun c => { c with minBidIncrement := increment c } : Tx C Unit) :=
  sets_modifyConfig .minBidIncrement

instance [Lists S .bidHistoryCap] (cap : Config → Option Nat) :
    Sets S (modifyConfig fun c => { c with bidHistoryCap := cap c } : Tx C Unit) :=
  sets_modifyConfig .bidHistoryCap

instance [Lists S .extension] (window trigger maximum : Config → Option Nat) :
    Sets S (modifyConfig fun c => { c with
      auctionExtensionWindow := window c, auctionExtensionTrigger := trigger c,
      auctionMaxExtensions := maximum c } : Tx C Unit) :=
  sets_modifyConfig .extension

instance [Lists S .paused] (isPaused : Config → Bool) (collectionPaused : Config → Address → Bool)
    (functionPaused : Config → Symbol → Bool) :
    Sets S (modifyConfig fun c => { c with
      isPaused := isPaused c, collectionPaused := collectionPaused c,
      functionPaused := functionPaused c } : Tx C Unit) :=
  sets_modifyConfig .paused

instance [Lists S .revoked] (revoked : Config → Address → Bool) :
    Sets S (modifyConfig fun c => { c with revokedArtist := revoked c } : Tx C Unit) :=
  sets_modifyConfig .revoked

instance [Lists S .whitelist] (entry : Config → Address → Option TokenWhitelistEntry)
    (count : Config → Nat) (id : Config → Nat → Option Address) :
    Sets S (modifyConfig fun c => { c with
      tokenWhitelistEntry := entry c, tokenWhitelistCount := count c,
      tokenWhitelistId := id c } : Tx C Unit) :=
  sets_modifyConfig .whitelist

instance [Lists S .governance] (count : Config → Nat)
    (proposal : Config → Nat → Option GovernanceProposal)
    (approvals : Config → Nat → List Address) :
    Sets S (modifyConfig fun c => { c with
      governanceProposalCount := count c, governanceProposal := proposal c,
      governanceApprovals := approvals c } : Tx C Unit) :=
  sets_modifyConfig .governance

instance [Lists S .treasury] [Lists S .protocolFee] [Lists S .paused]
    (proposal : GovernanceProposal) : Sets S (applyGovernanceAction proposal : Tx C Unit) := by
  unfold applyGovernanceAction
  split <;> infer_instance

end Writes

/-! ### Entry points -/

/-- The settings an administrative call may change. -/
def AdminOp.sets : AdminOp → List Setting
  | .setAdmin .. => [.roles, .minBidIncrement, .extension]
  | .transferAdmin .. | .acceptAdmin .. | .cancelAdminProposal .. | .proposeRoleTransfer ..
  | .acceptRoleTransfer .. | .cancelRoleProposal .. | .migrateRoles .. | .setRoleDirect .. => [.roles]
  | .proposeTreasury .. | .acceptTreasury .. | .cancelTreasuryProposal .. | .setTreasury .. =>
    [.treasury]
  | .setProtocolFee .. => [.protocolFee]
  | .setCollectionFeeBps .. | .clearCollectionFeeBps .. => [.collectionFee]
  | .setPriceBounds .. | .setMinListingDuration .. | .setMaxListingDuration .. => [.listingPolicy]
  | .setMinBidIncrement .. => [.minBidIncrement]
  | .setBidHistoryCap .. => [.bidHistoryCap]
  | .setAuctionExtensionWindow .. | .setAuctionExtensionTrigger .. | .setAuctionMaxExtensions .. =>
    [.extension]
  | .adminSetPaused .. | .setCollectionPaused .. | .setFunctionPaused .. => [.paused]
  | .revokeArtist .. | .reinstateArtist .. => [.revoked]
  | .addTokenToWhitelist .. | .removeTokenFromWhitelist .. => [.whitelist]
  | .proposeGovernanceAction .. | .approveGovernanceAction .. | .cancelGovernanceAction .. =>
    [.governance]
  | .executeGovernanceAction .. => [.governance, .treasury, .protocolFee, .paused]

/-- The settings an entry point may change. -/
def Op.sets : Op → List Setting
  | .admin op => op.sets
  | _ => []

theorem adminOp_sets (op : AdminOp) : Sets op.sets (op.exec host env) := by
  cases op <;> unfold AdminOp.exec AdminOp.sets
  case setAdmin admin =>
    have hdefaults : Sets [.roles, .minBidIncrement, .extension]
        (modifyConfig fun c => { c with
          admin := some admin, minBidIncrement := some defaultMinBidIncrement,
          auctionExtensionWindow := some defaultExtensionWindow,
          auctionExtensionTrigger := some defaultExtensionTrigger } : Tx C Unit) := by
      refine ⟨fun G hG => .update fun w => ?_⟩
      cases G <;> first | rfl | exact absurd (by decide) hG
    infer_instance
  case addTokenToWhitelist =>
    dsimp only
    refine .next fun _ => .next fun _ => .next fun config => ?_
    split <;> infer_instance
  all_goals infer_instance

/-- **Settings.** A setting an entry point does not change is after the call what it was before. -/
theorem op_setting {op : Op} (h : Returns (op.exec host env) w () w')
    (hF : F ∉ op.sets) : w'.config.setting F = w.config.setting F := by
  cases op with
  | admin op => exact (adminOp_sets op).get_eq h hF
  | _ =>
    -- the other calls write no configuration at all
    have hconfig : w'.config = w.config := op_frame h (F := .config) (by
      rename_i op
      cases op <;> simp [Op.footprint, ListingOp.footprint, AuctionOp.footprint, OfferOp.footprint])
    rw [hconfig]

end ElcareHub.Marketplace
