import ElcareHub.Marketplace.Refine.Frames

/-!
# Maintenance and migration leave the book alone

The sweeps only report, count and move cursors. The migration moves whatever the index vectors of
earlier versions hold; a contract that was deployed at this version has none, so that its migration
reports and marks itself done.
-/

namespace ElcareHub.Marketplace

open Call

set_option synthInstance.maxSize 100000000

variable {C : Type} {host : Host C} {env : Env}
variable {α : Type}
variable {op : MaintenanceOp} {w w' : World C}

/-! ### Migration of a contract without legacy vectors -/

instance : Ignores (World.legacy (C := C)) World.field
    ([.config, .upkeep, .accounting, .escrowedToken, .history, .events, .collections, .transfers]
      ++ Field.tables ++ Field.background) where
  eq_of_outside h := h .legacy (by decide)

/-- When there are no legacy vectors, `c` makes none and leaves the observation `f` alone. -/
structure KeepsUnmigrated {τ α : Type} (f : World C → τ) (c : Tx C α) : Prop where
  keeps : ∀ {w a w'}, w.legacy = .empty → Returns c w a w' → w'.legacy = .empty ∧ f w' = f w

section Migration

variable {τ : Type} {f : World C → τ}

namespace KeepsUnmigrated

theorem of_preserves (hlegacy : Preserves World.legacy c) (hf : Preserves f c) :
    KeepsUnmigrated f c :=
  ⟨fun hw h => ⟨(hlegacy.eq h).trans hw, hf.eq h⟩⟩

/-- What only reads. -/
theorem of_view (g : World C → α) : KeepsUnmigrated f (view g : Tx C α) :=
  .of_preserves inferInstance inferInstance

theorem of_pure (a : α) : KeepsUnmigrated f (pure a : Tx C α) :=
  .of_preserves inferInstance inferInstance

theorem bind (hx : KeepsUnmigrated f x)
    (hg : ∀ a, KeepsUnmigrated f (g a)) : KeepsUnmigrated f (x >>= g) where
  keeps hw h := by
    obtain ⟨a, w1, h1, h2⟩ := h.bind
    obtain ⟨hw1, hfirst⟩ := hx.keeps hw h1
    obtain ⟨hw', hsecond⟩ := (hg a).keeps hw1 h2
    exact ⟨hw', hsecond.trans hfirst⟩

/-- A legacy vector that is read is not there. -/
theorem onLegacy (g : LegacyIndexes → Option γ) (hg : g .empty = none)
    :
    KeepsUnmigrated f (do
      let ids ← view fun w : World C => g w.legacy
      onSome ids x) where
  keeps {w u w'} hw h := by
    have h2 := h.view
    have hnone : g w.legacy = none := by rw [hw, hg]
    rw [hnone] at h2
    obtain ⟨-, rfl⟩ := h2.pure
    exact ⟨hw, rfl⟩

end KeepsUnmigrated

theorem keepsUnmigrated_migrateListingUnit (listingId : Nat) :
    KeepsUnmigrated f (migrateListingUnit listingId : Tx C Unit) := by
  refine .bind (.of_view _) fun stored => ?_
  cases stored with
  | none => exact .of_pure ()
  | some listing =>
    refine .bind (.onLegacy (fun l => l.artistListings listing.artist) rfl) fun _ => ?_
    exact .onLegacy (fun l => l.listingOffers listingId) rfl

theorem keepsUnmigrated_migrateAuctionUnit (auctionId : Nat) :
    KeepsUnmigrated f (migrateAuctionUnit auctionId : Tx C Unit) := by
  refine .bind (.of_view _) fun stored => ?_
  cases stored with
  | none => exact .of_pure ()
  | some auction => exact .onLegacy (fun l => l.artistAuctions auction.creator) rfl

theorem keepsUnmigrated_migrateOfferUnit (offerId : Nat) :
    KeepsUnmigrated f (migrateOfferUnit offerId : Tx C Unit) := by
  refine .bind (.of_view _) fun stored => ?_
  cases stored with
  | none => exact .of_pure ()
  | some offer => exact .onLegacy (fun l => l.offererOffers offer.offerer) rfl

theorem keepsUnmigrated_migrateActiveListings :
    KeepsUnmigrated f (migrateActiveListings : Tx C Nat) where
  keeps {w n w'} hw h := by
    have h2 := h.view
    have hnone : w.legacy.activeListings = none := by rw [hw]; rfl
    simp only [hnone] at h2
    obtain ⟨-, rfl⟩ := h2.pure
    exact ⟨hw, rfl⟩

variable {S : List Field} [hignores : Ignores f World.field S] [hevents : Lists S .events]
include hignores hevents

theorem keepsUnmigrated_migrationLoop (version : String) (listings auctions offers fuel budget : Nat)
    (p : MigrationProgress) : KeepsUnmigrated f
      (migrationLoop env version listings auctions offers fuel budget p :
        Tx C MigrationProgress) := by
  induction fuel generalizing budget p with
  | zero => exact .of_pure p
  | succ fuel ih =>
    have hphase {phase records : Nat} {post : Tx C Unit} (hlegacy : Preserves World.legacy post)
        (hf : Preserves f post) : KeepsUnmigrated f (completePhase env version phase records post) := by
      exact .of_preserves inferInstance inferInstance
    unfold migrationLoop
    split
    · exact .of_pure p
    · split
      · split
        · exact (hphase inferInstance inferInstance).bind fun _ => ih _ _
        · exact (keepsUnmigrated_migrateListingUnit _).bind fun _ => ih _ _
      · split
        · exact (hphase inferInstance inferInstance).bind fun _ => ih _ _
        · exact (keepsUnmigrated_migrateAuctionUnit _).bind fun _ => ih _ _
      · split
        · exact (hphase inferInstance inferInstance).bind fun _ => ih _ _
        · exact (keepsUnmigrated_migrateOfferUnit _).bind fun _ => ih _ _
      · exact keepsUnmigrated_migrateActiveListings.bind fun _ =>
          (hphase inferInstance inferInstance).bind fun _ => ih _ _
      · exact .of_pure p

/-- The run ends with a write to the cursor and the markers of the migration, which the observation has
to ignore too. -/
theorem keepsUnmigrated_runMigration (version : String) (budget : Nat)
    (hmark : ∀ (cursor : Upkeep → String → Option MigrationProgress)
      (stuck done : Upkeep → String → Bool), Preserves f (modifyUpkeep fun u => { u with
        migrationCursor := cursor u, migrationStuck := stuck u,
        migrationDone := done u } : Tx C Unit)) :
    KeepsUnmigrated f (runMigration env version budget : Tx C Nat) := by
  refine .bind (.of_view _) fun p => .bind (.of_view _) fun l => .bind (.of_view _) fun a =>
    .bind (.of_view _) fun o => .bind (keepsUnmigrated_migrationLoop ..) fun p' =>
    .bind (.of_preserves inferInstance inferInstance) fun remaining =>
    .bind (.of_preserves inferInstance ?_) fun _ => .of_pure remaining
  by_cases hdone : remaining = 0
  · simp only [if_pos hdone]
    exact hmark _ _ _
  · simp only [if_neg hdone]
    exact hmark _ _ fun u => u.migrationDone

/-- No migration call of a contract without legacy vectors is noticed. -/
theorem keepsUnmigrated_migration (hop : ¬ op.IsSweep) (hmark : ∀ (cursor : Upkeep → String → Option MigrationProgress)
      (stuck done : Upkeep → String → Bool), Preserves f (modifyUpkeep fun u => { u with
        migrationCursor := cursor u, migrationStuck := stuck u,
        migrationDone := done u } : Tx C Unit)) : KeepsUnmigrated f (op.exec env : Tx C Unit) := by
  cases op with
  | migrate admin =>
    exact .bind (.of_preserves inferInstance inferInstance) fun version =>
      (keepsUnmigrated_runMigration version u32Max hmark).bind fun _ => .of_pure ()
  | migrateStep admin maxItems =>
    exact .bind (.bind (.of_preserves inferInstance inferInstance) fun version =>
      keepsUnmigrated_runMigration version maxItems hmark) fun _ => .of_pure ()
  | _ => exact (hop trivial).elim

end Migration

/-- No maintenance call of a contract without legacy vectors touches the book. -/
theorem maintenanceOp_book (hlegacy : w.legacy = .empty) (h : Returns (op.exec env) w () w') :
    w'.book = w.book := by
  by_cases hop : op.IsSweep
  · have hwrites : Writes outsideBook (op.exec env : Tx C Unit) := sweep_writes hop
    exact h.last rfl
  · exact ((keepsUnmigrated_migration hop fun _ _ _ => inferInstance).keeps hlegacy h).2

/-! ### Observations of a cursor -/

/-- What an observation of a cursor ignores. -/
abbrev besideCursors : List Field :=
  [.config, .legacy, .accounting, .escrowedToken, .history, .events, .collections, .transfers] ++
    Field.tables ++ Field.background

/-- Apart from maintenance, calls move no cursors but those of the sweeps over an artist's records. -/
theorem op_cursors [Ignores f World.field besideCursors] [∀ listings auctions : Upkeep → Address → Option Nat, Preserves f (modifyUpkeep fun u =>
      { u with artistCancelCursor := listings u, artistAuctionCancelCursor := auctions u } : Tx C Unit)]
    {op : Op} (h : Returns (op.exec host env) w () w') (hop : ∀ op', op ≠ .maintenance op') :
    f w' = f w := by
  by_cases hframe : Field.upkeep ∉ op.footprint
  · refine Ignores.eq_of_outside fun F hF => op_frame h ?_
    cases F <;> first | exact absurd (by decide) hF | exact hframe
  suffices Preserves f (op.exec host env) from this.eq h
  cases op with
  | admin op =>
    change Preserves f (op.exec host env)
    cases op with
    | reinstateArtist =>
      unfold AdminOp.exec
      infer_instance
    | addTokenToWhitelist =>
      refine .next fun _ => .next fun _ => .next fun config => ?_
      split <;> infer_instance
    | _ => exact configuring_frame trivial
  | maintenance op => exact (hop op rfl).elim
  | listing op =>
    cases op with
    | cancelArtistListings =>
      unfold Op.exec ListingOp.exec
      infer_instance
    | _ => simp [Op.footprint, ListingOp.footprint] at hframe
  | auction op => cases op <;> simp [Op.footprint, AuctionOp.footprint] at hframe
  | offer op => cases op <;> simp [Op.footprint, OfferOp.footprint] at hframe

/-! ### Observations of an index -/

/-- What an observation of an index ignores: all but the indexes and the cursors. -/
abbrev besideIndexes : List Field :=
  [.config, .legacy, .accounting, .escrowedToken, .events, .collections, .transfers] ++ Field.tables ++
    Field.background

/-- The calls that append to the indexes of auctions or offers, or to none, and move the cursors of the
migration and of the sweeps only. -/
def Op.AppendsAside : Op → Prop
  | .listing (.createListing ..) | .listing (.createListings ..)
  | .listing (.cancelArtistListings ..) | .admin (.reinstateArtist ..)
  | .admin (.addTokenToWhitelist ..) => False
  | _ => True

/-- What does not observe those indexes and cursors is not changed by them. -/
theorem op_observation [Ignores f World.field besideIndexes]
    [∀ creator v, Preserves f (indexAppend (.artistAuctions creator) v : Tx C Unit)]
    [∀ k v, Preserves f (indexAppend (.listingOffers k) v : Tx C Unit)]
    [∀ offerer v, Preserves f (indexAppend (.offererOffers offerer) v : Tx C Unit)] [∀ (ttl : Upkeep → Option TtlSweepProgress) (cleanup : Upkeep → Option TerminalCleanupCursor)
      (cursor : Upkeep → String → Option MigrationProgress) (stuck done : Upkeep → String → Bool),
      Preserves f (modifyUpkeep fun u => { u with
        ttlSweepState := ttl u, terminalCleanupCursor := cleanup u, migrationCursor := cursor u,
        migrationStuck := stuck u, migrationDone := done u } : Tx C Unit)] {op : Op}
    (hop : op.AppendsAside) (hlegacy : w.legacy = .empty) (h : Returns (op.exec host env) w () w') :
    f w' = f w := by
  by_cases hframe : Field.history ∉ op.footprint ∧ Field.upkeep ∉ op.footprint
  · refine Ignores.eq_of_outside fun F hF => op_frame h ?_
    cases F <;> first | exact absurd (by decide) hF | exact hframe.1 | exact hframe.2
  by_cases hmigration : ∃ op' : MaintenanceOp, op = .maintenance op' ∧ ¬ op'.IsSweep
  · obtain ⟨op', rfl, hsweep⟩ := hmigration
    exact ((keepsUnmigrated_migration hsweep fun _ _ _ => inferInstance).keeps hlegacy h).2
  suffices Preserves f (op.exec host env) from this.eq h
  cases op with
  | admin op =>
    change Preserves f (op.exec host env)
    cases op with
    | reinstateArtist | addTokenToWhitelist => exact hop.elim
    | _ => exact configuring_frame trivial
  | maintenance op =>
    cases op with
    | migrate | migrateStep => exact (hmigration ⟨_, rfl, id⟩).elim
    | _ =>
      unfold Op.exec MaintenanceOp.exec
      infer_instance
  | listing op =>
    cases op with
    | createListing | createListings | cancelArtistListings => exact hop.elim
    | _ => simp [Op.footprint, ListingOp.footprint] at hframe
  | auction op =>
    cases op with
    | createAuction =>
      unfold Op.exec AuctionOp.exec
      infer_instance
    | _ => simp [Op.footprint, AuctionOp.footprint] at hframe
  | offer op =>
    cases op with
    | makeOffer | counterOffer =>
      unfold Op.exec OfferOp.exec
      infer_instance
    | _ => simp [Op.footprint, OfferOp.footprint] at hframe

end ElcareHub.Marketplace
