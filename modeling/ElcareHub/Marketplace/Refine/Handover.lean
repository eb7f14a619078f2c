import ElcareHub.Marketplace.Refine.Upkeep

/-!
# Custody along a call

The contract keeps a record of every NFT it holds in escrow, and moves NFTs by invoking their
collections. A property that relates the records to the state of the collections is kept by every
call as soon as it is kept by the invocations themselves: taking an NFT in together with writing its
record, handing it out together with clearing the record, and the queries. `Custodial` collects these
conditions; `keeps_op` is the result.
-/

namespace ElcareHub.Marketplace

open Call

set_option synthInstance.maxSize 100000000

variable {C : Type} {host : Host C} {env : Env}
variable {collection seller recipient buyer artist : Address}
  {quantity tokenId id listingId : Nat} {isListing : Bool} {listing : Listing}

/-- Which listing or auction each escrowed NFT is recorded for. -/
abbrev EscrowRecords := Address × Nat → Option EscrowRecord

/-- The state of the collections, and the escrow records. -/
def World.custody (w : World C) : C × EscrowRecords := (w.collections, w.escrowedToken)

/-- A property of collections and escrow records that the contract's invocations keep. -/
class Custodial (host : Host C) (P : C × EscrowRecords → Prop) : Prop where
  ownerOf : ∀ {c c' e collection tokenId owner},
    host.ownerOf c collection tokenId = some (owner, c') → P (c, e) → P (c', e)
  royaltyInfo : ∀ {c c' e collection info},
    host.royaltyInfo c collection = some (info, c') → P (c, e) → P (c', e)
  contractType : ∀ {c c' e collection kind},
    host.contractType c collection = some (kind, c') → P (c, e) → P (c', e)
  take : ∀ {c c' e collection seller tokenId} (record : EscrowRecord),
    host.transferFrom c collection host.self seller host.self tokenId = some c' → P (c, e) →
      P (c', Function.update e (collection, tokenId) (some record))
  give : ∀ {c c' e collection recipient tokenId},
    host.transferFrom c collection host.self host.self recipient tokenId = some c' → P (c, e) →
      P (c', Function.update e (collection, tokenId) none)
  giveUnits : ∀ {c c' e collection recipient tokenId amount},
    host.batchTransferFrom c collection host.self host.self recipient tokenId amount = some c' →
      P (c, e) → P (c', Function.update e (collection, tokenId) none)

/-- Custody ignores everything but the collections and the escrow records. -/
instance : Ignores (World.custody (C := C)) World.field
    ([.config, .upkeep, .legacy, .accounting, .history, .events, .transfers] ++ Field.tables ++
      Field.background) where
  eq_of_outside h := Prod.ext (h .collections (by decide)) (h .escrowedToken (by decide))

/-! ### Invocations -/

section Invocations

variable {P : C × EscrowRecords → Prop} [Custodial host P]

instance keeps_ownerOf (collection : Address) (tokenId : Nat) :
    Keeps World.custody P (ownerOf host collection tokenId) where
  keeps h hP := by
    rw [ownerOf, returns_attempt] at h
    split at h
    · rename_i hcall
      cases h
      exact Custodial.ownerOf hcall hP
    · cases h

instance : Keeps World.custody P (invokeRoyaltyInfo host collection) where
  keeps h hP := by
    rw [invokeRoyaltyInfo, returns_attempt] at h
    split at h
    · rename_i hcall
      cases h
      exact Custodial.royaltyInfo hcall hP
    · cases h

instance : Keeps World.custody P (preflightCollectionCompatibility host collection quantity) where
  keeps h hP := by
    rw [preflightCollectionCompatibility, returns_attempt] at h
    split at h
    · rename_i hcall
      cases h
      exact Custodial.contractType hcall hP
    · cases h
      exact hP

/-- An NFT is taken in together with its record. -/
instance : Keeps World.custody P (escrowNft host seller collection tokenId isListing id) where
  keeps h hP := by
    obtain ⟨owner, w1, howner, h⟩ := h.bind
    have hP1 : P w1.custody := (keeps_ownerOf collection tokenId).keeps howner hP
    obtain ⟨_, w2, e2, h⟩ := h.skip (f := World.custody) rfl
    replace h := h.view
    obtain ⟨_, w3, e3, h⟩ := h.skip e2
    replace h := h.write
    rw [transferNft, returns_attempt] at h
    split at h
    · rename_i hcall
      cases h
      rw [← e3] at hP1
      exact Custodial.take ⟨isListing, id⟩ hcall hP1
    · cases h

/-- An NFT is handed out together with its record. -/
instance : Keeps World.custody P (releaseNft host env collection tokenId recipient id) where
  keeps h hP := by
    obtain ⟨w1, htransfer, h⟩ := h.seq
    rw [transferNft, returns_attempt] at htransfer
    split at htransfer
    · rename_i hcall
      cases htransfer
      replace h := h.write
      rw [Preserves.eq (f := World.custody) h]
      exact Custodial.give hcall hP
    · cases htransfer

instance : Keeps World.custody P
      (releaseNftWithQuantity host env collection tokenId quantity recipient id) where
  keeps h hP := by
    obtain ⟨w1, htransfer, h⟩ := h.seq
    rw [batchTransferNft, returns_attempt] at htransfer
    split at htransfer
    · rename_i hcall
      cases htransfer
      replace h := h.write
      rw [Preserves.eq (f := World.custody) h]
      exact Custodial.giveUnits hcall hP
    · cases htransfer

/-! ### Settlements -/

instance (account : Account) (token : Address) (amount : Int) (recipients : List Recipient)
    (fromBuyer : Bool) (feeBps : Nat) :
    Keeps World.custody P (distributePayoutTracked host env account token collection amount seller recipients
      buyer fromBuyer feeBps id isListing) := by
  unfold distributePayoutTracked
  infer_instance

/-! ### Listings -/

instance : Keeps World.custody P (buyArtwork host env buyer listingId) := by
  -- the checks, up to the test whether the listing has expired
  iterate 11 refine @Keeps.bind _ _ _ _ _ _ _ _ _ _ fun _ => ?_
  split <;> infer_instance

/-- Every listing call keeps custody. -/
instance (op : ListingOp) : Keeps World.custody P (op.exec host env) := by
  cases op <;> unfold ListingOp.exec
  case buyArtwork => infer_instance
  case cancelArtistListings =>
    infer_instance
  all_goals infer_instance

/-! ### Auctions -/

instance (auction : Auction) (auctionId : Nat) :
    Keeps World.custody P (finalizeOutcome host env auction auctionId) := by
  unfold finalizeOutcome finalizeUnsold
  split <;> infer_instance

/-- Every auction call keeps custody. -/
instance (op : AuctionOp) : Keeps World.custody P (op.exec host env) := by
  cases op <;> unfold AuctionOp.exec
  case createAuction =>
    infer_instance
  case placeBid => unfold Marketplace.placeBid; dsimp only; infer_instance
  all_goals infer_instance

/-! ### Offers -/

instance (offer : Offer) (offerId : Nat) :
    Keeps World.custody P (acceptSettle host env artist offer offerId listing listingId) := by
  unfold acceptSettle
  infer_instance

instance (counter : Offer) (counterOfferId : Nat) :
    Keeps World.custody P (acceptCounterSettle host env buyer counter counterOfferId listing listingId) := by
  unfold acceptCounterSettle
  infer_instance

/-- Every offer call keeps custody. -/
instance (op : OfferOp) : Keeps World.custody P (op.exec host env) := by
  cases op <;> unfold OfferOp.exec
  case acceptOffer => unfold Marketplace.acceptOffer; dsimp only; infer_instance
  case acceptCounterOffer =>
    infer_instance
  all_goals infer_instance

/-- Every call keeps custody. -/
theorem keeps_op (op : Op) : Keeps World.custody P (op.exec host env) := by
  cases op <;> unfold Op.exec <;> infer_instance

end Invocations

end ElcareHub.Marketplace
