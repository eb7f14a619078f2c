import ElcareHub.Lib.Batch
import ElcareHub.Marketplace.Refine.Catalogue
import ElcareHub.Marketplace.Refine.Steps

/-!
# Batches and their single operations

`create_listings`, `update_listings` and `cancel_listings` validate every item against the state they are
called in, with checks of their own that report the failing item, and then do for each item what the
single operation does. Here the two sets of rules are shown to agree (`returns_preflightCreate`, …), and
that what an item does changes no verdict on a later one: creation and updates touch nothing the checks
read, and what a cancellation closes it closes for the check and for the operation alike. By the rule for
batches in two phases, the batch is then the sequence of the single operations.

The checks of a creation ask the collection for its type. That collections answer this without changing
anything, and that taking a token into custody does not change a type, is assumed (`Host.TypesFixed`).
-/

namespace ElcareHub.Marketplace

open Call Function

set_option synthInstance.maxSize 100000000

variable {C : Type} {host : Host C} {env : Env} {w w' : World C} {u : Unit}
variable {i : Nat} {r : Bool}
variable {collection token : Address} {quantity tokenId id : Nat} {rs : List Recipient}

/-! ### The types of collections -/

/-- The type a collection declares. -/
def Host.declaredType (host : Host C) (c : C) (collection : Address) : Option Symbol :=
  (host.contractType c collection).map Prod.fst

/-- `contract_type` is a tag of the collection: reading it changes nothing, and neither looking up an
owner nor moving a token changes the tag of any collection. -/
class Host.TypesFixed (host : Host C) : Prop where
  view : ∀ {c collection kind c'}, host.contractType c collection = some (kind, c') → c' = c
  ownerOf : ∀ {c collection tokenId owner c'},
    host.ownerOf c collection tokenId = some (owner, c') → host.declaredType c' = host.declaredType c
  transferFrom : ∀ {c collection spender src dst tokenId c'},
    host.transferFrom c collection spender src dst tokenId = some c' →
      host.declaredType c' = host.declaredType c

/-- The types of all collections. -/
def World.types (host : Host C) (w : World C) : Address → Option Symbol :=
  host.declaredType w.collections

instance : Ignores (World.types host) World.field
    ([.config, .upkeep, .legacy, .accounting, .escrowedToken, .history, .events, .transfers] ++
      Field.tables ++ Field.background) where
  eq_of_outside h := congrArg host.declaredType (h .collections (by decide))

/-- `quantity` units are compatible with a collection of this type. -/
def compatible (kind : Option Symbol) (quantity : Nat) : Bool :=
  !(kind.any (fun k => k = "ERC721" || k = "LazyMint721") && quantity ≠ 1) && quantity ≠ 0

section Types

variable [host.TypesFixed]

theorem returns_preflightCollectionCompatibility :
    Returns (preflightCollectionCompatibility host collection quantity) w ok w' ↔
      compatible (w.types host collection) quantity = ok ∧ w = w' := by
  rw [preflightCollectionCompatibility, returns_attempt, World.types, Host.declaredType]
  cases htype : host.contractType w.collections collection with
  | none => simp [compatible]
  | some r =>
    obtain ⟨kind, c⟩ := r
    obtain rfl := Host.TypesFixed.view htype
    simp [compatible]

theorem returns_requireCollectionCompatible :
    Returns (requireCollectionCompatible host collection quantity) w u w' ↔
      compatible (w.types host collection) quantity = true ∧ w = w' := by
  rw [requireCollectionCompatible, returns_read fun _ _ => returns_preflightCollectionCompatibility,
    returns_abortIf, Bool.not_eq_false]

instance : Preserves (World.types host) (requireCollectionCompatible host collection quantity) where
  eq h := by rw [(returns_requireCollectionCompatible.mp h).2]

instance : Preserves (World.types host) (ownerOf host collection tokenId) where
  eq {w owner w'} h := by
    rw [ownerOf, returns_attempt] at h
    split at h
    · rename_i o c heq
      cases h
      exact Host.TypesFixed.ownerOf heq
    · cases h

instance (spender src dst : Address) :
    Preserves (World.types host) (transferNft host collection spender src dst tokenId) where
  eq {w _ w'} h := by
    rw [transferNft, returns_attempt] at h
    split at h
    · rename_i c heq
      cases h
      exact Host.TypesFixed.transferFrom heq
    · cases h

end Types

/-! ### The checks as propositions -/

theorem returns_batchItemInvalidIf [Decidable c] :
    Returns (batchItemInvalidIf env c i e : Tx C Unit) w u w' ↔ ¬ c ∧ w = w' := by
  by_cases hc : c
  · simp
  · simp

theorem returns_assertPricePolicy :
    Returns (assertPricePolicy price) w u w' ↔ priceOutOfBounds w.config price = false ∧ w = w' := by
  rw [assertPricePolicy, returns_view_bind, returns_abortIf, Bool.not_eq_true]

theorem returns_assertListingDurationPolicy :
    Returns (assertListingDurationPolicy env expiresAt) w u w' ↔
      durationOutOfBounds w.config env.timestamp expiresAt = false ∧ w = w' := by
  rw [assertListingDurationPolicy, returns_view_bind, returns_abortIf, Bool.not_eq_true]

theorem returns_assertTokenPolicyActive : Returns (assertTokenPolicyActive token) w u w' ↔
      tokenAccepted w.config token = true ∧ w = w' := by
  rw [assertTokenPolicyActive, returns_view_bind, returns_abortIf, Bool.not_eq_false]

theorem returns_validateTokenAsset : Returns (validateTokenAsset host token collection) w u w' ↔
      (token ≠ host.self ∧ collection ≠ some token) ∧ w = w' := by
  rw [validateTokenAsset, returns_abortIf_bind, returns_abortIf, and_assoc]

theorem returns_requireRecipientCount :
    Returns (requireRecipientCount rs) w u w' ↔ (rs ≠ [] ∧ rs.length ≤ 4) ∧ w = w' := by
  simp [and_assoc]

theorem returns_validateRecipients :
    Returns (validateRecipients rs) w u w' ↔ recipientsFault [] 0 rs = none ∧ w = w' := by
  unfold validateRecipients
  split <;> simp_all

theorem returns_requireNotPaused :
    Returns requireNotPaused w u w' ↔ w.config.isPaused = false ∧ w = w' := by
  rw [requireNotPaused, returns_view_bind, returns_abortIf, Bool.not_eq_true]

theorem returns_requireNotPausedCtx : Returns (requireNotPausedCtx collection func) w u w' ↔
      isPausedFor w.config collection func = false ∧ w = w' := by
  rw [requireNotPausedCtx, returns_view_bind, returns_abortIf, Bool.not_eq_true]

theorem returns_requireNotRevoked :
    Returns (requireNotRevoked artist) w u w' ↔ w.config.revokedArtist artist = false ∧ w = w' := by
  rw [requireNotRevoked, returns_view_bind, returns_abortIf, Bool.not_eq_true]

/-- A price, a token and recipients a listing may have: what creation, updates and their preflights ask
of all three. -/
structure Terms.Admissible (host : Host C) (config : Config) (collection : Address) (price : Int)
    (token : Address) (recipients : List Recipient) : Prop where
  positive : 0 < price
  bounds : priceOutOfBounds config price = false
  asset : token ≠ host.self ∧ some collection ≠ some token
  accepted : tokenAccepted config token = true
  recipients : ValidRecipients recipients

/-- What a request to list is asked for. -/
structure BatchCreateListingInput.Admissible (host : Host C) (env : Env) (w : World C)
    (request : BatchCreateListingInput) : Prop where
  terms : Terms.Admissible host w.config request.collection request.price request.token
    request.recipients
  unexpired : reachedExpiry env request.expiresAt = none
  duration : durationOutOfBounds w.config env.timestamp request.expiresAt = false
  compatible : compatible (w.types host request.collection) request.quantity = true

/-! ### Creation -/

/-- What the preflight of `create_listings` asks of an item. -/
def CreateCheck (host : Host C) (env : Env) (request : BatchCreateListingInput) (w : World C) : Prop :=
  isPausedFor w.config (some request.collection) (some "create_listing") = false ∧
    request.Admissible host env w

/-- What `create_listing` checks before it creates. -/
def CreateGuard (env : Env) (artist : Address) (request : BatchCreateListingInput) (w : World C) :
    Prop :=
  isPausedFor w.config (some request.collection) (some "create_listing") = false ∧
    env.auth artist = true ∧ w.config.revokedArtist artist = false

section Creation

variable {artist : Address} {request : BatchCreateListingInput}

/-- A request is judged by the configuration and the types of collections alone. -/
theorem BatchCreateListingInput.admissible_congr (hconfig : w'.config = w.config)
    (htypes : w'.types host = w.types host) :
    request.Admissible host env w' ↔ request.Admissible host env w := by
  constructor
  · rintro ⟨hterms, hexpiry, hduration, hcompatible⟩
    rw [hconfig] at hterms hduration
    rw [htypes] at hcompatible
    exact ⟨hterms, hexpiry, hduration, hcompatible⟩
  · rintro ⟨hterms, hexpiry, hduration, hcompatible⟩
    rw [← hconfig] at hterms hduration
    rw [← htypes] at hcompatible
    exact ⟨hterms, hexpiry, hduration, hcompatible⟩

theorem returns_createListing : Returns (createListing host env artist request) w id w' ↔
      CreateGuard env artist request w ∧
        Returns (createListingInner host env artist request) w id w' := by
  rw [createListing, returns_check fun _ _ => returns_requireNotPausedCtx, returns_abortIf_bind,
    returns_check fun _ _ => returns_requireNotRevoked, CreateGuard, and_assoc, and_assoc,
    Bool.not_eq_false]

variable [host.TypesFixed]

/-- What the preflight of an item checks. -/
theorem returns_preflightCreate : Returns (preflightCreate host env i request) w u w' ↔
      CreateCheck host env request w ∧ w = w' := by
  simp only [returns_view_bind, returns_check fun _ _ => returns_batchItemInvalidIf,
    returns_check fun _ _ => returns_validateTokenAsset,
    returns_read fun _ _ => returns_preflightCollectionCompatibility, returns_batchItemInvalidIf]
  constructor
  · rintro ⟨hpaused, hprice, hbounds, hexpiry, hduration, hsome, hfew, hfault, hasset, htoken,
      hcompatible, rfl⟩
    refine ⟨⟨by simpa using hpaused, ⟨by omega, by simpa using hbounds, hasset, by simpa using htoken,
      ⟨?_, by omega, by simpa using hfault⟩⟩, by simpa using hexpiry, by simpa using hduration,
      by simpa using hcompatible⟩, rfl⟩
    exact fun hnil => hsome (by rw [hnil]; rfl)
  · rintro ⟨⟨hpaused, hrequest⟩, rfl⟩
    obtain ⟨⟨hprice, hbounds, hasset, htoken, hrecipients⟩, hexpiry, hduration, hcompatible⟩ := hrequest
    have hsome : request.recipients.length ≠ 0 := fun hzero =>
      hrecipients.nonempty (List.length_eq_zero_iff.mp hzero)
    have hfew := hrecipients.few
    exact ⟨by simpa using hpaused, by omega, by simpa using hbounds, by simp [hexpiry],
      by simpa using hduration, hsome, by omega, by simp [hrecipients.faultless], hasset,
      by simpa using htoken, by simpa using hcompatible, rfl⟩

/-- What is created has passed the checks of the preflight. -/
theorem createListingInner_checked
    (h : Returns (createListingInner host env artist request) w id w') :
    request.Admissible host env w := by
  rw [returns_abortIf_bind, returns_check fun _ _ => returns_assertPricePolicy, returns_abortIf_bind,
    returns_check fun _ _ => returns_assertListingDurationPolicy,
    returns_check fun _ _ => returns_requireRecipientCount, returns_view_bind,
    returns_check fun _ _ => returns_validateRecipients,
    returns_check fun _ _ => returns_validateTokenAsset,
    returns_check fun _ _ => returns_assertTokenPolicyActive,
    returns_check fun _ _ => returns_requireCollectionCompatible] at h
  obtain ⟨hprice, hbounds, hexpiry, hduration, ⟨hsome, hfew⟩, hfaultless, hasset, htoken, hcompatible,
    -⟩ := h
  exact ⟨⟨by omega, hbounds, hasset, htoken, hsome, hfew, hfaultless⟩, by simpa using hexpiry,
    hduration, hcompatible⟩

/-- Creation in two phases: neither guards nor checks depend on what is created. -/
theorem twoPhase_create (host : Host C) [host.TypesFixed] (env : Env) (artist : Address) :
    TwoPhase (fun _ => True) (CreateGuard env artist)
      (fun request w => request.Admissible host env w) (createListing host env artist)
      (createListingInner host env artist) where
  single_iff := returns_createListing
  keeps _ _ := trivial
  guard_iff {_ request w _ w'} _ h := by
    rw [CreateGuard, CreateGuard, Preserves.eq (f := World.config) h]
  checked _ h := createListingInner_checked h
  check_before _ h :=
    (BatchCreateListingInput.admissible_congr (Preserves.eq h) (Preserves.eq h)).mp

theorem returns_createListings (hsome : requests ≠ []) (hcap : requests.length ≤ maxBatchCreate) :
    Returns (createListings host env artist requests) w ids w' ↔
      (∀ request ∈ requests, CreateGuard env artist request w ∧ request.Admissible host env w) ∧
        Returns (collect (createListingInner host env artist) requests) w ids w' := by
  have hpreflight (u : Unit) (w1 : World C) :
      Returns (each (fun p => preflightCreate host env p.2 p.1) requests.zipIdx) w u w1 ↔
        (∀ request ∈ requests, CreateCheck host env request w) ∧ w = w1 :=
    returns_each_check_zipIdx _ fun _ _ _ _ => returns_preflightCreate
  rw [createListings, returns_abortIf_bind, returns_check fun _ _ => returns_requireNotRevoked,
    returns_abortIf_bind, returns_check hpreflight]
  constructor
  · rintro ⟨hauth, hartist, -, hall, h⟩
    refine ⟨fun request hmem => ?_, h⟩
    exact ⟨⟨(hall request hmem).1, by simpa using hauth, hartist⟩, (hall request hmem).2⟩
  · rintro ⟨hall, h⟩
    -- some item carries the guards that are checked once for the batch
    obtain ⟨request, hmem⟩ := List.exists_mem_of_ne_nil requests hsome
    obtain ⟨-, hauth, hartist⟩ := (hall request hmem).1
    exact ⟨by simpa using hauth, hartist, by omega,
      fun request hmem => ⟨(hall request hmem).1.1, (hall request hmem).2⟩, h⟩

end Creation

/-! ### Updates -/

/-- Listings are stored under their own ids, as `save_listing` stores them. -/
def World.ListingsStored (w : World C) : Prop := ∀ k l, w.listing k = some l → l.listingId = k

/-- What an update asks of the listing it is for, and of its new terms. -/
structure UpdateCheck (host : Host C) (artist : Address) (request : BatchUpdateListingInput)
    (w : World C) (listing : Listing) : Prop where
  stored : w.listing request.listingId = some listing
  artist : listing.artist = artist
  active : listing.status = .active
  noOffers : w.listingPendingOffers request.listingId = []
  terms : Terms.Admissible host w.config listing.collection request.newPrice request.newToken
    request.newRecipients

/-- What `update_listing` checks before it updates. -/
def UpdateGuard (env : Env) (artist : Address) (_ : BatchUpdateListingInput) (w : World C) : Prop :=
  w.config.isPaused = false ∧ env.auth artist = true

section Updates

variable {artist : Address} {request : BatchUpdateListingInput}

theorem returns_requireBatchListing :
    Returns (requireBatchListing env i k) w l w' ↔ w.listing k = some l ∧ w = w' := by
  rw [requireBatchListing, loadListing, returns_view_bind]
  cases w.listing k with
  | none => simp
  | some l' => simp

/-- A check of the listing with this id, and what follows it. -/
theorem returns_batchListing_bind : Returns (requireBatchListing env i k >>= f) w a w' ↔
      ∃ l, w.listing k = some l ∧ Returns (f l) w a w' := by
  rw [returns_bind]
  constructor
  · rintro ⟨l, w1, hload, hrest⟩
    obtain ⟨hl, rfl⟩ := returns_requireBatchListing.mp hload
    exact ⟨l, hl, hrest⟩
  · rintro ⟨l, hl, hrest⟩
    exact ⟨l, w, returns_requireBatchListing.mpr ⟨hl, rfl⟩, hrest⟩

theorem returns_preflightUpdate : Returns (preflightUpdate host env artist i request) w u w' ↔
      (∃ l, UpdateCheck host artist request w l) ∧ w = w' := by
  simp only [returns_batchListing_bind, returns_view_bind,
    returns_check fun _ _ => returns_batchItemInvalidIf,
    returns_check fun _ _ => returns_validateTokenAsset, returns_batchItemInvalidIf]
  constructor
  · rintro ⟨l, hl, hactive, hartist, hoffers, hprice, hbounds, hasset, htoken, hsome, hfew, hfault, rfl⟩
    refine ⟨⟨l, hl, not_not.mp hartist, not_not.mp hactive, ?_, by omega, by simpa using hbounds, hasset,
      by simpa using htoken, ?_, by omega, by simpa using hfault⟩, rfl⟩
    · exact List.length_eq_zero_iff.mp (by omega)
    · exact fun hnil => hsome (by rw [hnil]; rfl)
  · rintro ⟨⟨l, hl, hartist, hactive, hoffers, hprice, hbounds, hasset, htoken, hrecipients⟩, rfl⟩
    have hsome : request.newRecipients.length ≠ 0 := fun hzero =>
      hrecipients.nonempty (List.length_eq_zero_iff.mp hzero)
    have hfew := hrecipients.few
    exact ⟨l, hl, by simpa using hactive, by simpa using hartist, by simp [hoffers], by omega,
      by simpa using hbounds, hasset, by simpa using htoken, hsome, by omega,
      by simp [hrecipients.faultless], rfl⟩

/-- What is updated has passed the checks of the preflight; the listing is saved with its new terms. -/
theorem updateListingInner_checked (h : Returns (updateListingInner host env artist request) w r w') :
    ∃ l, UpdateCheck host artist request w l ∧
      w'.config = w.config ∧ w'.listingPendingOffers = w.listingPendingOffers ∧
      w'.listing = Function.update w.listing l.listingId (some { l with
        price := request.newPrice, token := request.newToken,
        recipients := request.newRecipients }) := by
  have hconfig : w'.config = w.config := Preserves.eq h
  have hwrites : Writes [.listing, .events] (updateListingInner host env artist request) := inferInstance
  have hpending : w'.listingPendingOffers = w.listingPendingOffers :=
    hwrites.get_eq h (i := .listingPendingOffers) (by decide)
  obtain ⟨l, hl, h⟩ := returns_requireListing_bind.mp h
  rw [returns_abortIf_bind, returns_abortIf_bind, loadPendingOfferIds, returns_view_bind,
    returns_abortIf_bind, returns_abortIf_bind, returns_check fun _ _ => returns_assertPricePolicy,
    returns_check fun _ _ => returns_validateTokenAsset,
    returns_check fun _ _ => returns_assertTokenPolicyActive,
    returns_check fun _ _ => returns_requireRecipientCount,
    returns_check fun _ _ => returns_validateRecipients] at h
  obtain ⟨hartist, hactive, hoffers, hprice, hbounds, hasset, htoken, ⟨hsome, hfew⟩, hfaultless, h⟩ := h
  refine ⟨l, ⟨hl, not_not.mp hartist, not_not.mp hactive, ?_, by omega, hbounds, hasset, htoken, hsome,
    hfew, hfaultless⟩, hconfig, hpending, ?_⟩
  · exact List.length_eq_zero_iff.mp (by omega)
  · replace h := h.write
    exact congrArg Register.get (h.last (f := World.catalogue) rfl)

theorem returns_updateListing : Returns (updateListing host env artist request) w r w' ↔
      UpdateGuard env artist request w ∧
        Returns (updateListingInner host env artist request) w r w' := by
  rw [updateListing, returns_check fun _ _ => returns_requireNotPaused, returns_abortIf_bind,
    UpdateGuard, and_assoc, Bool.not_eq_false]

/-- Updates in two phases: an update changes price, token and recipients of a listing, and no check reads
those. -/
theorem twoPhase_update (host : Host C) (env : Env) (artist : Address) :
    TwoPhase World.ListingsStored (UpdateGuard env artist)
      (fun request w => ∃ l, UpdateCheck host artist request w l) (updateListing host env artist)
      (updateListingInner host env artist) where
  single_iff := returns_updateListing
  keeps {request w _ w'} hw h := by
    obtain ⟨l, -, -, -, hlisting⟩ := updateListingInner_checked h
    intro k l' hl'
    rw [hlisting, update_apply] at hl'
    split at hl'
    · rename_i hk
      cases hl'
      exact hk.symm
    · exact hw k l' hl'
  guard_iff _ h := by
    rw [UpdateGuard, UpdateGuard, Preserves.eq (f := World.config) h]
  checked _ h := by
    obtain ⟨l, hcheck, -⟩ := updateListingInner_checked h
    exact ⟨l, hcheck⟩
  check_before {_ other w _ w'} hw h := by
    rintro ⟨l', hcheck⟩
    obtain ⟨l, hbefore, hconfig, hpending, hlisting⟩ := updateListingInner_checked h
    obtain ⟨hl', hartist, hactive, hoffers, hterms⟩ := hcheck
    rw [hconfig] at hterms
    rw [hpending] at hoffers
    rw [hlisting, update_apply] at hl'
    split at hl'
    · -- the listing that was just updated, which is stored under its own id
      rename_i hk
      cases hl'
      have hstored := hbefore.stored
      rw [← hw _ l hstored, ← hk] at hstored
      exact ⟨l, hstored, hartist, hactive, hoffers, hterms⟩
    · exact ⟨l', hl', hartist, hactive, hoffers, hterms⟩

theorem returns_updateListings {rs : List Bool}
    (hsome : requests ≠ []) (hcap : requests.length ≤ maxBatchCreate) :
    Returns (updateListings host env artist requests) w rs w' ↔
      (∀ request ∈ requests, UpdateGuard env artist request w ∧
        ∃ l, UpdateCheck host artist request w l) ∧
        Returns (collect (updateListingInner host env artist) requests) w rs w' := by
  have hpreflight (u : Unit) (w1 : World C) :
      Returns (each (fun p => preflightUpdate host env artist p.2 p.1) requests.zipIdx) w u w1 ↔
        (∀ request ∈ requests, ∃ l, UpdateCheck host artist request w l) ∧ w = w1 :=
    returns_each_check_zipIdx (fun request w => ∃ l, UpdateCheck host artist request w l)
      fun _ _ _ _ => returns_preflightUpdate
  rw [updateListings, returns_check fun _ _ => returns_requireNotPaused, returns_abortIf_bind,
    returns_abortIf_bind, returns_check hpreflight]
  constructor
  · rintro ⟨hpaused, hauth, -, hall, h⟩
    exact ⟨fun request hmem => ⟨⟨hpaused, by simpa using hauth⟩, hall request hmem⟩, h⟩
  · rintro ⟨hall, h⟩
    obtain ⟨request, hmem⟩ := List.exists_mem_of_ne_nil requests hsome
    obtain ⟨hpaused, hauth⟩ := (hall request hmem).1
    exact ⟨hpaused, by simpa using hauth, by omega, fun request hmem => (hall request hmem).2, h⟩

end Updates

/-! ### Cancellation -/

/-- What a cancellation asks of the listing. -/
def CancelCheck (owner : Address) (k : Nat) (w : World C) : Prop :=
  ∃ l, w.listing k = some l ∧ l.status = .active ∧ l.artist = owner

section Cancellation

variable {owner : Address} {k : Nat}

theorem returns_preflightCancel :
    Returns (preflightCancel env owner i k) w u w' ↔ CancelCheck owner k w ∧ w = w' := by
  simp only [returns_batchListing_bind,
    returns_check fun _ _ => returns_batchItemInvalidIf, returns_batchItemInvalidIf]
  constructor
  · rintro ⟨l, hl, hactive, howner, rfl⟩
    exact ⟨⟨l, hl, not_not.mp hactive, not_not.mp howner⟩, rfl⟩
  · rintro ⟨⟨l, hl, hactive, howner⟩, rfl⟩
    exact ⟨l, hl, by simpa using hactive, by simpa using howner, rfl⟩

/-- What is cancelled has passed the checks of the preflight, and is saved as cancelled. -/
theorem cancelListingInner_checked (h : Returns (cancelListingInner host env owner k) w u w') :
    CancelCheck owner k w ∧ ∃ l : Listing,
      w'.listing = Function.update w.listing l.listingId (some { l with status := .cancelled }) := by
  obtain ⟨l, hl, h⟩ := returns_requireListing_bind.mp h
  rw [returns_abortIf_bind, returns_abortIf_bind] at h
  obtain ⟨howner, hactive, h⟩ := h
  refine ⟨⟨l, hl, not_not.mp hactive, not_not.mp howner⟩, l, ?_⟩
  obtain ⟨_, w1, e, h⟩ := h.skip (f := World.catalogue) rfl
  have hlisting : w1.listing = w.listing := congrArg Register.get e
  rw [← hlisting]
  exact transitionListingToCancelled_listing h

theorem returns_cancelListing :
    Returns (cancelListing host env owner k) w r w' ↔ env.auth owner = true ∧
        Returns (do cancelListingInner host env owner k; pure true) w r w' := by
  rw [cancelListing, returns_abortIf_bind, Bool.not_eq_false]

/-- Cancellation in two phases: what is active after a cancellation was so before. -/
theorem twoPhase_cancel (host : Host C) (env : Env) (owner : Address) :
    TwoPhase (fun _ => True) (fun _ _ => env.auth owner = true) (CancelCheck owner)
      (cancelListing host env owner)
      (fun k => (do cancelListingInner host env owner k; pure true : Tx C Bool)) where
  single_iff := returns_cancelListing
  keeps _ _ := trivial
  guard_iff _ _ := Iff.rfl
  checked _ h := by
    obtain ⟨w1, h, -⟩ := h.seq
    exact (cancelListingInner_checked h).1
  check_before {_ other w _ w'} _ h := by
    rintro ⟨l', hl', hactive, howner⟩
    obtain ⟨w1, hcancel, hdone⟩ := h.seq
    obtain ⟨-, rfl⟩ := hdone.pure
    obtain ⟨-, l, hlisting⟩ := cancelListingInner_checked hcancel
    rw [hlisting, update_apply] at hl'
    split at hl'
    · cases hl'
      cases hactive
    · exact ⟨l', hl', hactive, howner⟩

theorem returns_cancelListings (hsome : ks ≠ [])
    (hcap : ks.length ≤ maxBatchCancel) : Returns (cancelListings host env owner ks) w n w' ↔
      (∀ k ∈ ks, env.auth owner = true ∧ CancelCheck owner k w) ∧ n = ks.length ∧
        Returns (each (cancelListingInner host env owner) ks) w () w' := by
  have hpreflight (u : Unit) (w1 : World C) :
      Returns (each (fun p => preflightCancel env owner p.2 p.1) ks.zipIdx) w u w1 ↔
        (∀ k ∈ ks, CancelCheck owner k w) ∧ w = w1 :=
    returns_each_check_zipIdx _ fun _ _ _ _ => returns_preflightCancel
  rw [cancelListings, returns_abortIf_bind, returns_abortIf_bind, returns_check hpreflight, returns_seq]
  constructor
  · rintro ⟨hauth, -, hall, w1, h, hdone⟩
    obtain ⟨rfl, rfl⟩ := hdone.pure
    exact ⟨fun k hk => ⟨by simpa using hauth, hall k hk⟩, rfl, h⟩
  · rintro ⟨hall, rfl, h⟩
    obtain ⟨k, hk⟩ := List.exists_mem_of_ne_nil ks hsome
    exact ⟨by simpa using (hall k hk).1, by omega, fun k hk => (hall k hk).2, w', h,
      returns_pure.mpr ⟨rfl, rfl⟩⟩

end Cancellation

/-! ### Batches -/

theorem step_of_aborts (h : ∀ w', ¬ Returns (op.exec host env) w () w') :
    step host w (.call env op) = w := by
  rcases step_call host w env op with ⟨w', hreturns, -⟩ | heq
  · exact (h w' hreturns).elim
  · exact heq

/-- Every listing of a reachable state is stored under its own id. -/
theorem Reachable.listingsStored (hreach : Reachable host w) : w.ListingsStored :=
  fun _ _ hl => hreach.keyed.catalogue.id_eq hl

/-- **Batches are sequences.** A batch that is not empty and within the cap returns exactly when its items,
given to the single operation one after the other, all return; it then returns the same results and leaves
the same state. When one of them does not return, the batch changes nothing. -/
theorem batches_equal_singles (host : Host C) (env : Env) (w : World C) :
    (host.TypesFixed → ∀ artist requests, requests ≠ [] → requests.length ≤ maxBatchCreate →
      (∀ ids w', Returns (createListings host env artist requests) w ids w' ↔
        Returns (Call.collect (createListing host env artist) requests) w ids w') ∧
      ((∀ ids w', ¬ Returns (Call.collect (createListing host env artist) requests) w ids w') →
        step host w (.call env (.listing (.createListings artist requests))) = w)) ∧
    (w.ListingsStored → ∀ artist requests, requests ≠ [] → requests.length ≤ maxBatchCreate →
      (∀ rs w', Returns (updateListings host env artist requests) w rs w' ↔
        Returns (Call.collect (updateListing host env artist) requests) w rs w') ∧
      ((∀ rs w', ¬ Returns (Call.collect (updateListing host env artist) requests) w rs w') →
        step host w (.call env (.listing (.updateListings artist requests))) = w)) ∧
    (∀ owner ks, ks ≠ [] → ks.length ≤ maxBatchCancel →
      (∀ n w', Returns (cancelListings host env owner ks) w n w' ↔
        n = ks.length ∧ ∃ rs, Returns (Call.collect (cancelListing host env owner) ks) w rs w') ∧
      ((∀ rs w', ¬ Returns (Call.collect (cancelListing host env owner) ks) w rs w') →
        step host w (.call env (.listing (.cancelListings owner ks))) = w)) := by
  refine ⟨fun _ artist requests hsome hcap => ?_, fun hstored artist requests hsome hcap => ?_,
    fun owner ks hsome hcap => ?_⟩
  · have hequal (ids : List Nat) (w' : World C) :
        Returns (createListings host env artist requests) w ids w' ↔
          Returns (collect (createListing host env artist) requests) w ids w' := by
      rw [returns_createListings hsome hcap, (twoPhase_create host env artist).returns_collect trivial]
    refine ⟨hequal, fun hnone => step_of_aborts fun w' h => ?_⟩
    obtain ⟨ids, h⟩ := h.discard
    exact hnone ids w' ((hequal ids w').mp h)
  · have hequal (rs : List Bool) (w' : World C) :
        Returns (updateListings host env artist requests) w rs w' ↔
          Returns (collect (updateListing host env artist) requests) w rs w' := by
      rw [returns_updateListings hsome hcap, (twoPhase_update host env artist).returns_collect hstored]
    refine ⟨hequal, fun hnone => step_of_aborts fun w' h => ?_⟩
    obtain ⟨rs, h⟩ := h.discard
    exact hnone rs w' ((hequal rs w').mp h)
  · have hequal (n : Nat) (w' : World C) :
        Returns (cancelListings host env owner ks) w n w' ↔ n = ks.length ∧
            ∃ rs, Returns (collect (cancelListing host env owner) ks) w rs w' := by
      simp only [returns_cancelListings hsome hcap,
        (twoPhase_cancel host env owner).returns_collect trivial, returns_collect_const]
      constructor
      · rintro ⟨hall, hn, h⟩
        exact ⟨hn, _, hall, rfl, h⟩
      · rintro ⟨hn, rs, hall, -, h⟩
        exact ⟨hall, hn, h⟩
    refine ⟨hequal, fun hnone => step_of_aborts fun w' h => ?_⟩
    obtain ⟨n, h⟩ := h.discard
    obtain ⟨-, rs, h⟩ := (hequal n w').mp h
    exact hnone rs w' h

instance (self : Address) : (Host.accepting self owner).TypesFixed where
  view h := by cases h
  ownerOf _ := rfl
  transferFrom _ := rfl

/-- A request to list a token of one collection. -/
def listToken (tokenId : Nat) : BatchCreateListingInput :=
  ⟨1000000, "XLM", ⟨50⟩, ⟨60⟩, tokenId, 1, [⟨⟨10⟩, 10000⟩], none⟩

/-- An artist lists two tokens. -/
def twoListed : List (Step Unit) :=
  [.call (.signedBy ⟨10⟩ 100) (.listing (.createListings ⟨10⟩ [listToken 7, listToken 8]))]

/-- Where two tokens are listed, a third is listed, the first is updated twice and both are cancelled, by
single calls as by batches. -/
theorem batches_equal_singles_twoListed :
    let host := Host.accepting ⟨0⟩ ⟨10⟩
    let env := Env.signedBy ⟨10⟩ 200
    let w := run host (.fresh (fundedBidders ⟨0⟩) ()) twoListed
    let update (price : Int) : BatchUpdateListingInput := ⟨1, price, ⟨50⟩, [⟨⟨10⟩, 10000⟩]⟩
    (∃ w', Returns (Call.collect (createListing host env ⟨10⟩) [listToken 9]) w [3] w') ∧
    (∃ w', Returns (Call.collect (updateListing host env ⟨10⟩) [update 5, update 6]) w [true, true] w') ∧
    ∃ rs w', Returns (Call.collect (cancelListing host env ⟨10⟩) [1, 2]) w rs w' := by
  intro host env w update
  have hstored : w.ListingsStored := (reachable_run host (fundedBidders ⟨0⟩) () twoListed).listingsStored
  obtain ⟨hcreate, hupdate, hcancel⟩ := batches_equal_singles host env w
  refine ⟨?_, ?_, ?_⟩
  · obtain ⟨ids, w', h, hids⟩ := exists_returns (c := createListings host env ⟨10⟩ [listToken 9]) (s := w)
      (p := fun ids _ => decide (ids = [3])) (by decide +kernel)
    obtain rfl : ids = [3] := of_decide_eq_true hids
    exact ⟨w', ((hcreate inferInstance ⟨10⟩ _ (by decide) (by decide)).1 _ w').mp h⟩
  · obtain ⟨rs, w', h, hrs⟩ := exists_returns (c := updateListings host env ⟨10⟩ [update 5, update 6])
      (s := w) (p := fun rs _ => decide (rs = [true, true])) (by decide +kernel)
    obtain rfl : rs = [true, true] := of_decide_eq_true hrs
    exact ⟨w', ((hupdate hstored ⟨10⟩ _ (by simp) (by decide)).1 _ w').mp h⟩
  · obtain ⟨n, w', h, -⟩ := exists_returns (c := cancelListings host env ⟨10⟩ [1, 2]) (s := w)
      (p := fun n _ => decide (n = 2)) (by decide +kernel)
    obtain ⟨-, rs, hrs⟩ := ((hcancel ⟨10⟩ _ (by decide) (by decide)).1 _ w').mp h
    exact ⟨rs, w', hrs⟩

end ElcareHub.Marketplace
