import ElcareHub.Marketplace.Refine.Steps

/-!
# The token whitelist

The whitelist is kept in four places: an entry for each token that was ever added, a counter, a table from
ids to tokens, and a paged index of the ids. All four describe one list of tokens
(`World.Registers`), to which `add_token_to_whitelist` appends a token it has not seen before. A token that
is removed keeps its entry and its place, so the two verdicts on a token and the two listings of the
active ones all read the same list.
-/

namespace ElcareHub.Marketplace

open Call Function

set_option synthInstance.maxSize 100000000

variable {C : Type} {host : Host C} {env : Env} {w w' : World C} {u : Unit}
variable {token : Address} {tokens : List Address} {start : Nat}

/-! ### Views -/

def isTokenWhitelisted (config : Config) (token : Address) : Bool :=
  if config.tokenWhitelistCount = 0 then true
  else (config.tokenWhitelistEntry token).any TokenWhitelistEntry.active

/-- The loop of `get_token_registry_range` and `get_all_token_registry`. -/
def activeTokens (config : Config) (ids : List Nat) : List Address :=
  ids.filterMap fun id => (config.tokenWhitelistId id).filter (isTokenWhitelisted config)

/-- `get_whitelisted_tokens`; `none` when a page of the index lacks a slot. -/
def getWhitelistedTokens (w : World C) : Option (List Address) :=
  (w.index .tokenWhitelist).all.map (activeTokens w.config)

def getWhitelistedTokensPaginated (w : World C) (start limit : Nat) : Option (List Address) :=
  ((w.index .tokenWhitelist).range start limit).map (activeTokens w.config)

/-- Pages of the sizes `limits`, each beginning where the one before it ends. -/
def tiles (start : Nat) : List Nat → List (Nat × Nat)
  | [] => []
  | limit :: limits => (start, limit) :: tiles (start + limit) limits

/-! ### The registry as a list -/

/-- `tokens` are the tokens that were ever added, in the order of their ids. -/
structure World.Registers (w : World C) (tokens : List Address) : Prop where
  nodup : tokens.Nodup
  few : tokens.length ≤ u32Max
  count : w.config.tokenWhitelistCount = tokens.length
  ids : (List.range' 1 tokens.length).map w.config.tokenWhitelistId = tokens.map some
  index : (w.index .tokenWhitelist).Lists (List.range' 1 tokens.length)
  entry : ∀ t, (w.config.tokenWhitelistEntry t).isSome = true ↔ t ∈ tokens

namespace World.Registers

theorem index_len (h : w.Registers tokens) : (w.index .tokenWhitelist).len = tokens.length := by
  rw [h.index.len, List.length_range']

theorem paginated_eq (h : w.Registers tokens) (start limit : Nat) :
    getWhitelistedTokensPaginated w start limit =
      some (((tokens.drop start).take limit).filter (isTokenWhitelisted w.config)) := by
  have hids : (((List.range' 1 tokens.length).drop start).take limit).map
      w.config.tokenWhitelistId = ((tokens.drop start).take limit).map some := by
    rw [List.map_take, List.map_drop, h.ids, ← List.map_drop, ← List.map_take]
  have hloop (ids : List Nat) (segment : List Address)
      (heq : ids.map w.config.tokenWhitelistId = segment.map some) :
      activeTokens w.config ids = segment.filter (isTokenWhitelisted w.config) := by
    change List.filterMap (Option.filter _ ∘ w.config.tokenWhitelistId) ids = _
    rw [← List.filterMap_map, heq, List.filterMap_map, ← List.filterMap_eq_filter]
    rfl
  rw [getWhitelistedTokensPaginated, h.index.range_eq (by rw [List.length_range']; exact h.few),
    Option.map_some, hloop _ _ hids]

theorem tokens_eq (h : w.Registers tokens) :
    getWhitelistedTokens w = some (tokens.filter (isTokenWhitelisted w.config)) := by
  have hall := h.paginated_eq 0 tokens.length
  rw [List.drop_zero, List.take_length] at hall
  rw [← hall, ← h.index_len]
  rfl

theorem tiles_eq (h : w.Registers tokens)
    (htiled : tokens.length ≤ start + limits.sum) :
    ((tiles start limits).mapM fun page => getWhitelistedTokensPaginated w page.1 page.2).map
      List.flatten = some ((tokens.drop start).filter (isTokenWhitelisted w.config)) := by
  induction limits generalizing start with
  | nil =>
    rw [List.sum_nil, Nat.add_zero] at htiled
    rw [List.drop_eq_nil_of_le htiled]
    rfl
  | cons limit limits ih =>
    rw [List.sum_cons, ← Nat.add_assoc] at htiled
    obtain ⟨pages, hpages, hrest⟩ := Option.map_eq_some_iff.mp (ih htiled)
    rw [tiles, List.mapM_cons, h.paginated_eq, hpages]
    change some (_ ++ pages.flatten) = _
    rw [hrest, ← List.filter_append, ← List.drop_drop, List.take_append_drop]

/-- Without a token on the list there is no entry. -/
theorem whitelisted_iff (h : w.Registers tokens) (t : Address) :
    isTokenWhitelisted w.config t = tokenAccepted w.config t ∧
      (t ∈ tokens ∧ isTokenWhitelisted w.config t = true ↔
        ∃ e, w.config.tokenWhitelistEntry t = some e ∧ e.active = true) := by
  have hcount : w.config.tokenWhitelistCount = 0 ↔ tokens = [] := by
    rw [h.count, List.length_eq_zero_iff]
  rw [← h.entry t]
  unfold isTokenWhitelisted tokenAccepted
  cases hentry : w.config.tokenWhitelistEntry t with
  | none => simp
  | some e =>
    have hne : w.config.tokenWhitelistCount ≠ 0 := by
      rw [Ne, hcount]
      rintro rfl
      have hmem := (h.entry t).mp (by rw [hentry]; rfl)
      cases hmem
    simp [hne]

/-! ### Calls -/

/-- What leaves the registry alone, and gives no further token an entry. -/
theorem stay (h : w.Registers tokens)
    (hcount : w'.config.tokenWhitelistCount = w.config.tokenWhitelistCount)
    (hid : w'.config.tokenWhitelistId = w.config.tokenWhitelistId)
    (hindex : w'.index .tokenWhitelist = w.index .tokenWhitelist)
    (hentry : ∀ t, (w'.config.tokenWhitelistEntry t).isSome =
      (w.config.tokenWhitelistEntry t).isSome) : w'.Registers tokens where
  nodup := h.nodup
  few := h.few
  count := hcount ▸ h.count
  ids := hid ▸ h.ids
  index := hindex ▸ h.index
  entry t := by
    rw [hentry]
    exact h.entry t

end World.Registers

/-- An entry that is there is written again. -/
theorem isSome_update {entry : Address → Option α} (h : entry token = some e)
    (t : Address) : (Function.update entry token (some e') t).isSome = (entry t).isSome := by
  rw [update_apply]
  split
  · rename_i heq
    rw [heq, h]
    rfl
  · rfl

theorem addTokenToWhitelist_registers (hw : w.Registers tokens)
    (h : Returns (addTokenToWhitelist host env admin token) w u w') :
    ∃ tokens', w'.Registers tokens' := by
  obtain ⟨_, h⟩ := h.pass
  obtain ⟨_, h⟩ := h.pass
  replace h := h.view
  cases hentry : w.config.tokenWhitelistEntry token with
  | some entry =>
    simp only [hentry] at h
    rcases returns_ite.mp h with ⟨-, h⟩ | ⟨-, h⟩
    · obtain ⟨-, rfl⟩ := h.pure
      exact ⟨tokens, hw⟩
    · replace h := h.write
      obtain rfl := h.update
      exact ⟨tokens, hw.stay rfl rfl rfl (isSome_update hentry)⟩
  | none =>
    simp only [hentry] at h
    replace h := h.write
    obtain ⟨w1, hregister, h⟩ := h.seq
    obtain rfl := h.update
    replace hregister := hregister.view
    obtain ⟨n, w2, hcount, hregister⟩ := hregister.bind
    obtain ⟨hn, rfl⟩ := returns_addU64 hcount
    obtain rfl : n = tokens.length + 1 := hn.trans (congrArg (· + 1) hw.count)
    replace hregister := hregister.write
    obtain ⟨ix, hix, rfl⟩ := returns_indexAppend hregister
    have hfull : (w.index .tokenWhitelist).len + 1 ≤ u32Max := by
      simp only [PagedIndex.append, Option.ite_none_right_eq_some] at hix
      exact hix.1
    have hnew : token ∉ tokens := by
      rw [← hw.entry, hentry]
      simp
    have hrange : List.range' 1 (tokens ++ [token]).length =
        List.range' 1 tokens.length ++ [tokens.length + 1] := by
      rw [List.length_append, List.length_singleton, List.range'_1_concat, Nat.add_comm 1]
    refine ⟨tokens ++ [token], ?_, ?_, ?_, ?_, ?_, fun t => ?_⟩
    · rw [← List.concat_eq_append]
      exact hw.nodup.concat hnew
    · rw [List.length_append, List.length_singleton, ← hw.index_len]
      exact hfull
    · rw [List.length_append, List.length_singleton]
    · rw [hrange, List.map_append, List.map_append, ← hw.ids]
      congr 1
      · refine List.map_congr_left fun i hi => update_of_ne ?_ ..
        have hlt := (List.mem_range'_1.mp hi).2
        omega
      · simp
    · simp only [update_self, hrange]
      exact hw.index.append hix
    · simp only [update_apply, List.mem_append, List.mem_singleton]
      by_cases heq : t = token
      · simp [heq]
      · simp [heq, hw.entry t]

theorem removeTokenFromWhitelist_registers (hw : w.Registers tokens)
    (h : Returns (removeTokenFromWhitelist env caller token) w u w') : w'.Registers tokens := by
  obtain ⟨_, h⟩ := h.pass
  rcases returns_onSome.mp h with ⟨entry, hentry, h⟩ | ⟨-, rfl⟩
  · rcases h.when with ⟨-, h⟩ | ⟨-, rfl⟩
    · obtain rfl := h.update
      exact hw.stay rfl rfl rfl (isSome_update hentry)
    · exact hw
  · exact hw

/-! ### Every other call -/

def World.tokenIndex (w : World C) : PagedIndex := w.index .tokenWhitelist

instance : Ignores (World.tokenIndex (C := C)) World.field besideIndexes where
  eq_of_outside h := index_of_history (h .history (by decide)) (by simp)

instance (f : Upkeep → Upkeep) : Preserves World.tokenIndex (modifyUpkeep f : Tx C Unit) :=
  .update fun _ => rfl

theorem tokenIndex_indexAppend {id : IndexId} (hid : .tokenWhitelist ≠ id) :
    Preserves World.tokenIndex (indexAppend id v : Tx C Unit) where
  eq h := by
    obtain ⟨ix, -, rfl⟩ := returns_indexAppend h
    exact update_of_ne hid ..

instance (artist : Address) (v : Nat) :
    Preserves World.tokenIndex (indexAppend (.artistListings artist) v : Tx C Unit) :=
  tokenIndex_indexAppend (by simp)

instance (creator : Address) (v : Nat) :
    Preserves World.tokenIndex (indexAppend (.artistAuctions creator) v : Tx C Unit) :=
  tokenIndex_indexAppend (by simp)

instance (listingId v : Nat) :
    Preserves World.tokenIndex (indexAppend (.listingOffers listingId) v : Tx C Unit) :=
  tokenIndex_indexAppend (by simp)

instance (offerer : Address) (v : Nat) :
    Preserves World.tokenIndex (indexAppend (.offererOffers offerer) v : Tx C Unit) :=
  tokenIndex_indexAppend (by simp)

/-- Only `add_token_to_whitelist` appends to the index. -/
theorem op_tokenIndex {op : Op} (hop : ∀ admin token, op ≠ .admin (.addTokenToWhitelist admin token))
    (hlegacy : w.legacy = .empty) (h : Returns (op.exec host env) w () w') :
    w'.tokenIndex = w.tokenIndex := by
  by_cases haside : op.AppendsAside
  · exact op_observation haside hlegacy h
  suffices Preserves World.tokenIndex (op.exec host env) from this.eq h
  unfold Op.AppendsAside at haside
  split at haside
  · unfold Op.exec ListingOp.exec
    infer_instance
  · unfold Op.exec ListingOp.exec
    infer_instance
  · unfold Op.exec ListingOp.exec cancelArtistListings
    infer_instance
  · unfold Op.exec AdminOp.exec Marketplace.reinstateArtist
    infer_instance
  · exact (hop _ _ rfl).elim
  · exact (haside trivial).elim

theorem op_registers {op : Op} (hlegacy : w.legacy = .empty) (h : Returns (op.exec host env) w () w')
    (hw : ∃ tokens, w.Registers tokens) : ∃ tokens, w'.Registers tokens := by
  obtain ⟨tokens, hw⟩ := hw
  by_cases hadd : ∃ admin token, op = .admin (.addTokenToWhitelist admin token)
  · obtain ⟨admin, token, rfl⟩ := hadd
    exact addTokenToWhitelist_registers hw h
  by_cases hremove : ∃ caller token, op = .admin (.removeTokenFromWhitelist caller token)
  · obtain ⟨caller, token, rfl⟩ := hremove
    exact ⟨tokens, removeTokenFromWhitelist_registers hw h⟩
  have hsets : Setting.whitelist ∉ op.sets := by
    cases op with
    | admin op => cases op <;> simp_all [Op.sets, AdminOp.sets]
    | _ => simp [Op.sets]
  have hsame := op_setting h hsets
  have hindex := op_tokenIndex (fun admin token heq => hadd ⟨admin, token, heq⟩) hlegacy h
  exact ⟨tokens, hw.stay (congrArg (·.2.1) hsame) (congrArg (·.2.2) hsame) hindex
    fun t => congrArg (fun entries => (entries.1 t).isSome) hsame⟩

theorem Reachable.registers (hreach : Reachable host w) : ∃ tokens, w.Registers tokens := by
  refine hreach.induction ?_ (fun env op w w' hreach h hw => op_registers hreach.keyed.legacy h hw) ?_
  · intro balances collections
    exact ⟨[], List.nodup_nil, Nat.zero_le _, rfl, rfl, PagedIndex.lists_empty,
      fun _ => by simp [World.fresh, Config.fresh]⟩
  · rintro w collections balances ⟨tokens, hw⟩
    exact ⟨tokens, hw.stay rfl rfl rfl fun _ => rfl⟩

/-- **The views agree.** After every run, the two verdicts on a token are the same; `get_whitelisted_tokens`
lists the tokens with an active entry, each once; and pages that cover the registry, each beginning where
the one before it ends, are together the same list. -/
theorem whitelist_views_agree (host : Host C) (balances : Address × Address → Int) (collections : C)
    (steps : List (Step C)) :
    let w := run host (.fresh balances collections) steps
    (∀ token, isTokenWhitelisted w.config token = tokenAccepted w.config token) ∧
      ∃ tokens, getWhitelistedTokens w = some tokens ∧ tokens.Nodup ∧ (∀ token, token ∈ tokens ↔
          ∃ e, w.config.tokenWhitelistEntry token = some e ∧ e.active = true) ∧
        ∀ limits, (w.index .tokenWhitelist).len ≤ limits.sum →
          ((tiles 0 limits).mapM fun page => getWhitelistedTokensPaginated w page.1 page.2).map
            List.flatten = some tokens := by
  intro w
  obtain ⟨tokens, hw⟩ := (reachable_run host balances collections steps).registers
  refine ⟨fun token => (hw.whitelisted_iff token).1, _, hw.tokens_eq, hw.nodup.filter _,
    fun token => ?_, fun limits htiled => ?_⟩
  · rw [List.mem_filter]
    exact (hw.whitelisted_iff token).2
  · rw [hw.index_len] at htiled
    rw [hw.tiles_eq (by rwa [Nat.zero_add]), List.drop_zero]

end ElcareHub.Marketplace
