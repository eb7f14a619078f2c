import ElcareHub.Collections.LazyMint721.Tokens

/-!
# Single use of vouchers in LazyMint721

Every redemption is on record in the events, with the nonce of its voucher. A nonce counts as used when
it is on record (`Register.Recorded`), and a used nonce is never revoked, nor a revoked one used. That no
nonce is on record twice is kept by a redemption exactly when the vouchers it presents have distinct
nonces (`Tokens.Redeems.nodup_nonces_iff`). `redeem` presents one voucher; `redeem_batch` compares the
token ids of its vouchers and not their nonces, and checks all of them before it marks the first, so
it consumes a nonce as often as the batch repeats it.
-/

namespace ElcareHub

open Collection Call

/-! ### The register -/

namespace Collection.Register

/-- The nonces on record, one entry for every redemption. -/
def nonces (r : Register) : List Nat := r.redemptions.map Redemption.nonce

/-- The used nonces are those on record, and none of them is revoked. -/
structure Recorded (r : Register) : Prop where
  used : ∀ n, r.used n = true ↔ n ∈ r.nonces
  unrevoked : ∀ n ∈ r.nonces, r.revoked n = false

variable {r : Register} {xs : List Redemption}

theorem redemptions_foldl_redeem : (xs.foldl redeem r).redemptions = r.redemptions ++ xs := by
  induction xs generalizing r with
  | nil => simp
  | cons x xs ih =>
    rw [List.foldl_cons, ih]
    simp [redeem]

theorem revoked_foldl_redeem : (xs.foldl redeem r).revoked = r.revoked := by
  induction xs generalizing r with
  | nil => rfl
  | cons x xs ih => exact ih

theorem nonces_foldl_redeem (r : Register) (xs : List Redemption) :
    (xs.foldl redeem r).nonces = r.nonces ++ xs.map Redemption.nonce := by
  rw [nonces, redemptions_foldl_redeem, List.map_append]
  rfl

/-- One redemption, of a nonce that is not revoked. -/
theorem Recorded.redeem (h : r.Recorded) (hx : r.revoked x.nonce = false) :
    (r.redeem x).Recorded := by
  have hnonces : (r.redeem x).nonces = r.nonces ++ [x.nonce] := nonces_foldl_redeem r [x]
  refine ⟨fun n => ?_, fun n hn => ?_⟩
  · rw [hnonces, List.mem_append, ← h.used n]
    change Function.update r.used x.nonce true n = true ↔ _
    by_cases hn : n = x.nonce <;> simp [hn]
  · rw [hnonces, List.mem_append, List.mem_singleton] at hn
    obtain hold | rfl := hn
    · exact h.unrevoked n hold
    · exact hx

theorem Recorded.foldl_redeem (h : r.Recorded) (hxs : ∀ x ∈ xs, r.revoked x.nonce = false) :
    (xs.foldl Register.redeem r).Recorded := by
  induction xs generalizing r with
  | nil => exact h
  | cons x xs ih =>
    obtain ⟨hx, hrest⟩ := List.forall_mem_cons.mp hxs
    exact ih (h.redeem hx) hrest

/-- Revocation of unused nonces. -/
theorem Recorded.revoke (h : r.Recorded) (hunused : ∀ n ∈ ns, r.used n = false) :
    (r.revoke ns).Recorded := by
  refine ⟨h.used, fun n hn => ?_⟩
  have hnew : n ∉ ns := fun hmem => by
    have hfalse := hunused n hmem
    rw [(h.used n).mpr hn] at hfalse
    cases hfalse
  change (decide (n ∈ ns) || r.revoked n) = false
  rw [decide_eq_false hnew]
  exact h.unrevoked n hn

/-- No nonce is recorded twice after a redemption of live nonces, exactly when it was so before and
the nonces are distinct. -/
theorem Recorded.nodup_nonces_iff (h : r.Recorded) (hlive : ∀ x ∈ xs, r.Live x.nonce) :
    (xs.foldl Register.redeem r).nonces.Nodup ↔ r.nonces.Nodup ∧ (xs.map Redemption.nonce).Nodup := by
  rw [nonces_foldl_redeem, List.nodup_append]
  refine ⟨fun hall => ⟨hall.1, hall.2.1⟩, fun hboth => ⟨hboth.1, hboth.2, ?_⟩⟩
  rintro n hold m hnew rfl
  obtain ⟨x, hx, rfl⟩ := List.mem_map.mp hnew
  have hunused := (hlive x hx).1
  rw [(h.used x.nonce).mpr hold] at hunused
  cases hunused

end Collection.Register

namespace LazyMint721

/-! ### Moves -/

namespace Tokens

variable {t t' : Tokens} {vs : List MintVoucher}

theorem register_foldl_redeem (vs : List MintVoucher) (buyer : Address) (t : Tokens) :
    (vs.foldl (mint buyer) t).register =
      (vs.map (MintVoucher.redemption buyer)).foldl Register.redeem t.register := by
  induction vs generalizing t with
  | nil => rfl
  | cons v vs ih => exact ih _

theorem live_redemption {r : Register} (buyer : Address) (h : ∀ v ∈ vs, r.Live v.nonce) :
    ∀ x ∈ vs.map (MintVoucher.redemption buyer), r.Live x.nonce := by
  intro x hx
  obtain ⟨v, hv, rfl⟩ := List.mem_map.mp hx
  exact h v hv

/-- **When a redemption repeats no nonce.** -/
theorem Redeems.nodup_nonces_iff (h : Redeems vs t t') (ht : t.register.Recorded) :
    t'.register.nonces.Nodup ↔ t.register.nonces.Nodup ∧ (vs.map MintVoucher.nonce).Nodup := by
  obtain ⟨buyer, rfl⟩ := h.mints
  rw [register_foldl_redeem, ht.nodup_nonces_iff (live_redemption buyer h.live), List.map_map]
  rfl

theorem Move.recorded (hm : t.Move vs t') (h : t.register.Recorded) : t'.register.Recorded := by
  cases hm with
  | skip => exact h
  | setUp => exact ⟨h.used, h.unrevoked⟩
  | redeem hr =>
    obtain ⟨buyer, rfl⟩ := hr.mints
    rw [register_foldl_redeem]
    exact h.foldl_redeem fun x hx => (live_redemption buyer hr.live x hx).2
  | revoke nonces hunused => exact h.revoke hunused
  | transfer => exact h

theorem Move.nodup_nonces (hm : t.Move vs t') (ht : t.register.Recorded) (h : t.register.nonces.Nodup)
    (hdistinct : (∀ v ∈ vs, t.register.Live v.nonce) → (vs.map MintVoucher.nonce).Nodup) :
    t'.register.nonces.Nodup := by
  cases hm with
  | redeem hr => exact (hr.nodup_nonces_iff ht).mpr ⟨h, hdistinct hr.live⟩
  | skip | setUp | revoke | transfer => exact h

/-- What is revoked stays revoked. -/
theorem Move.revoked (hm : t.Move vs t') (h : t.register.revoked n = true) :
    t'.register.revoked n = true := by
  cases hm with
  | redeem hr =>
    obtain ⟨buyer, rfl⟩ := hr.mints
    rw [register_foldl_redeem, Register.revoked_foldl_redeem]
    exact h
  | revoke nonces =>
    change (decide (n ∈ nonces) || t.register.revoked n) = true
    rw [h, Bool.or_true]
  | skip | setUp | transfer => exact h

/-- What is on record stays on record. -/
theorem Move.nonces (hm : t.Move vs t') (h : n ∈ t.register.nonces) : n ∈ t'.register.nonces := by
  cases hm with
  | redeem hr =>
    obtain ⟨buyer, rfl⟩ := hr.mints
    rw [register_foldl_redeem, Register.nonces_foldl_redeem]
    exact List.mem_append_left _ h
  | skip | setUp | revoke | transfer => exact h

end Tokens

/-! ### Runs -/

/-- The redemptions so far: one `redeemed` event for every token minted. -/
def State.redemptions (s : State) : List Redemption :=
  s.lazyBase.base.events.filterMap Event.redemption

/-- The vouchers an invocation presents, if they are all live, have distinct nonces. -/
def DistinctNonces (s : State) (call : Env × Op) : Prop :=
  (∀ v ∈ call.2.vouchers, s.lazyBase.register.Live v.nonce) →
    (call.2.vouchers.map MintVoucher.nonce).Nodup

variable {dep : Deployment} {s : State} {calls : List (Env × Op)}

theorem recorded_run (h : s.tokens.register.Recorded) : (run dep s calls).tokens.register.Recorded :=
  Run.invariant (I := fun s => s.tokens.register.Recorded) h
    fun s call hs => (step_moves dep s call).recorded hs

theorem nodup_nonces_run (hrun : Run.Along (step dep) DistinctNonces s calls)
    (hrecorded : s.tokens.register.Recorded) (h : s.tokens.register.nonces.Nodup) :
    (run dep s calls).tokens.register.nonces.Nodup :=
  hrun.invariant_of hrecorded (fun s call hs => (step_moves dep s call).recorded hs) h
    fun s call hr hs hdistinct => (step_moves dep s call).nodup_nonces hr hs hdistinct

theorem recorded_fresh (balances : Address × Address → Int) :
    (State.fresh balances).tokens.register.Recorded :=
  ⟨fun _ => by simp [State.fresh, State.tokens, LazyBase.fresh, LazyBase.register, Base.fresh,
    Register.nonces], fun _ hn => by cases hn⟩

/-- **Vouchers are used once.** In a run in which no invocation presents two live vouchers of one nonce,
in the state `s'` reached, no nonce has been redeemed twice; a nonce that was revoked in an earlier state
`s` has not been redeemed, and one that was redeemed there is not revoked. A batch that fails changes
nothing. -/
theorem voucher_single_use (dep : Deployment) (balances : Address × Address → Int)
    (calls later : List (Env × Op))
    (h : Run.Along (step dep) DistinctNonces (.fresh balances) (calls ++ later)) :
    let s := run dep (.fresh balances) calls
    let s' := run dep s later
    (s'.redemptions.map Redemption.nonce).Nodup ∧
      (∀ n, s.lazyBase.revokedVoucher n = true → ∀ x ∈ s'.redemptions, x.nonce ≠ n) ∧
        (∀ x ∈ s.redemptions, s'.lazyBase.revokedVoucher x.nonce = false) ∧
          ∀ env buyer items e, redeemBatch dep env buyer items s' = .error e →
            step dep s' (env, .redeemBatch buyer items) = s' := by
  intro s s'
  obtain ⟨hcalls, hlater⟩ := Run.along_append.mp h
  have hrecorded : s.tokens.register.Recorded := recorded_run (recorded_fresh balances)
  have hrecorded' : s'.tokens.register.Recorded := recorded_run hrecorded
  have hnodup : s.tokens.register.nonces.Nodup :=
    nodup_nonces_run hcalls (recorded_fresh balances) List.nodup_nil
  refine ⟨nodup_nonces_run hlater hrecorded hnodup, fun n hn x hx => ?_, fun x hx => ?_, ?_⟩
  · rintro rfl
    have hrevoked : s'.tokens.register.revoked x.nonce = true :=
      Run.invariant (I := fun s => s.tokens.register.revoked x.nonce = true) hn
        fun s call hs => (step_moves dep s call).revoked hs
    rw [hrecorded'.unrevoked x.nonce (List.mem_map_of_mem hx)] at hrevoked
    cases hrevoked
  · exact hrecorded'.unrevoked x.nonce (Run.invariant (I := fun s => _ ∈ s.tokens.register.nonces)
      (List.mem_map_of_mem hx) fun s call hs => (step_moves dep s call).nonces hs)
  · intro env buyer items e hfail
    have hexec : (Op.redeemBatch buyer items).exec dep env s' = .error e := by
      change andThen _ _ s' = _
      rw [andThen, hfail]
    rw [step, hexec]

/-- A voucher is redeemed and another one revoked; a batch that presents the first one again fails. -/
def usedAndRevoked : List (Env × Op) :=
  onSale ++ [redeemBy ⟨20⟩ (freeVoucher 5 0), (.signedBy ⟨1⟩ 100, .revokeVoucher 6),
    (.signedBy ⟨20⟩ 100, .redeemBatch ⟨20⟩ [signed (freeVoucher 5 1), signed (freeVoucher 7 2)])]

theorem voucher_single_use_usedAndRevoked :
    let s := run collection (.fresh fun _ => 0) usedAndRevoked
    s.redemptions = [⟨⟨20⟩, 0, 5, 1⟩] ∧ s.lazyBase.revokedVoucher 6 = true ∧
      (s.redemptions.map Redemption.nonce).Nodup ∧ ∀ x ∈ s.redemptions, x.nonce ≠ 6 := by
  intro s
  have hrun : Run.Along (step collection) DistinctNonces (.fresh fun _ => 0)
      (usedAndRevoked ++ []) := by
    simp [usedAndRevoked, onSale, redeemBy, DistinctNonces, Op.vouchers, signed, freeVoucher]
  have hrevoked : s.lazyBase.revokedVoucher 6 = true := by decide +kernel
  obtain ⟨hnodup, hunredeemed, -⟩ := voucher_single_use collection _ usedAndRevoked [] hrun
  exact ⟨by decide +kernel, hrevoked, hnodup, hunredeemed 6 hrevoked⟩

/-- A batch of two vouchers that share a nonce mints both tokens. -/
theorem batch_redeems_nonce_twice :
    let s := run collection (.fresh fun _ => 0)
      (onSale ++ [(.signedBy ⟨20⟩ 100,
        .redeemBatch ⟨20⟩ [signed (freeVoucher 5 0), signed (freeVoucher 5 1)])])
    s.redemptions = [⟨⟨20⟩, 0, 5, 1⟩, ⟨⟨20⟩, 1, 5, 1⟩] ∧ s.owner 0 = some ⟨20⟩ ∧ s.owner 1 = some ⟨20⟩ ∧
      ¬ (s.redemptions.map Redemption.nonce).Nodup := by
  refine ⟨by decide +kernel, by decide +kernel, by decide +kernel, by decide +kernel⟩

end LazyMint721

end ElcareHub
