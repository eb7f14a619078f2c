import ElcareHub.Launchpad.Agreement

/-!
# What a deployment returns

A deployment is identified by its creator and the salt; if it is asked for again, the address there is
is returned and nothing is paid. The key under which the address is kept is a hash of the two and of
nothing else: not of the kind, the name or the terms. Whoever asks with the same salt for a collection of
another kind is therefore given the one there is (`returns_kind_iff`). What identifies a deployment also
identifies its payment: in every run, every pair of creator and salt has been charged for exactly as
often as it has been deployed, which is once or never (`Paid`).
-/

namespace ElcareHub.Launchpad

open Call hiding update
open Collection Catalogue Function

variable {host : Host} {env : Env} {s s' : State} {t : Books} {p : Plan} {a : Address}
variable {receiver : Address} {start : Address × Address → Int} {log : List Charge} {op : Op}

/-! ### Salts -/

/-- Hashes do not collide, and encodings of addresses differ. -/
structure Host.CollisionFree (host : Host) : Prop where
  sha256 : Function.Injective host.crypto.sha256
  addressXdr : Function.Injective host.crypto.addressXdr

/-- The secure salt determines the creator and the salt: the latter is of fixed length. -/
theorem makeSecureSalt_inj (hhost : host.CollisionFree)
    (h : makeSecureSalt host c z = makeSecureSalt host c' z') : c = c' ∧ z = z' := by
  have hlength : z.val.length = z'.val.length := z.property.trans z'.property.symm
  obtain ⟨hcreator, hsalt⟩ := List.append_inj' (hhost.sha256 h) hlength
  exact ⟨hhost.addressXdr hcreator, Subtype.ext hsalt⟩

/-- Whatever is recorded for a salt is registered, for a creator that the salt is one of. -/
structure Issued (host : Host) (t : Books) : Prop where
  salts : ∀ {salt a}, t.saltAddress salt = some a → ∃ rec z, t.views.byKey a = some rec ∧
    salt = makeSecureSalt host rec.creator z
  taken : ∀ {a}, (t.views.byKey a).isSome = true → t.contracts a = true

/-! ### Charges -/

/-- What a call charges, if it deploys a collection. -/
def charges (host : Host) (s : State) (call : Env × Op) : List Charge :=
  match call.2.plan with
  | none => []
  | some p =>
    if s.saltAddress (p.secureSalt host) = none then
      match deployCollection host call.1 p s, s.feeReceiver with
      | .ok _, some receiver => [s.chargeFor p receiver]
      | _, _ => []
    else []

/-- How often it has been charged for a pair of creator and salt. -/
def timesCharged (log : List Charge) (creator : Address) (salt : Bytes32) : Nat :=
  log.countP fun c => decide (c.creator = creator ∧ c.salt = salt)

/-- The charges have been paid, and one of them for every pair that has been deployed. -/
structure Paid (host : Host) (start : Address × Address → Int) (log : List Charge) (t : Books) :
    Prop where
  issued : Issued host t
  balances : t.balances = log.foldl (fun b c => c.settle b) start
  once : ∀ creator salt, timesCharged log creator salt =
    if (t.saltAddress (makeSecureSalt host creator salt)).isSome then 1 else 0

theorem timesCharged_snoc (log : List Charge) (c : Charge) (creator : Address) (salt : Bytes32) :
    timesCharged (log ++ [c]) creator salt =
      timesCharged log creator salt + if c.creator = creator ∧ c.salt = salt then 1 else 0 := by
  simp [timesCharged]

/-! ### Steps -/

theorem Issued.deploy (h : Issued host t) (ledger : Nat) (c : Charge)
    (hfree : t.contracts a = false) :
    Issued host (t.deploy (p.secureSalt host) (p.record a ledger) c) := by
  have hkey : ∀ {b}, (t.views.byKey b).isSome = true → b ≠ a := by
    rintro b hb rfl
    rw [h.taken hb] at hfree
    cases hfree
  refine ⟨fun {salt b} hb => ?_, fun {b} hb => ?_⟩
  · change update t.saltAddress (p.secureSalt host) (some a) salt = some b at hb
    change ∃ rec z, update t.views.byKey a (some (p.record a ledger)) b = some rec ∧ _
    by_cases hsalt : salt = p.secureSalt host
    · rw [hsalt, update_self] at hb
      obtain rfl : a = b := Option.some.inj hb
      exact ⟨p.record a ledger, p.salt, update_self _ _ _, hsalt⟩
    · rw [update_of_ne hsalt] at hb
      obtain ⟨rec, z, hrec, hz⟩ := h.salts hb
      refine ⟨rec, z, ?_, hz⟩
      rw [update_of_ne (hkey (Option.isSome_of_eq_some hrec)), hrec]
  · change (update t.views.byKey a (some (p.record a ledger)) b).isSome = true at hb
    change update t.contracts a true b = true
    by_cases heq : b = a
    · rw [heq, update_self]
    · rw [update_of_ne heq] at hb ⊢
      exact h.taken hb

theorem Issued.setRoyalty (h : Issued host t) {rec : CollectionRecord}
    (hrec : t.views.byKey a = some rec) : Issued host (t.setRoyalty rec bps receiver a) := by
  have hkey : ∀ b, ((t.setRoyalty rec bps receiver a).views.byKey b).isSome =
      (t.views.byKey b).isSome := by
    intro b
    by_cases hb : b = a
    · simp [Books.setRoyalty, hb, hrec]
    · simp [Books.setRoyalty, hb]
  refine ⟨fun {salt b} hb => ?_, fun {b} hb => h.taken ((hkey b).symm.trans hb)⟩
  obtain ⟨old, z, hold, hz⟩ := h.salts hb
  by_cases heq : b = a
  · obtain rfl : rec = old := by
      rw [heq] at hold
      exact Option.mem_unique hrec hold
    refine ⟨{ rec with royaltyBps := bps, royaltyReceiver := receiver }, z, ?_, hz⟩
    rw [heq]
    exact update_self _ _ _
  · exact ⟨old, z, (update_of_ne heq _ _).trans hold, hz⟩

/-- A deployment with a new salt is charged once. -/
theorem Paid.deploy (hhost : host.CollisionFree) (h : Paid host start log t) (ledger : Nat)
    (hcreator : c.creator = p.creator) (hsalt : c.salt = p.salt)
    (hfree : t.contracts a = false) (hnew : t.saltAddress (p.secureSalt host) = none) :
    Paid host start (log ++ [c]) (t.deploy (p.secureSalt host) (p.record a ledger) c) := by
  refine ⟨h.issued.deploy ledger c hfree, ?_, fun creator salt => ?_⟩
  · rw [List.foldl_append, ← h.balances]
    rfl
  · rw [timesCharged_snoc, h.once, hcreator, hsalt]
    change _ = if (update t.saltAddress (p.secureSalt host) (some a)
      (makeSecureSalt host creator salt)).isSome then 1 else 0
    by_cases hpair : p.creator = creator ∧ p.salt = salt
    · have hsame : makeSecureSalt host creator salt = p.secureSalt host := by
        rw [← hpair.1, ← hpair.2]
        rfl
      rw [hsame, hnew, update_self, if_pos hpair]
      rfl
    · have hother : makeSecureSalt host creator salt ≠ p.secureSalt host := fun heq =>
        hpair ((makeSecureSalt_inj hhost heq).imp Eq.symm Eq.symm)
      rw [update_of_ne hother, if_neg hpair, Nat.add_zero]

theorem charges_of_used (hop : op.plan = some p)
    (hused : s.saltAddress (p.secureSalt host) = some a) : charges host s (env, op) = [] := by
  unfold charges
  rw [hop]
  dsimp only
  rw [hused, if_neg (by simp)]

theorem charges_of_refused (h : ∀ s', ¬ Returns (op.exec host env) s () s') :
    charges host s (env, op) = [] := by
  unfold charges
  cases hop : op.plan with
  | none => rfl
  | some p =>
    dsimp only
    split
    · split
      · rename_i r receiver hexec hreceiver
        refine (h r.2 ?_).elim
        rw [plan_exec hop]
        exact returns_discard.mpr ⟨r.1, hexec⟩
      · rfl
    · rfl

theorem charges_of_new (hop : op.plan = some p) (hnew : s.saltAddress (p.secureSalt host) = none)
    (hreceiver : s.feeReceiver = some receiver) (h : Returns (deployCollection host env p) s a s') :
    charges host s (env, op) = [s.chargeFor p receiver] := by
  unfold charges
  rw [hop]
  dsimp only
  rw [if_pos hnew, hreceiver, show deployCollection host env p s = .ok (a, s') from h]

/-- **Steps.** -/
theorem paid_step (hhost : host.CollisionFree) (hs : Paid host start log s.books) :
    Paid host start (log ++ charges host s call) (step host s call).books := by
  obtain ⟨env, op⟩ := call
  obtain ⟨hreturns, hmove⟩ | ⟨hrefused, hsame⟩ := step_moves host s env op
  · cases hplan : op.plan with
    | some p =>
      obtain ⟨a, -, h⟩ := deployedBy_of_returns hplan hreturns
      obtain ⟨-, ⟨hused, heq⟩ | ⟨hnew, rfl, hfree, receiver, hreceiver, heq⟩⟩ :=
        returns_deployCollection h
      · rw [charges_of_used hplan hused, List.append_nil, ← heq]
        exact hs
      · rw [charges_of_new hplan hnew hreceiver h, ← heq, books_deployed]
        exact hs.deploy hhost _ rfl rfl hfree hnew
    | none =>
      simp only [charges, hplan, List.append_nil]
      generalize (step host s (env, op)).books = t' at hmove
      cases hmove with
      | idle => exact hs
      | retry hop => cases hplan.symm.trans hop
      | deploy ledger c hop => cases hplan.symm.trans hop
      | royalty bps receiver hrec => exact ⟨hs.issued.setRoyalty hrec, hs.balances, hs.once⟩
      | migrate => exact ⟨⟨hs.issued.salts, hs.issued.taken⟩, hs.balances, hs.once⟩
  · rw [charges_of_refused hrefused, List.append_nil, hsame]
    exact hs

/-! ### Runs -/

/-- **Runs.** -/
theorem paid_run (hhost : host.CollisionFree) (legacy : Option (List CollectionRecord))
    (contracts : Address → Bool) (balances : Address × Address → Int) (calls : List (Env × Op)) :
    Paid host balances
      (Run.transcript (step host) (charges host) (.fresh legacy contracts balances) calls)
      (run host (.fresh legacy contracts balances) calls).books := by
  have hrun : Run.Along (step host) (fun _ _ => True) (.fresh legacy contracts balances) calls :=
    Run.along_of_forall fun _ _ => trivial
  refine hrun.transcript (I := fun log s => Paid host balances log s.books) (K := fun _ => True)
    (fun _ => trivial) ⟨⟨?_, ?_⟩, rfl, fun _ _ => rfl⟩ fun _ _ _ _ _ hs => paid_step hhost hs
  · rintro salt a ⟨⟩
  · rintro a ⟨⟩

/-- The registry has the collection at `a` with this kind and this creator. -/
def Registers (s : State) (a : Address) (kind : CollectionKind) (creator : Address) : Prop :=
  ∃ rec, s.collectionByAddress a = some rec ∧ rec.kind = kind ∧ rec.creator = creator

/-- What has been deployed with the salt, if anything, is of the kind that is asked for. -/
def SameKind (host : Host) (s : State) (p : Plan) : Prop :=
  ∀ a rec, s.saltAddress (p.secureSalt host) = some a → s.collectionByAddress a = some rec →
    rec.kind = p.kind

/-- A deployment returns what was asked for exactly where its salt has not been used for another kind. -/
theorem returns_kind_iff (hhost : host.CollisionFree) (hs : Issued host s.books)
    (h : Returns (deployCollection host env p) s a s') :
    Registers s' a p.kind p.creator ↔ SameKind host s p := by
  obtain ⟨-, ⟨hused, rfl⟩ | ⟨hnew, rfl, -, receiver, -, rfl⟩⟩ := returns_deployCollection h
  · obtain ⟨rec, z, hrec, hz⟩ := hs.salts hused
    have hcreator : p.creator = rec.creator := (makeSecureSalt_inj hhost hz).1
    constructor
    · rintro ⟨found, hfound, hkind, -⟩ b old hb hold
      obtain rfl : a = b := Option.mem_unique hused hb
      obtain rfl : found = old := Option.mem_unique hfound hold
      exact hkind
    · exact fun hsame => ⟨rec, hrec, hsame a rec hused hrec, hcreator.symm⟩
  · refine iff_of_true ?_ fun b old hb => ?_
    · exact ⟨p.record _ _, update_self _ _ _, rfl, rfl⟩
    · cases hnew.symm.trans hb

/-- **Deployments.** In every state of every run: a deployment that returns an address has registered it
there with its kind and its creator, exactly where its salt has not been used for another kind. With a
new salt it enters one record and is charged; a retry enters nothing and moves nothing. A pair of creator
and salt has been charged for once if it has been deployed, and otherwise never; and all the money that
has moved are these charges. -/
theorem deploy_returns_asked_iff (host : Host) (hhost : host.CollisionFree)
    (legacy : Option (List CollectionRecord)) (contracts : Address → Bool)
    (balances : Address × Address → Int) (calls : List (Env × Op)) :
    let s := run host (.fresh legacy contracts balances) calls
    let log := Run.transcript (step host) (charges host) (.fresh legacy contracts balances) calls
    (∀ (env : Env) (op : Op) (p : Plan) (a : Address) (s' : State), op.plan = some p →
      Returns (deployCollection host env p) s a s' →
        (Registers s' a p.kind p.creator ↔ SameKind host s p) ∧
        (s.saltAddress (p.secureSalt host) = none →
          s'.views = s.views.enter CollectionRecord.address CollectionRecord.creator
            (p.record a env.sequence) ∧
          ∃ receiver, charges host s (env, op) = [s.chargeFor p receiver]) ∧
        (s.saltAddress (p.secureSalt host) ≠ none → s'.balances = s.balances ∧ s'.views = s.views)) ∧
    (∀ creator salt, timesCharged log creator salt =
      if (s.saltAddress (makeSecureSalt host creator salt)).isSome then 1 else 0) ∧
    s.balances = log.foldl (fun b c => c.settle b) balances := by
  intro s log
  have hpaid := paid_run hhost legacy contracts balances calls
  refine ⟨fun env op p a s' hop h => ⟨returns_kind_iff hhost hpaid.issued h, ?_⟩, hpaid.once,
    hpaid.balances⟩
  obtain ⟨-, ⟨hused, rfl⟩ | ⟨hnew, rfl, -, receiver, hreceiver, rfl⟩⟩ := returns_deployCollection h
  · exact ⟨fun hnew => (by cases hnew.symm.trans hused), fun _ => ⟨rfl, rfl⟩⟩
  · exact ⟨fun _ => ⟨rfl, receiver, charges_of_new hop hnew hreceiver h⟩, fun hused => (hused hnew).elim⟩

theorem Host.plain_collisionFree : Host.plain.CollisionFree where
  sha256 _ _ h := h
  addressXdr := by
    rintro ⟨m⟩ ⟨n⟩ h
    have hlength := congrArg List.length h
    simp only [Host.plain, List.length_replicate] at hlength
    exact congrArg Address.mk hlength

/-- Account 5 asks for a collection of the multi-token kind, with the salt of the one it has. -/
def asksAgain : Plan := planNormal1155 ⟨5⟩ ⟨50⟩ "Collection" 500 ⟨5⟩ 0 zeroSalt

theorem deploy_returns_asked_iff_deploysIt :
    timesCharged (Run.transcript (step .plain) (charges .plain) (emptyLaunchpad none)
      (deploysIt ++ deploysIt)) ⟨5⟩ zeroSalt = 1 := by
  rw [(deploy_returns_asked_iff .plain Host.plain_collisionFree none _ _ (deploysIt ++ deploysIt)).2.1]
  decide +kernel

/-- Asked for a multi-token collection, the launchpad returns one of single tokens. -/
theorem deploy_returns_other_kind : Host.plain.CollisionFree ∧
    ¬ ∀ (env : Env) (op : Op) (p : Plan) (a : Address) (s' : State), op.plan = some p →
      Returns (deployCollection .plain env p) (run .plain (emptyLaunchpad none) deploysIt) a s' →
        Registers s' a p.kind p.creator := by
  refine ⟨Host.plain_collisionFree, fun hclaim => ?_⟩
  obtain ⟨a, s', h, hfound⟩ := exists_returns
    (c := deployCollection .plain (.signedBy ⟨5⟩ 100) asksAgain)
    (s := run .plain (emptyLaunchpad none) deploysIt)
    (p := fun a s' => (s'.collectionByAddress a).any fun rec => rec.kind == .normal721)
    (by decide +kernel)
  obtain ⟨rec, hrec, hkind, -⟩ := hclaim (.signedBy ⟨5⟩ 100)
    (.deployNormal1155 ⟨5⟩ ⟨50⟩ "Collection" 500 ⟨5⟩ 0 zeroSalt) asksAgain a s' rfl h
  rw [hrec, Option.any_some, beq_iff_eq, hkind] at hfound
  cases hfound

end ElcareHub.Launchpad
