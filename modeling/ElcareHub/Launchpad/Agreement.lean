import ElcareHub.Launchpad.Registry

/-!
# The views of the registry

The launchpad answers four questions about its registry from three copies of every record:
`all_collections` and `get_collections` from the global index, `collections_by_creator` from that of the
creator, and `get_collection` from the map by address. They are answers about one list of records as long
as the copies are written together. Deployments do that. Two operations do not: a royalty update writes
the copy under the address alone, and the migration enters what an earlier version has left in the global
index alone. A run in which these change nothing keeps the views in agreement (`registered_run`).
-/

namespace ElcareHub.Launchpad

open Collection Call Catalogue Function

variable {host : Host} {env : Env} {s s' : State} {t t' : Books} {log : List Address}

/-- The address a call returns, if it is a deployment. -/
def deployedBy (host : Host) (s : State) (call : Env × Op) : List Address :=
  match call.2.plan with
  | none => []
  | some p =>
    match deployCollection host call.1 p s with
    | .ok (a, _) => [a]
    | .error _ => []

/-- The views are views of one list of records, which has every deployed collection once. -/
def ViewsAgree (s : State) (deployed : List Address) : Prop :=
  ∃ records : List CollectionRecord,
    Agrees CollectionRecord.address CollectionRecord.creator s.views records ∧
    (∀ a, a ∈ records.map CollectionRecord.address ↔ a ∈ deployed) ∧
    allCollections s = records ∧
    (∀ c, collectionsByCreator s c = records.filter fun rec => decide (rec.creator = c)) ∧
    (∀ a, getCollection s a = records.find? fun rec => decide (rec.address = a)) ∧
    ∀ start limit, start + limit ≤ u64Max →
      getCollections s start limit = some ((records.drop start).take limit)

/-- A royalty update that is accepted gives the collection the royalty it has, and a migration that
runs finds nothing an earlier version has left. -/
def Harmless (s : State) (call : Env × Op) : Prop :=
  (∀ a bps receiver rec, call.2 = .updateCollectionRoyalties a bps receiver →
    s.collectionByAddress a = some rec → rec.royaltyBps = bps ∧ rec.royaltyReceiver = receiver) ∧
  (0 < call.2.budget → s.allCollectionsLegacy.getD [] = [])

/-! ### Steps -/

/-- The registry has every deployed collection, and whatever is recorded for a salt is registered. -/
structure Registered (log : List Address) (t : Books) : Prop where
  records : ∃ records, Agrees CollectionRecord.address CollectionRecord.creator t.views records ∧
      ∀ a, a ∈ records.map CollectionRecord.address ↔ a ∈ log
  salts : ∀ {salt a}, t.saltAddress salt = some a → (t.views.byKey a).isSome = true
  taken : ∀ {a}, (t.views.byKey a).isSome = true → t.contracts a = true

/-- A deployment enters a collection at an address that is not registered. -/
theorem Registered.deploy (h : Registered log t) (rec : CollectionRecord)
    (hfree : t.contracts rec.address = false) :
    Registered (log ++ [rec.address]) (t.deploy salt rec c) := by
  obtain ⟨records, hagrees, hlog⟩ := h.records
  have hnew : t.views.byKey rec.address = none := by
    by_contra hsome
    rw [h.taken (Option.isSome_iff_ne_none.mpr hsome)] at hfree
    cases hfree
  have hkeys : ∀ {a}, ((t.deploy salt rec c).views.byKey a).isSome = true ↔
      a = rec.address ∨ (t.views.byKey a).isSome = true := by
    intro a
    by_cases ha : a = rec.address <;> simp [Books.deploy, Views.enter, ha]
  refine ⟨⟨_, hagrees.enter hnew, fun a => by simp [hlog]⟩, fun {z a} hz => ?_, fun {a} ha => ?_⟩
  · rw [hkeys]
    change Function.update t.saltAddress salt (some rec.address) z = some a at hz
    by_cases hsalt : z = salt
    · rw [hsalt, update_self] at hz
      exact .inl (Option.some.inj hz).symm
    · rw [update_of_ne hsalt] at hz
      exact .inr (h.salts hz)
  · obtain rfl | ha := hkeys.mp ha
    · exact update_self _ _ _
    · change Function.update t.contracts rec.address true a = true
      by_cases heq : a = rec.address
      · rw [heq, update_self]
      · rw [update_of_ne heq]
        exact h.taken ha

/-- What a deployment returns is what is recorded for its salt, or what it enters. -/
theorem deployedBy_of_returns (hop : op.plan = some p) (h : Returns (op.exec host env) s () s') :
    ∃ a, deployedBy host s (env, op) = [a] ∧ Returns (deployCollection host env p) s a s' := by
  rw [plan_exec hop] at h
  obtain ⟨a, h⟩ := h.discard
  refine ⟨a, ?_, h⟩
  unfold deployedBy
  rw [hop]
  dsimp only
  rw [show deployCollection host env p s = .ok (a, s') from h]

/-- A call that is refused has deployed nothing. -/
theorem deployedBy_of_refused (h : ∀ s', ¬ Returns (op.exec host env) s () s') :
    deployedBy host s (env, op) = [] := by
  unfold deployedBy
  cases hop : op.plan with
  | none => rfl
  | some p =>
    dsimp only
    cases hexec : deployCollection host env p s with
    | error e => rfl
    | ok r =>
      refine (h r.2 ?_).elim
      rw [plan_exec hop]
      exact returns_discard.mpr ⟨r.1, hexec⟩

/-- **Steps.** A harmless call keeps the registry in order. -/
theorem registered_step (hs : Registered log s.books) (hharmless : Harmless s call) :
    Registered (log ++ deployedBy host s call) (step host s call).books := by
  obtain ⟨env, op⟩ := call
  obtain ⟨hreturns, hmove⟩ | ⟨hrefused, hsame⟩ := step_moves host s env op
  · cases hplan : op.plan with
    | some p =>
      obtain ⟨a, hdeployed, h⟩ := deployedBy_of_returns hplan hreturns
      rw [hdeployed]
      obtain ⟨-, ⟨hused, heq⟩ | ⟨-, rfl, hfree, receiver, -, heq⟩⟩ := returns_deployCollection h
      · -- a retry returns a collection that is registered
        have hbooks : (step host s (env, op)).books = s.books := by
          rw [← heq]
        rw [hbooks]
        obtain ⟨records, hagrees, hlog⟩ := hs.records
        have hmem : a ∈ log := (hlog a).mp (hagrees.mem_keys_iff.mpr (hs.salts hused))
        refine ⟨⟨records, hagrees, fun b => ?_⟩, hs.salts, hs.taken⟩
        rw [hlog, List.mem_append, List.mem_singleton]
        exact ⟨.inl, fun hb => hb.elim id fun hb => hb ▸ hmem⟩
      · rw [← heq, books_deployed]
        exact hs.deploy (p.record _ _) hfree
    | none =>
      have hnone : deployedBy host s (env, op) = [] := by
        unfold deployedBy
        rw [hplan]
      rw [hnone, List.append_nil]
      generalize (step host s (env, op)).books = t' at hmove
      cases hmove with
      | idle => exact hs
      | retry hop => cases hplan.symm.trans hop
      | deploy ledger c hop => cases hplan.symm.trans hop
      | royalty bps receiver hrec =>
        obtain ⟨rfl, rfl⟩ := hharmless.1 _ _ _ _ rfl hrec
        -- writing back the royalty a collection has changes nothing
        rw [Books.setRoyalty, show some _ = _ from hrec.symm, update_eq_self]
        exact hs
      | migrate hbudget hlegacy =>
        have hempty := hharmless.2 hbudget
        rw [show s.allCollectionsLegacy = _ from hlegacy] at hempty
        subst hempty
        exact ⟨hs.records, hs.salts, hs.taken⟩
  · rw [deployedBy_of_refused hrefused, List.append_nil, hsame]
    exact hs

/-! ### Runs -/

/-- **Runs.** -/
theorem registered_run {contracts : Address → Bool}
    (hrun : Run.Along (step host) Harmless (.fresh legacy contracts balances) calls) :
    Registered (Run.transcript (step host) (deployedBy host) (.fresh legacy contracts balances) calls)
      (run host (.fresh legacy contracts balances) calls).books := by
  refine hrun.transcript (I := fun log s => Registered log s.books) (K := fun _ => True)
    (fun _ => trivial) ⟨⟨[], .empty, fun _ => by simp⟩, ?_, ?_⟩
    fun _ _ _ _ hharmless hs => registered_step hs hharmless
  · rintro salt a ⟨⟩
  · rintro a ⟨⟩

/-- What is entered in the catalogue is what the views answer. -/
theorem viewsAgree_of_registered (h : Registered log s.books) : ViewsAgree s log := by
  obtain ⟨records, hagrees, hlog⟩ := h.records
  refine ⟨records, hagrees, hlog, hagrees.all.readAll, fun c => (hagrees.grouped c).readAll,
    hagrees.keyed, fun start limit hroom => ?_⟩
  have hpage := hagrees.all.read start (min (start + limit) s.collectionCount - start)
  have hcount : s.collectionCount = records.length := hagrees.all.count_eq
  unfold getCollections
  rw [if_pos hroom]
  refine congrArg some (hpage.trans ?_)
  -- a page ends where the list does
  rw [List.take_eq_take_iff, List.length_drop]
  omega

/-- **The views agree.** Whatever an earlier version has left, in every state of a run in which royalty
updates and migrations change nothing, the views of the registry are views of one list of records, which
has every collection that has been deployed exactly once. -/
theorem registry_views_agree (host : Host) (legacy : Option (List CollectionRecord))
    (contracts : Address → Bool) (balances : Address × Address → Int) (calls : List (Env × Op))
    (hrun : Run.Along (step host) Harmless (.fresh legacy contracts balances) calls) :
    ViewsAgree (run host (.fresh legacy contracts balances) calls)
      (Run.transcript (step host) (deployedBy host) (.fresh legacy contracts balances) calls) :=
  viewsAgree_of_registered (registered_run hrun)

/-! ### Runs on a small host -/

/-- A host on which a hash is its own preimage, and other contracts accept every call. -/
def Host.plain : Host where
  crypto := { Crypto.plain with addressXdr := fun a => List.replicate a.num 1 }
  uploaded _ := true
  deployedAddress salt := ⟨1000 + salt.length⟩
  acceptsUpgrade _ _ _ := true
  acceptsFee _ _ _ _ _ := true

def zeroSalt : Bytes32 := ⟨List.replicate 32 0, by simp⟩

/-- The admin, account 1, sets the launchpad up. -/
def setUp : List (Env × Op) :=
  [(.signedBy ⟨1⟩ 100, .initializeLaunchpad ⟨1⟩ ⟨2⟩ 10),
    (.signedBy ⟨1⟩ 100, .setWasmHashes [1] [2] [3] [4])]

/-- Account 5 deploys a collection. -/
def deploysIt : List (Env × Op) :=
  setUp ++ [(.signedBy ⟨5⟩ 100, .deployNormal721 ⟨5⟩ ⟨50⟩ "Collection" "SYM" 10 500 ⟨5⟩ 0 zeroSalt)]

abbrev emptyLaunchpad (legacy : Option (List CollectionRecord)) : State :=
  .fresh legacy (fun _ => false) fun _ => 100

theorem registry_views_agree_deploysIt :
    ViewsAgree (run .plain (emptyLaunchpad none) (deploysIt ++ [(.signedBy ⟨1⟩ 100, .migrate ⟨1⟩)]))
      [⟨1037⟩] := by
  have hrun : Run.Along (step .plain) Harmless (emptyLaunchpad none)
      (deploysIt ++ [(.signedBy ⟨1⟩ 100, .migrate ⟨1⟩)]) := by
    refine ⟨⟨?_, ?_⟩, ⟨?_, ?_⟩, ⟨?_, ?_⟩, ⟨?_, fun _ => by decide +kernel⟩, trivial⟩
    all_goals first | exact fun _ _ _ _ h => by cases h | exact fun h => absurd h (by decide)
  have hagree := registry_views_agree .plain none _ _ _ hrun
  have hlog : Run.transcript (step .plain) (deployedBy .plain) (emptyLaunchpad none)
      (deploysIt ++ [(.signedBy ⟨1⟩ 100, .migrate ⟨1⟩)]) = [⟨1037⟩] := by decide +kernel
  rwa [hlog] at hagree

/-- A record of an earlier version. -/
def legacyRecord : CollectionRecord :=
  ⟨⟨77⟩, .normal721, ⟨5⟩, "Collection", "SYM", 1, 0, 500, ⟨5⟩⟩

/-- Where the views agree, what is found under an address is what the list of all collections has. -/
theorem getCollection_of_viewsAgree (h : ViewsAgree s log) (a : Address) :
    getCollection s a = (allCollections s).find? fun rec => decide (rec.address = a) := by
  obtain ⟨records, -, -, hall, -, hkeyed, -⟩ := h
  rw [hall]
  exact hkeyed a

/-- After a royalty update, and after the migration of a legacy record, the map by address and the
global index disagree. -/
theorem registry_views_disagree :
    (let calls := deploysIt ++ [(.signedBy ⟨1⟩ 100, .updateCollectionRoyalties ⟨1037⟩ 700 ⟨5⟩)]
    ¬ ViewsAgree (run .plain (emptyLaunchpad none) calls)
      (Run.transcript (step .plain) (deployedBy .plain) (emptyLaunchpad none) calls)) ∧
    (let calls := setUp ++ [(.signedBy ⟨1⟩ 100, .migrate ⟨1⟩)]
    ¬ ViewsAgree (run .plain (emptyLaunchpad (some [legacyRecord])) calls)
      (Run.transcript (step .plain) (deployedBy .plain) (emptyLaunchpad (some [legacyRecord]))
        calls)) := by
  constructor
  · intro calls h
    exact absurd (getCollection_of_viewsAgree h ⟨1037⟩) (by decide +kernel)
  · intro calls h
    exact absurd (getCollection_of_viewsAgree h ⟨77⟩) (by decide +kernel)

end ElcareHub.Launchpad
