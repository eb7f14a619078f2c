import ElcareHub.Launchpad.Deployments

/-!
# What a preflight predicts

A preflight runs the validation of a deployment and lists all the errors it finds, where the deployment
ends with the first. It differs from the deployment twice: it looks at the balance the fee is paid from,
which the deployment leaves to the token, and it counts a salt that has been used as an error, where the
deployment returns the collection there is.
-/

namespace ElcareHub.Launchpad

open Collection Call

variable {host : Host} {env : Env} {s : State} {p : Plan} {receiver : Address} {op : Op} {t t' : Books}

/-- The preflight of a deployment, with the same arguments. -/
def Op.preflight (host : Host) : Op → Option (Tx PreflightResult)
  | .deployNormal721 c t n y m b _ p z => some (preflightDeployNormal721 host c t n y m b p z)
  | .deployNormal1155 c t n b _ p z => some (preflightDeployNormal1155 host c t n b p z)
  | .deployLazy721 c t _ n y m b _ p z _ => some (preflightDeployLazy721 host c t n y m b p z)
  | .deployLazy1155 c t _ n b _ p z _ => some (preflightDeployLazy1155 host c t n b p z)
  | _ => none

theorem plan_preflight (hop : op.plan = some p) : op.preflight host =
    some (preflightDeploy host p.creator p.currency p.platformFeeBps p.salt p.kind p.validate) := by
  cases op <;> cases hop <;> rfl

theorem returns_preflightDeploy (hreceiver : s.feeReceiver = some receiver) :
    Returns (preflightDeploy host p.creator p.currency p.platformFeeBps p.salt p.kind p.validate) s
      ⟨host.deployedAddress (p.secureSalt host), s.fee, p.platformFeeBps, p.currency,
        (checkSufficientFee p.creator p.currency s.fee (p.problems host s) s).map Error.code⟩ s := by
  simp [preflightDeploy, getFeeConfig, hreceiver, State.fee, Plan.problems, Plan.secureSalt]

/-! ### How a deployment fails -/

theorem deployNew_of_poor (h : p.problems host s = []) (hd : Deployable host s p receiver)
    (hreceiver : s.feeReceiver = some receiver) (hfee : 0 < s.fee)
    (hpoor : s.balances (p.currency, p.creator) < s.fee) :
    deployNew host env p s = .error (.token p.currency) := by
  obtain ⟨wasm, hwasm, -⟩ := hd.uploaded
  rw [Plan.problems, hwasm, Option.isSome_some] at h
  unfold State.fee at hfee hpoor
  simp [deployNew, bind, andThen, view, h, hwasm, onSome, pure, orAbort, collectDeployFee, getFeeConfig,
    hreceiver, hfee, transferTokens, attempt, TransferRefused, hpoor]

/-! ### Salts -/

/-- Whatever is recorded for a salt is where the salt leads to. -/
def Books.Placed (host : Host) (t : Books) : Prop :=
  ∀ salt a, t.saltAddress salt = some a → host.deployedAddress salt = a

theorem Books.Move.placed (hm : t.Move host op t') (h : t.Placed host) : t'.Placed host := by
  cases hm with
  | deploy ledger c hop hnew hfree =>
    intro salt a ha
    change Function.update t.saltAddress _ (some _) salt = some a at ha
    rw [Function.update_apply] at ha
    split at ha
    · rename_i hsalt
      exact hsalt ▸ Option.some.inj ha
    · exact h salt a ha
  | _ => exact h

/-- **Preflight.** In every state of every run after the launchpad has been initialised, if the host and
the new collection accept what has passed the validation and the token moves what the creator has: a
preflight returns, changes nothing and predicts the address. With a salt that has not been used it lists
no error exactly if the deployment succeeds, and otherwise among its errors the one the deployment ends
with, or the missing fee alone if the token refuses it; with a used salt the deployment succeeds. -/
theorem preflight_predicts (host : Host) (legacy : Option (List CollectionRecord))
    (contracts : Address → Bool) (balances : Address × Address → Int) (calls : List (Env × Op)) :
    let s := run host (.fresh legacy contracts balances) calls
    ∀ (env : Env) (op : Op) (p : Plan) (receiver : Address), op.plan = some p →
      env.auth p.creator = true → s.feeReceiver = some receiver →
      env.tokenRefuses p.currency p.creator receiver s.fee = false →
      (p.problems host s = [] → Deployable host s p receiver) →
      ∃ c r, op.preflight host = some c ∧ Returns c s r s ∧
        (∀ a s', Returns (deployCollection host env p) s a s' → r.predictedAddress = a) ∧
        (s.saltAddress (p.secureSalt host) ≠ none →
          ∃ a s', Returns (deployCollection host env p) s a s') ∧
        (s.saltAddress (p.secureSalt host) = none →
          (r.errors = [] ↔ ∃ a s', Returns (deployCollection host env p) s a s') ∧
          ∀ e, deployCollection host env p s = .error e → (∃ x, e = .contract x ∧ x.code ∈ r.errors) ∨
              e = .token p.currency ∧ r.errors = [Error.insufficientFee.code]) := by
  intro s env op p receiver hop hauth hreceiver htoken hdeployable
  refine ⟨_, _, plan_preflight hop, returns_preflightDeploy hreceiver, fun a s' h => ?_, fun hused => ?_,
    fun hnew => ?_⟩
  · obtain ⟨-, ⟨hused, -⟩ | ⟨-, haddress, -⟩⟩ := returns_deployCollection h
    · refine Run.invariant (I := fun s : State => s.books.Placed host) (by rintro _ _ ⟨⟩) (fun s call hs => ?_)
        _ a hused
      obtain ⟨-, hmove⟩ | ⟨-, hsame⟩ := step_moves host s call.1 call.2
      · exact hmove.placed hs
      · rw [show step host s call = s from hsame]
        exact hs
    · exact haddress
  · obtain ⟨a, ha⟩ := Option.ne_none_iff_exists'.mp hused
    simp [deployCollection, hauth, ha]
  · have hexec : deployCollection host env p s = deployNew host env p s := by
      simp [deployCollection, bind, andThen, abortIf, view, hauth, hnew]
    rcases hproblems : p.problems host s with _ | ⟨e, es⟩
    · by_cases hpoor : 0 < s.fee ∧ s.balances (p.currency, p.creator) < s.fee
      · have hrefused : deployNew host env p s = _ :=
          deployNew_of_poor hproblems (hdeployable hproblems) hreceiver hpoor.1 hpoor.2
        simp [checkSufficientFee, hpoor, Returns, hexec, hrefused]
      · have hreturns : Returns (deployNew host env p) s _ _ := returns_deployNew.mpr
          ⟨hproblems, receiver, hreceiver, fun hfee => ?_, hdeployable hproblems, rfl, rfl⟩
        · simp [checkSufficientFee, hpoor, Returns, hexec, show deployNew host env p s = _ from hreturns]
        · rintro (hneg | hless | hrefuses)
          · omega
          · exact hpoor ⟨hfee, hless⟩
          · cases htoken.symm.trans hrefuses
    · have hfirst : deployNew host env p s = .error (.contract e) := by
        unfold Plan.problems at hproblems
        simp [deployNew, bind, andThen, view, hproblems, onSome, abort]
      have hmem : e ∈ checkSufficientFee p.creator p.currency s.fee (e :: es) s := by
        unfold checkSufficientFee
        split <;> simp
      simp only [Returns, hexec, hfirst, List.map_eq_nil_iff, List.ne_nil_of_mem hmem, reduceCtorEq,
        exists_false, Except.error.injEq, true_and]
      rintro _ rfl
      exact .inl ⟨e, rfl, List.mem_map_of_mem hmem⟩

theorem preflight_predicts_setUp :
    ∃ c r, (Op.deployNormal721 ⟨5⟩ ⟨50⟩ "Collection" "SYM" 10 500 ⟨5⟩ 0 zeroSalt).preflight .plain =
        some c ∧
      Returns c (run .plain (emptyLaunchpad none) setUp) r (run .plain (emptyLaunchpad none) setUp) ∧
      r.errors = [] := by
  obtain ⟨c, r, hc, hr, -, -, hnew⟩ := preflight_predicts .plain none (fun _ => false) (fun _ => 100) setUp
    (.signedBy ⟨5⟩ 100) (.deployNormal721 ⟨5⟩ ⟨50⟩ "Collection" "SYM" 10 500 ⟨5⟩ 0 zeroSalt) _ ⟨2⟩ rfl rfl
    (by decide +kernel) rfl fun _ => ⟨⟨[1], by decide +kernel, rfl⟩, by decide +kernel, by decide +kernel,
      by decide +kernel, by decide +kernel⟩
  obtain ⟨a, s', h, -⟩ := exists_returns
    (c := deployNormal721 .plain (.signedBy ⟨5⟩ 100) ⟨5⟩ ⟨50⟩ "Collection" "SYM" 10 500 ⟨5⟩ 0 zeroSalt)
    (s := run .plain (emptyLaunchpad none) setUp) (p := fun _ _ => true) (by decide +kernel)
  exact ⟨c, r, hc, hr, (hnew (by decide +kernel)).1.mpr ⟨a, s', h⟩⟩

/-- Asked again with the same salt, the launchpad returns the collection there is; the preflight lists
the salt as an error. -/
theorem preflight_rejects_retry :
    ¬ ∀ r s', Returns (preflightDeployNormal721 .plain ⟨5⟩ ⟨50⟩ "Collection" "SYM" 10 500 0 zeroSalt)
        (run .plain (emptyLaunchpad none) deploysIt) r s' →
      (r.errors = [] ↔ ∃ a s'', Returns (deployNormal721 .plain (.signedBy ⟨5⟩ 100) ⟨5⟩ ⟨50⟩ "Collection"
        "SYM" 10 500 ⟨5⟩ 0 zeroSalt) (run .plain (emptyLaunchpad none) deploysIt) a s'') := by
  intro hclaim
  obtain ⟨r, s', h, herrors⟩ := exists_returns
    (c := preflightDeployNormal721 .plain ⟨5⟩ ⟨50⟩ "Collection" "SYM" 10 500 0 zeroSalt)
    (s := run .plain (emptyLaunchpad none) deploysIt) (p := fun r _ => r.errors == [10])
    (by decide +kernel)
  obtain ⟨a, s'', hdeploy, -⟩ := exists_returns
    (c := deployNormal721 .plain (.signedBy ⟨5⟩ 100) ⟨5⟩ ⟨50⟩ "Collection" "SYM" 10 500 ⟨5⟩ 0 zeroSalt)
    (s := run .plain (emptyLaunchpad none) deploysIt) (p := fun _ _ => true) (by decide +kernel)
  rw [(hclaim r s' h).mpr ⟨a, s'', hdeploy⟩] at herrors
  cases herrors

end ElcareHub.Launchpad
