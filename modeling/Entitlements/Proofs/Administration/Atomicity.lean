import Entitlements.Proofs.Engine.Atomicity
import Entitlements.Proofs.Generation.Requests

/-!
Administration and generation change nothing if they fail. Each call looks first, checks its
arguments next, and only then makes its one write; what comes after that, the announcement and the
marking of bundles, cannot fail it. The proofs walk over the calls step by step. What they have to
find out on the way is little: a grant is only written with an expiry that was found to lie ahead,
revoking writes a state that is known, and a bundle that was compiled can be read back from its row.
-/

namespace Entitlements

open Time Call

namespace Administration

variable (env : Environment) (e : Engine) (tenant key actor : Given)

/-- A write with its follow-up. -/
theorem followedUp_failsClean {x : Call α} (hx : x.FailsClean env e) (event : α → Event)
    (stale : Stale) (reason : String) (answer : α → β) :
    (do let a ← x; followUp (event a) stale reason actor; return answer a : Call β).FailsClean
      env e :=
  hx.bind_answers fun a => (followUp_answers (event a) stale reason actor).bind fun _ => .pure _

/-! ### Policies -/

theorem createPolicy_failsClean (p : NewPolicy) :
    (createPolicy tenant p actor).FailsClean env e := by
  refine .look (AccessStore.outcome_policy? tenant p.key env e) fun found _ => ?_
  refine .guard fun _ => ?_
  refine .look (outcome_ofExcept env e _) fun draft _ => ?_
  have hsave := AccessStore.savePolicy_failsClean env e tenant actor draft
  exact followedUp_failsClean env e actor hsave _ _ _ id

theorem updatePolicy_failsClean (c : PolicyChange) :
    (updatePolicy tenant key c actor).FailsClean env e := by
  refine .look (outcome_policy tenant key env e) fun current _ => ?_
  refine .guard fun _ => ?_
  refine .look (outcome_ofExcept env e _) fun draft _ => ?_
  have hsave := AccessStore.savePolicy_failsClean env e tenant actor draft
  exact followedUp_failsClean env e actor hsave _ _ _ id

theorem deletePolicy_failsClean : (deletePolicy tenant key actor).FailsClean env e := by
  refine .look (outcome_policy tenant key env e) fun current _ => ?_
  refine .guard fun _ => ?_
  refine .look (AccessStore.outcome_rolesUsing tenant key env e) fun roles _ => ?_
  refine .guard fun _ => ?_
  exact (AccessStore.removePolicy_failsClean env e tenant key).bind_answers fun _ =>
    followUp_answers _ _ _ _

/-! ### Roles -/

theorem createRole_failsClean (r : NewRole) : (createRole tenant r actor).FailsClean env e := by
  refine .look (AccessStore.outcome_role? tenant r.key env e) fun found _ => ?_
  refine .guard fun _ => ?_
  refine .look (outcome_requirePolicies tenant env e _) fun policyKeys _ => ?_
  refine .look (outcome_ofExcept env e _) fun risk _ => ?_
  refine .look (outcome_ofExcept env e _) fun tags _ => ?_
  exact followedUp_failsClean env e actor (AccessStore.saveRole_failsClean env e tenant actor _)
    _ _ _ id

theorem updateRole_failsClean (c : RoleChange) :
    (updateRole tenant key c actor).FailsClean env e := by
  refine .look (outcome_role tenant key env e) fun current _ => ?_
  refine .guard fun _ => ?_
  have hsave (policyKeys : List String) :
      (do
        let risk ← ofExcept (replacing c.risk current.risk (RiskLevel.parse · .low))
        let tags ← ofExcept (replacing c.tags current.tags tags)
        let saved ← AccessStore.saveRole tenant
          { key := some current.key, policyKeys, risk
            displayName := some (c.displayName.getD current.displayName)
            description := c.description.getD current.description, tags
            isSystem := current.isSystem } actor
        followUp
          (roleEvent .roleUpdated tenant key "UPDATE" actor [("fields", .ofTexts c.fields)])
          .tenant ("Role " ++ key.mention ++ " updated") actor
        return saved : Call Role).FailsClean env e := by
    refine .look (outcome_ofExcept env e _) fun risk _ => ?_
    refine .look (outcome_ofExcept env e _) fun tags _ => ?_
    exact followedUp_failsClean env e actor (AccessStore.saveRole_failsClean env e tenant actor _)
      _ _ _ id
  dsimp only
  split
  · exact .look (outcome_pure env e _) fun policyKeys _ => hsave policyKeys
  · exact .look (outcome_requirePolicies tenant env e _) fun policyKeys _ => hsave policyKeys

theorem deleteRole_failsClean : (deleteRole tenant key actor).FailsClean env e := by
  refine .look (outcome_role tenant key env e) fun current _ => ?_
  refine .guard fun _ => ?_
  refine .look (AccessStore.outcome_countLive tenant key env e) fun active _ => ?_
  refine .guard fun _ => ?_
  exact (AccessStore.removeRole_failsClean env e tenant key).bind_answers fun _ =>
    followUp_answers _ _ _ _

/-! ### Assignments -/

theorem assignRole_failsClean (d : AssignmentDraft) : (assignRole tenant d).FailsClean env e := by
  refine .look (outcome_ofExcept env e _) fun _ _ => ?_
  refine .look (outcome_now env e) fun now _ => ?_
  refine .look (outcome_ofExcept env e _) fun _ hahead => ?_
  refine .look (outcome_role tenant d.role env e) fun found _ => ?_
  have hkept : ¬AccessStore.StrandsGrant env e tenant d (some now) := by
    rintro ⟨-, _, -, -, stamp, hexp, hlimit⟩
    obtain ⟨limit, hahead⟩ := instant_of_checkExpiry hahead stamp hexp
    rw [Stamp.instant, hlimit] at hahead
    cases hahead
  have hcreate := AccessStore.createAssignment_failsClean hkept
  have hgrant := followedUp_failsClean env e d.grantedBy hcreate
    (fun assignment => assignmentEvent .roleAssigned tenant (some assignment.id) "CREATE"
      d.grantedBy d.user d.role d.scope d.reason)
    (.user d.user) ("Role " ++ d.role.mention ++ " assigned") id
  refine .look (outcome_read env e) fun _ _ => ?_
  dsimp only
  split
  · refine .look (AccessStore.outcome_liveAssignment? tenant env e d.user d.role d.scope)
      fun live _ => ?_
    exact .guard fun _ => hgrant
  · exact hgrant

theorem revoke_failsClean (id reason : Given) :
    (revoke tenant id actor reason).FailsClean env e := by
  refine .look (AccessStore.outcome_assignment? tenant id env e) fun found hfound => ?_
  refine .look (outcome_orFail env e _ _) fun current hcurrent => ?_
  rw [eq_some_of_elim hcurrent] at hfound
  obtain ⟨-, row, hrow, -⟩ := of_assignment_answer hfound
  dsimp only
  split
  · exact .of_ok ⟨_, _, rfl⟩
  refine .look (outcome_read env e) fun _ _ => ?_
  split
  · -- Another writer was faster, so there is nothing to revoke and nothing is written.
    refine .look (outcome_pure env e none) fun revoked? _ => ?_
    exact .look (outcome_orFail env e _ _) fun _ _ =>
      .of_answers ((followUp_answers _ _ _ _).bind fun _ => .pure _)
  · have hkept : ¬AccessStore.StrandsState env e tenant id
        (some AssignmentStatus.revoked.text) := by
      rintro ⟨-, -, text, ⟨⟩, hunknown⟩
      cases hunknown
    refine (AccessStore.setStatus_failsClean actor hkept).bind fun answer e₁ h => ?_
    -- The row that was looked up is the one that is written, so there is an answer to go on with.
    obtain ⟨revoked, rfl⟩ :=
      Option.isSome_iff_exists.1 (AccessStore.setStatus_answers env e tenant actor hrow h)
    obtain ⟨a, ha⟩ := ((followUp_answers
      (assignmentEvent .roleRevoked tenant id "REVOKE" actor (some current.userId)
        (some current.roleKey) (some current.scope) reason)
      (.user (some current.userId)) ("Role " ++ current.roleKey ++ " revoked") actor).bind
        fun _ => .pure revoked) env e₁
    exact ⟨a, _, by rw [outcome_bind, outcome_orFail, Option.elim_some, andThen_ok, ha]⟩

end Administration

/-! ### Generation -/

namespace Generation

variable {env : Environment} {e : Engine}

theorem compileAndCache_failsClean (hf : env.features.IsMap) (hnow : e.clock.inRange = true)
    (tenant user : Given) (o : BundleOptions) :
    (compileAndCache tenant user o).FailsClean env e := by
  rcases hfresh : fresh env e tenant user o with failure | b
  · refine .look (outcome_compile tenant user o env e) fun b hb => ?_
    rw [hfresh] at hb
    cases hb
  · obtain ⟨t, u, rfl, rfl⟩ := exists_names_of_fresh hfresh
    exact .of_ok ⟨b, _, outcome_compileAndCache hf hnow hfresh⟩

theorem generate_failsClean (hf : env.features.IsMap) (hnow : e.clock.inRange = true)
    (tenant user : Given) (o : BundleOptions) : (generate tenant user o).FailsClean env e := by
  unfold generate
  split
  · refine .look (outcome_scopeOf o env e) fun scope _ => ?_
    refine .look (BundleCache.outcome_get? env e tenant user _) fun entry _ => ?_
    cases entry with
    | some entry => exact .of_ok ⟨_, _, rfl⟩
    | none => exact compileAndCache_failsClean hf hnow tenant user o
  · exact .of_look (outcome_compile tenant user o env e)

end Generation

/-! ### Requests -/

/-- Is it a request for a change of rights or for a bundle? -/
def Request.isServed : Request → Bool
  | operation (.createPolicy ..) | operation (.updatePolicy ..) | operation (.deletePolicy ..)
  | operation (.createRole ..) | operation (.updateRole ..) | operation (.deleteRole ..)
  | operation (.assignRole ..) | operation (.revoke ..) => true
  | operation (.generate ..) | generate .. => true
  | _ => false

theorem Request.failsClean {env : Environment} {e : Engine} (hf : env.features.IsMap)
    (hnow : e.clock.inRange = true) (request : Request) (hserved : request.isServed = true) :
    request.call.FailsClean env e := by
  cases request with
  | generate tenant user o => exact .discard (Generation.generate_failsClean hf hnow tenant user o)
  | write w => cases hserved
  | edit w => cases hserved
  | operation op =>
    cases op with
    | createPolicy tenant policy actor =>
      exact .discard (Administration.createPolicy_failsClean env e tenant actor policy)
    | updatePolicy tenant key change actor =>
      exact .discard (Administration.updatePolicy_failsClean env e tenant key actor change)
    | deletePolicy tenant key actor =>
      exact Administration.deletePolicy_failsClean env e tenant key actor
    | createRole tenant role actor =>
      exact .discard (Administration.createRole_failsClean env e tenant actor role)
    | updateRole tenant key change actor =>
      exact .discard (Administration.updateRole_failsClean env e tenant key actor change)
    | deleteRole tenant key actor =>
      exact Administration.deleteRole_failsClean env e tenant key actor
    | assignRole tenant draft =>
      exact .discard (Administration.assignRole_failsClean env e tenant draft)
    | revoke tenant id actor reason =>
      exact .discard (Administration.revoke_failsClean env e tenant actor id reason)
    | generate tenant user scope useCache lifetime =>
      exact .discard (Generation.generate_failsClean hf hnow tenant user _)
    | _ => cases hserved

/-- A call of administration, or for a bundle, that fails leaves every table as it was, and nothing
has been announced. -/
theorem Request.failed_changes_nothing (request : Request) (hserved : request.isServed = true)
    (env : Environment) (hf : env.features.IsMap) (e : Engine) (hnow : e.clock.inRange = true)
    {failure : Failure} {e' : Engine}
    (hfailed : request.call.outcome env e = (.error failure, e')) :
    e'.store = e.store ∧ e'.outbox = e.outbox ∧ e'.clock = e.clock := by
  obtain ⟨ids, rfl⟩ := request.failsClean hf hnow hserved failure e' hfailed
  exact ⟨rfl, rfl, rfl⟩

/-- A new policy without a name, which the tables refuse after an identifier was taken for it. -/
def Request.namelessPolicy : Request :=
  .operation (.createPolicy (some "acme")
    { key := some "pumps", displayName := none, allow := .ofTexts ["hvac.pump.roof:start"]
      deny := .arr [], risk := .null, conditions := .null, description := none
      isSystem := false } (some "admin"))

theorem Request.nothing_changed_by_namelessPolicy :
    ∃ e', namelessPolicy.call.outcome { Environment.plain with sink := .outbox }
        Engine.fansAllowed = (.error .constraint, e') ∧
      e'.ids.issued .policy = 2 ∧
      e'.store = Engine.fansAllowed.store ∧ e'.outbox = Engine.fansAllowed.outbox ∧
      e'.clock = Engine.fansAllowed.clock := by
  have hfailed : namelessPolicy.call.outcome { Environment.plain with sink := .outbox }
      Engine.fansAllowed = (.error .constraint,
        { Engine.fansAllowed with ids := Engine.fansAllowed.ids.advance .policy }) := rfl
  exact ⟨_, hfailed, rfl, namelessPolicy.failed_changes_nothing rfl _ FeatureTable.isMap_builtIn _
    rfl hfailed⟩

end Entitlements
