import Entitlements.Proofs.Administration.FollowUp
import Entitlements.Proofs.Administration.Quiet
import Entitlements.Proofs.Engine.Atomicity
import Entitlements.Proofs.Engine.InMargin
import Entitlements.Proofs.Generation.Runs

/-!
What follows a change never decides how the call ends. An announcement may reach nobody, or be
refused, and marking may fail or not be there at all: the answer is that of the write, and the
tables of rights are as the write has left them. Two environments that differ in their follow-ups
only are compared here, call by call. Up to the follow-up both runs take the same steps, because
these steps are quiet. And where marking goes the same way in both, so does the table of cached
bundles, which the announcements before it cannot prevent.
-/

namespace Entitlements

open Time Call

/-! ### What a follow-up marks -/

/-- Do follow-ups mark bundles as those of an environment do, whatever they announce? -/
structure FollowUps.MarksAs (f : FollowUps) (env : Environment) : Prop where
  canInvalidate : f.canInvalidate = env.canInvalidate
  hasBundles : f.hasBundles = env.hasBundles

namespace Stale

/-- The rows that a change in a tenant can have made stale. -/
def selects (owner : Given) : Stale → CacheRow → Bool
  | nothing, _ => false
  | user id, r => some r.tenant == owner && some r.userId == id
  | tenant, r => some r.tenant == owner

/-- The reason that they are marked with. -/
def mark (reason : String) : Stale → String
  | tenant => (Given.nonempty? (some reason)).getD Store.tenantReason
  | _ => (Given.nonempty? (some reason)).getD Store.manualReason

end Stale

namespace CacheTable

variable (env : Environment) (tenant : Given) (now : Instant) (reason : String)

/-- The table of cached bundles once marking was tried. -/
def markIf (selected : CacheRow → Bool) (rows : List CacheRow) : List CacheRow :=
  if env.canInvalidate && (env.settings.checkTenant tenant).isOk then
    markWhere selected now reason rows
  else rows

/-- The table once a change was followed up. -/
def followUp (stale : Stale) (rows : List CacheRow) : List CacheRow :=
  if env.hasBundles then markIf env tenant now (stale.mark reason) (stale.selects tenant) rows
  else rows

theorem markIf_nothing (rows : List CacheRow) :
    markIf env tenant now reason (fun _ => false) rows = rows := by
  simp [markIf, markWhere, CacheRow.isMarkable]

variable {env} {f : FollowUps} {stale : Stale} {rows : List CacheRow}

theorem followUp_of_marksAs (h : f.MarksAs env) :
    followUp (env.withFollowUps f) tenant now reason stale rows =
      followUp env tenant now reason stale rows := by
  simp [followUp, markIf, Environment.withFollowUps, h.canInvalidate, h.hasBundles]

end CacheTable

/-- What comes after a step and leaves the cached bundles alone does not matter for them. -/
theorem Call.cache_after_bind {env : Environment} {e : Engine} {x : Call α} {f : α → Call β}
    {rows : List CacheRow} (hx : (x.after env e).store.cache = rows)
    (hf : ∀ a e', ((f a).after env e').store.cache = e'.store.cache) :
    ((x >>= f).after env e).store.cache = rows :=
  after_bind_of_after (P := fun e' => e'.store.cache = rows) hx fun a e' h => (hf a e').trans h

section

variable (env : Environment) (e : Engine)

/-- Announcing leaves the cached bundles alone. -/
theorem AuditLog.cache_after_publish (event : Event) :
    ((publish event).after env e).store.cache = e.store.cache ∧
      ((publish event).after env e).clock = e.clock := by
  obtain ⟨m, hm, hlogs⟩ := deliver_logs env e event
  rw [publish, after_eq_of_outcome (outcome_attempt env e _), hlogs]
  exact ⟨hm, rfl⟩

theorem AuditLog.cache_after_announcing (event : Event) (answer : α) :
    ((do publish event; return answer : Call α).after env e).store.cache = e.store.cache := by
  obtain ⟨_, hok⟩ := publish_answers event env e
  rw [after_bind_of_ok hok]
  exact (cache_after_publish env e event).1

theorem BundleCache.cache_after_invalidateWhere (tenant : Given) (selected : CacheRow → Bool)
    (reason : String) :
    ((invalidateWhere tenant selected reason).after env e).store.cache =
      CacheTable.markIf env tenant e.clock reason selected e.store.cache := by
  rw [CacheTable.markIf]
  cases hc : env.canInvalidate
  · simp [invalidateWhere, after, hc]
  · rcases hg : env.settings.checkTenant tenant with failure | _
    · rw [after_invalidateWhere_of_error hg]
      rfl
    · rw [after_eq_of_outcome (outcome_invalidateWhere hc hg selected reason)]
      rfl

namespace Administration

theorem cache_after_markStale (tenant : Given) (reason : String) (actor : Given) (stale : Stale) :
    ((markStale tenant reason actor stale).after env e).store.cache =
      CacheTable.markIf env tenant e.clock (stale.mark reason) (stale.selects tenant)
        e.store.cache := by
  cases stale with
  | nothing =>
    rw [show Stale.selects tenant .nothing = fun _ => false from rfl, CacheTable.markIf_nothing]
    rfl
  | user id =>
    rw [markStale, after_discard]
    refine cache_after_bind ?_ fun affected e' => AuditLog.cache_after_announcing env e' _ affected
    exact BundleCache.cache_after_invalidateWhere env e tenant _ _
  | tenant =>
    rw [markStale, after_discard]
    refine cache_after_bind ?_ fun affected e' => AuditLog.cache_after_announcing env e' _ affected
    exact BundleCache.cache_after_invalidateWhere env e tenant _ _

/-- A lost announcement does not keep the bundles from being marked. -/
theorem cache_after_followUp (event : Event) (stale : Stale) (reason : String) (actor : Given) :
    ((followUp event stale reason actor).after env e).store.cache =
      CacheTable.followUp env event.tenant e.clock reason stale e.store.cache := by
  obtain ⟨_, hok⟩ := AuditLog.publish_answers event env e
  obtain ⟨hcache, hclock⟩ := AuditLog.cache_after_publish env e event
  rw [followUp, after_bind_of_ok hok, after_bind_of_ok (outcome_read env _), CacheTable.followUp]
  split
  · rw [after_eq_of_outcome (outcome_attempt env _ _), cache_after_markStale, hcache, hclock]
  · exact hcache

end Administration

end

/-! ### Calls with other follow-ups -/

namespace Call

variable {env : Environment} {f : FollowUps}

/-- Does a call end in the same way with other follow-ups, beside any margin, with the same cached
bundles if the follow-ups mark alike? -/
def Robust (env : Environment) (f : FollowUps) (x : Call α) : Prop :=
  ∀ e m, (f.MarksAs env → e.store.cache = m.cache) →
    Matched (fun _ rows rows' => f.MarksAs env → rows = rows') Eq (x.outcome env e)
      (x.outcome (env.withFollowUps f) (e.withMargin m))

namespace Robust

variable {x : Call α}

theorem of_quiet (hx : Quiet env f x) : Robust env f x := by
  intro e m hcache
  rw [hx.overlooks]
  exact Alike.of_unaware hx.unaware env e m hcache

/-- Over a check that refuses. -/
theorem guard {c : Prop} [Decidable c] {failure : Failure} {g : Unit → Call α}
    (hx : Robust env f x) : Robust env f (if c then throw failure >>= g else x) := by
  split
  · exact fun _ _ hcache => .error hcache
  · exact hx

theorem pure (a : α) : Robust env f (pure a) := fun _ _ hcache => .ok rfl hcache

theorem bind {g : α → Call β} (hx : Robust env f x) (hg : ∀ a, Robust env f (g a)) :
    Robust env f (x >>= g) := by
  intro e m hcache
  rw [outcome_bind, outcome_bind]
  refine (hx e m hcache).andThen fun a b e m hab hcache => ?_
  rw [← hab]
  exact hg a e m hcache

theorem after_quiet {g : α → Call β} (hx : Quiet env f x) (hg : ∀ a, Robust env f (g a)) :
    Robust env f (x >>= g) := (of_quiet hx).bind hg

theorem ite {c : Prop} [Decidable c] {y : Call α} (hx : Robust env f x) (hy : Robust env f y) :
    Robust env f (if c then x else y) := by
  split
  · exact hx
  · exact hy

/-- Over a look at the environment, but not at its follow-ups. -/
theorem after_read {g : Environment → Call β} (hsame : g (env.withFollowUps f) = g env)
    (hg : Robust env f (g env)) : Robust env f (read >>= g) := by
  intro e m hcache
  have hmatched := hg e m hcache
  rw [outcome_bind, outcome_bind, outcome_read, outcome_read, andThen_ok, andThen_ok, hsame]
  exact hmatched

/-- Follow-ups have an answer in any case, and what they do shows in the margin. -/
theorem followUp (event : Event) (stale : Stale) (reason : String) (actor : Given) :
    Robust env f (Administration.followUp event stale reason actor) := by
  intro e m hcache
  obtain ⟨_, hok⟩ := Administration.followUp_answers event stale reason actor env e
  obtain ⟨_, hok'⟩ := Administration.followUp_answers event stale reason actor
    (env.withFollowUps f) (e.withMargin m)
  obtain ⟨m₁, hm₁⟩ := Administration.followUp_inMargin event stale reason actor env e
  obtain ⟨m₂, hm₂⟩ := Administration.followUp_inMargin event stale reason actor
    (env.withFollowUps f) (e.withMargin m)
  have hrows := Administration.cache_after_followUp env e event stale reason actor
  have hrows' := Administration.cache_after_followUp (env.withFollowUps f) (e.withMargin m) event
    stale reason actor
  rw [hm₁] at hok hrows
  rw [hm₂] at hok' hrows'
  rw [hok, hok']
  refine .ok (e := e.withMargin m₁) (m := m₂) rfl fun hmarks => ?_
  calc (e.withMargin m₁).store.cache
    _ = CacheTable.followUp env event.tenant e.clock reason stale e.store.cache := hrows
    _ = CacheTable.followUp env event.tenant e.clock reason stale m.cache := by rw [hcache hmarks]
    _ = CacheTable.followUp (env.withFollowUps f) event.tenant e.clock reason stale m.cache :=
      (CacheTable.followUp_of_marksAs event.tenant e.clock reason hmarks).symm
    _ = m₂.cache := hrows'.symm

/-- A write and its follow-up. -/
theorem followedUp (hx : Quiet env f x) (event : α → Event) (stale : Stale) (reason : String)
    (actor : Given) :
    Robust env f (do let a ← x; Administration.followUp (event a) stale reason actor; return a) :=
  .after_quiet hx fun a => (followUp (event a) stale reason actor).bind fun _ => .pure a

end Robust

end Call

/-! ### Administration -/

namespace Administration

variable {env : Environment} {f : FollowUps} (tenant key actor : Given)

theorem robust_createPolicy (p : NewPolicy) : Robust env f (createPolicy tenant p actor) := by
  refine .after_quiet (AccessStore.quiet_policy? tenant p.key) fun _ => .guard ?_
  refine .after_quiet (.ofExcept _) fun draft => ?_
  exact .followedUp (AccessStore.quiet_savePolicy tenant actor draft) _ _ _ _

theorem robust_updatePolicy (c : PolicyChange) :
    Robust env f (updatePolicy tenant key c actor) := by
  refine .after_quiet (quiet_policy tenant key) fun current => .guard ?_
  refine .after_quiet (.ofExcept _) fun draft => ?_
  exact .followedUp (AccessStore.quiet_savePolicy tenant actor draft) _ _ _ _

theorem robust_deletePolicy : Robust env f (deletePolicy tenant key actor) := by
  refine .after_quiet (quiet_policy tenant key) fun _ => .guard ?_
  refine .after_quiet (AccessStore.quiet_rolesUsing tenant key) fun _ => .guard ?_
  exact .after_quiet (AccessStore.quiet_removePolicy tenant key) fun _ => .followUp _ _ _ _

theorem robust_createRole (r : NewRole) : Robust env f (createRole tenant r actor) := by
  refine .after_quiet (AccessStore.quiet_role? tenant r.key) fun _ => .guard ?_
  refine .after_quiet (quiet_requirePolicies tenant _) fun policyKeys => ?_
  refine .after_quiet (.ofExcept _) fun risk => .after_quiet (.ofExcept _) fun tags => ?_
  exact .followedUp (AccessStore.quiet_saveRole tenant actor _) _ _ _ _

theorem robust_updateRole (c : RoleChange) : Robust env f (updateRole tenant key c actor) := by
  refine .after_quiet (quiet_role tenant key) fun current => .guard ?_
  have hsave (policyKeys : List String) : Robust env f do
      let risk ← ofExcept (replacing c.risk current.risk (RiskLevel.parse · .low))
      let tags ← ofExcept (replacing c.tags current.tags tags)
      let saved ← AccessStore.saveRole tenant
        { key := some current.key, policyKeys, risk
          displayName := some (c.displayName.getD current.displayName)
          description := c.description.getD current.description, tags
          isSystem := current.isSystem } actor
      followUp (roleEvent .roleUpdated tenant key "UPDATE" actor [("fields", .ofTexts c.fields)])
        .tenant ("Role " ++ key.mention ++ " updated") actor
      return saved := by
    refine .after_quiet (.ofExcept _) fun risk => .after_quiet (.ofExcept _) fun tags => ?_
    exact .followedUp (AccessStore.quiet_saveRole tenant actor _) _ _ _ _
  exact .ite ((Robust.pure _).bind hsave) (.after_quiet (quiet_requirePolicies tenant _) hsave)

theorem robust_deleteRole : Robust env f (deleteRole tenant key actor) := by
  refine .after_quiet (quiet_role tenant key) fun _ => .guard ?_
  refine .after_quiet (AccessStore.quiet_countLive tenant key) fun _ => .guard ?_
  exact .after_quiet (AccessStore.quiet_removeRole tenant key) fun _ => .followUp _ _ _ _

theorem robust_assignRole (d : AssignmentDraft) : Robust env f (assignRole tenant d) := by
  refine .after_quiet (.ofExcept _) fun _ => .after_quiet ⟨.now, .now⟩ fun now => ?_
  refine .after_quiet (.ofExcept _) fun _ => .after_quiet (quiet_role tenant d.role) fun _ => ?_
  have hcreate : Robust env f do
      let assignment ← AccessStore.createAssignment tenant d (some now)
      followUp
        (assignmentEvent .roleAssigned tenant (some assignment.id) "CREATE" d.grantedBy d.user
          d.role d.scope d.reason)
        (.user d.user) ("Role " ++ d.role.mention ++ " assigned") d.grantedBy
      return assignment :=
    .followedUp (AccessStore.quiet_createAssignment tenant d (some now)) _ _ _ _
  refine .after_read rfl (.ite ?_ hcreate)
  exact .after_quiet (AccessStore.quiet_liveAssignment? tenant d.user d.role d.scope)
    fun _ => .guard hcreate

theorem robust_revoke (id reason : Given) : Robust env f (revoke tenant id actor reason) := by
  refine .after_quiet (AccessStore.quiet_assignment? tenant id) fun found => ?_
  refine .after_quiet (.orFail _ _) fun current => .ite (.pure _) ?_
  have hrevoke (revoked? : Option Assignment) : Robust env f do
      let revoked ← orFail (.assignmentNotFound id) revoked?
      followUp
        (assignmentEvent .roleRevoked tenant id "REVOKE" actor (some current.userId)
          (some current.roleKey) (some current.scope) reason)
        (.user (some current.userId)) ("Role " ++ current.roleKey ++ " revoked") actor
      return revoked :=
    .followedUp (.orFail _ _) _ _ _ _
  refine .after_read rfl (.ite ((Robust.pure _).bind hrevoke) ?_)
  exact .after_quiet (AccessStore.quiet_setStatus tenant actor id _) hrevoke

end Administration

/-- The calls of administration, each with the type of its answers. -/
inductive AdministrationCall : Type → Type where
  | policy (tenant key : Given) : AdministrationCall Policy
  | createPolicy (tenant : Given) (p : NewPolicy) (actor : Given) : AdministrationCall Policy
  | updatePolicy (tenant key : Given) (c : PolicyChange) (actor : Given) : AdministrationCall Policy
  | deletePolicy (tenant key actor : Given) : AdministrationCall Unit
  | role (tenant key : Given) : AdministrationCall Role
  | createRole (tenant : Given) (r : NewRole) (actor : Given) : AdministrationCall Role
  | updateRole (tenant key : Given) (c : RoleChange) (actor : Given) : AdministrationCall Role
  | deleteRole (tenant key actor : Given) : AdministrationCall Unit
  | assignRole (tenant : Given) (d : AssignmentDraft) : AdministrationCall Assignment
  | revoke (tenant id actor reason : Given) : AdministrationCall Assignment
  | assignments (tenant user : Given) (liveOnly : Bool) : AdministrationCall (List Assignment)

namespace AdministrationCall

def call : AdministrationCall α → Call α
  | policy tenant key => Administration.policy tenant key
  | createPolicy tenant p actor => Administration.createPolicy tenant p actor
  | updatePolicy tenant key c actor => Administration.updatePolicy tenant key c actor
  | deletePolicy tenant key actor => Administration.deletePolicy tenant key actor
  | role tenant key => Administration.role tenant key
  | createRole tenant r actor => Administration.createRole tenant r actor
  | updateRole tenant key c actor => Administration.updateRole tenant key c actor
  | deleteRole tenant key actor => Administration.deleteRole tenant key actor
  | assignRole tenant d => Administration.assignRole tenant d
  | revoke tenant id actor reason => Administration.revoke tenant id actor reason
  | assignments tenant user liveOnly => Administration.assignments tenant user liveOnly

open Administration in
theorem robust {env : Environment} {f : FollowUps} (op : AdministrationCall α) :
    Robust env f op.call := by
  cases op with
  | policy tenant key => exact .of_quiet (quiet_policy tenant key)
  | createPolicy tenant p actor => exact robust_createPolicy tenant actor p
  | updatePolicy tenant key c actor => exact robust_updatePolicy tenant key actor c
  | deletePolicy tenant key actor => exact robust_deletePolicy tenant key actor
  | role tenant key => exact .of_quiet (quiet_role tenant key)
  | createRole tenant r actor => exact robust_createRole tenant actor r
  | updateRole tenant key c actor => exact robust_updateRole tenant key actor c
  | deleteRole tenant key actor => exact robust_deleteRole tenant key actor
  | assignRole tenant d => exact robust_assignRole tenant d
  | revoke tenant id actor reason => exact robust_revoke tenant actor id reason
  | assignments tenant user liveOnly => exact .of_quiet (quiet_assignments tenant user liveOnly)

end AdministrationCall

/-! ### Invalidation -/

namespace Generation

/-- The calls that mark bundles and announce it. -/
inductive Invalidation where
  | ofUser (tenant user reason scope actor : Given)
  | ofTenant (tenant reason actor : Given)

def Invalidation.call : Invalidation → Call Nat
  | ofUser tenant user reason scope actor => invalidate tenant user reason scope actor
  | ofTenant tenant reason actor => invalidateTenant tenant reason actor

end Generation

/-- Does one run end as another, what is cached, logged or waiting apart? -/
structure Call.EndsAs (r r' : Except Failure α × Engine) : Prop where
  answer : r.1 = r'.1
  policies : r.2.store.policies = r'.2.store.policies
  roles : r.2.store.roles = r'.2.store.roles
  assignments : r.2.store.assignments = r'.2.store.assignments

section

variable {env : Environment} {f : FollowUps}

/-- Does a call end in the same way with other follow-ups, the logs apart? -/
def Call.Announces (env : Environment) (f : FollowUps) (x : Call α) : Prop :=
  ∀ e, EndsAs (x.outcome (env.withFollowUps f) e) (x.outcome env e) ∧
    (x.after (env.withFollowUps f) e).store.cache = (x.after env e).store.cache

namespace Call.Announces

theorem after_overlooks {x : Call α} {g : α → Call β} (hx : Overlooks env f x)
    (hg : ∀ a, Announces env f (g a)) : Announces env f (x >>= g) := by
  intro e
  rw [after, after, outcome_bind, outcome_bind, hx]
  rcases x.outcome env e with ⟨failure | a, e₁⟩
  · exact ⟨⟨rfl, rfl, rfl, rfl⟩, rfl⟩
  · exact hg a e₁

theorem publish (event : Event) (answer : α) :
    Announces env f (do AuditLog.publish event; return answer) := by
  intro e
  obtain ⟨_, hok⟩ := AuditLog.publish_answers event env e
  obtain ⟨_, hok'⟩ := AuditLog.publish_answers event (env.withFollowUps f) e
  obtain ⟨m, hm⟩ := AuditLog.publish_inMargin event env e
  obtain ⟨m', hm'⟩ := AuditLog.publish_inMargin event (env.withFollowUps f) e
  refine ⟨?_, ?_⟩
  · rw [outcome_bind, outcome_bind, hok, hok', hm, hm']
    exact ⟨rfl, rfl, rfl, rfl⟩
  · rw [AuditLog.cache_after_announcing, AuditLog.cache_after_announcing]

end Call.Announces

theorem BundleCache.overlooks_invalidateWhere (hc : f.canInvalidate = env.canInvalidate)
    (tenant : Given) (selected : CacheRow → Bool) (reason : String) :
    Overlooks env f (invalidateWhere tenant selected reason) := by
  refine .after_read (by simp only [Environment.withFollowUps, hc]) ?_
  split
  · exact (Overlooks.requireTenant tenant).bind fun _ => Overlooks.store.bind fun _ =>
      Overlooks.now.bind fun _ => (Overlooks.write _).bind fun _ => .pure _
  · exact .throw _

namespace Generation

theorem announces_invalidate (hc : f.canInvalidate = env.canInvalidate)
    (tenant user reason scope actor : Given) :
    Announces env f (invalidate tenant user reason scope actor) := by
  unfold invalidate
  rcases scope.nonempty? with _ | scope
  · exact .after_overlooks (BundleCache.overlooks_invalidateWhere hc tenant _ _)
      fun _ => .publish _ _
  · refine .after_overlooks ?_ fun marked => .publish _ _
    exact (BundleCache.overlooks_invalidateWhere hc tenant _ _).bind fun _ => .pure _

theorem announces_invalidateTenant (hc : f.canInvalidate = env.canInvalidate)
    (tenant reason actor : Given) : Announces env f (invalidateTenant tenant reason actor) :=
  .after_overlooks (BundleCache.overlooks_invalidateWhere hc tenant _ _) fun _ => .publish _ _

theorem Invalidation.announces (hc : f.canInvalidate = env.canInvalidate) (op : Invalidation) :
    Announces env f op.call := by
  cases op with
  | ofUser tenant user reason scope actor =>
    exact announces_invalidate hc tenant user reason scope actor
  | ofTenant tenant reason actor => exact announces_invalidateTenant hc tenant reason actor

end Generation

theorem AdministrationCall.endsAs (op : AdministrationCall α) (e : Engine) :
    EndsAs (op.call.outcome (env.withFollowUps f) e) (op.call.outcome env e) ∧
      (f.MarksAs env → (op.call.after (env.withFollowUps f) e).store.cache =
        (op.call.after env e).store.cache) := by
  have hrobust : Robust env f op.call := op.robust
  have hmatched := hrobust e e.margin fun _ => rfl
  rw [Engine.withMargin_margin] at hmatched
  obtain ⟨m, hm, hcache⟩ := hmatched.engines
  rw [after, after, hm]
  exact ⟨⟨hmatched.answers.symm, congrArg (·.store.policies) hm, congrArg (·.store.roles) hm,
    congrArg (·.store.assignments) hm⟩, fun hmarks => (hcache hmarks).symm⟩

end

/-- Follow-ups decide nothing. With whatever follow-ups, a call of administration gives the same
answer or fails for the same reason, and leaves the same policies, roles and assignments; and if
bundles are marked in the same way, the cached ones are the same too, whatever happens to the
announcements. So it is with the calls that mark bundles themselves. -/
theorem followUps_decide_nothing (env : Environment) (f : FollowUps) (e : Engine) :
    (∀ {α : Type} (op : AdministrationCall α),
        EndsAs (op.call.outcome (env.withFollowUps f) e) (op.call.outcome env e) ∧
          (f.MarksAs env → (op.call.after (env.withFollowUps f) e).store.cache =
            (op.call.after env e).store.cache)) ∧
      (f.canInvalidate = env.canInvalidate → ∀ op : Generation.Invalidation,
        EndsAs (op.call.outcome (env.withFollowUps f) e) (op.call.outcome env e) ∧
          (op.call.after (env.withFollowUps f) e).store.cache =
            (op.call.after env e).store.cache) :=
  ⟨fun op => op.endsAs e, fun hc op => op.announces hc e⟩

/-- A bundle that is cached while fans are allowed. -/
def Engine.fansCached : Engine :=
  fansAllowed.withCache
    [{ tenant := "acme", userId := "alice", scope := "tenant:*", bundle := .null, checksum := ""
       generatedAt := ⟨0⟩, expiresAt := ⟨300 * Instant.microsPerSecond⟩, invalidatedAt := none
       invalidationReason := none, updatedAt := ⟨0⟩ }]

/-- The sink refuses the event, and the bundle is marked all the same. -/
theorem revocation_marks_beside_refusing_sink :
    let env := Environment.plain.withFollowUps ⟨.refusing, true, true⟩
    let call := Administration.revoke (some "acme") (some "ra-0001") (some "admin") none
    (call.outcome env Engine.fansCached).1.isOk = true ∧
      (call.after env Engine.fansCached).store.cache.map (·.invalidationReason) =
        [some "Role operator revoked"] := by
  obtain ⟨hends, hcache⟩ := (followUps_decide_nothing Environment.plain ⟨.refusing, true, true⟩
    Engine.fansCached).1 (.revoke (some "acme") (some "ra-0001") (some "admin") none)
  refine ⟨?_, ?_⟩
  · exact (congrArg Except.isOk hends.answer).trans rfl
  · exact (congrArg (List.map (·.invalidationReason)) (hcache ⟨rfl, rfl⟩)).trans rfl

end Entitlements
