import Entitlements.Proofs.Tenancy.Services

/-!
Tenants do not see each other. `TenantCall` lists what can be asked for in the name of one tenant;
what is left out looks after all tenants at once, such as the clean-up of the cache, or fills the
directory. Two databases that agree on a tenant give it the same answers and agree on it afterwards,
and in neither of them has anything changed that is not the tenant's own.

The one thing of others that a tenant could make out are the numbers of its audit rows, which count
the rows of all. So answers are compared as shown, without these numbers.
-/

namespace Entitlements

open Time Call

/-- The calls in the name of a tenant, each with the type of its answers. -/
inductive TenantCall : Type → Type where
  -- Evaluation
  | evaluate (user right scope : Given) : TenantCall Decision
  | evaluateBatch (user : Given) (rights : List Given) (scope : Given) :
    TenantCall Evaluation.Batch
  | grants (user scope : Given) (present : Option Stamp) : TenantCall (List Grant)
  | effective (user scope : Given) : TenantCall (List EffectivePermission)
  -- Generation
  | generate (user : Given) (o : BundleOptions) : TenantCall Bundle
  | refresh (user scope reason : Given) : TenantCall Bundle
  | permits (user : Given) (key : DomainKey) (scope : Given) : TenantCall Bool
  | featureAccess (user : Given) (feature : String) (scope : Given) : TenantCall FeatureAccess
  | invalidate (user reason scope actor : Given) : TenantCall Nat
  | invalidateTenant (reason actor : Given) : TenantCall Nat
  -- Administration
  | policy (key : Given) : TenantCall Policy
  | createPolicy (p : NewPolicy) (actor : Given) : TenantCall Policy
  | updatePolicy (key : Given) (c : PolicyChange) (actor : Given) : TenantCall Policy
  | deletePolicy (key actor : Given) : TenantCall Unit
  | role (key : Given) : TenantCall Role
  | createRole (r : NewRole) (actor : Given) : TenantCall Role
  | updateRole (key : Given) (c : RoleChange) (actor : Given) : TenantCall Role
  | deleteRole (key actor : Given) : TenantCall Unit
  | assignRole (d : AssignmentDraft) : TenantCall Assignment
  | revoke (id actor reason : Given) : TenantCall Assignment
  | assignments (user : Given) (liveOnly : Bool) : TenantCall (List Assignment)
  -- The access store
  | storedPolicy? (key : Given) : TenantCall (Option Policy)
  | storedPolicyRowById? (id : Given) : TenantCall (Option PolicyRow)
  | storedPolicies (offset limit : Option Int) : TenantCall (List Policy)
  | savePolicy (d : PolicyDraft) (actor : Given) : TenantCall Policy
  | removePolicy (key : Given) : TenantCall Bool
  | storedRole? (key : Given) : TenantCall (Option Role)
  | storedRoleRowById? (id : Given) : TenantCall (Option RoleRow)
  | storedRoleRows (offset limit : Option Int) : TenantCall (List RoleRow)
  | storedRoles : TenantCall (List Role)
  | rolesUsing (key : Given) : TenantCall (List String)
  | saveRole (d : RoleDraft) (actor : Given) : TenantCall Role
  | removeRole (key : Given) : TenantCall Bool
  | storedAssignment? (id : Given) : TenantCall (Option Assignment)
  | storedAssignments (user : Given) (liveOnly : Bool) : TenantCall (List Assignment)
  | liveAssignment? (user key scope : Given) : TenantCall (Option Assignment)
  | countLive (key : Given) : TenantCall Nat
  | createAssignment (d : AssignmentDraft) (grantedAt : Option Instant) : TenantCall Assignment
  | setStatus (id status actor : Given) : TenantCall (Option Assignment)
  | recordExpiry (now : Instant) : TenantCall Nat
  -- The directory
  | user? (id : Given) : TenantCall (Option UserRow)
  | customer? (id : Given) : TenantCall (Option CustomerRow)
  | primaryGroup? (user : Given) : TenantCall (Option GroupRow)
  -- The cache
  | cached? (user scope : Given) : TenantCall (Option CacheEntry)
  | cache (user scope : Given) (bundle : Bundle) (checksum : Given)
      (generatedAt expiresAt : Option Instant) : TenantCall CacheEntry
  | markUser (user reason : Given) : TenantCall Nat
  | markScope (user scope reason : Given) : TenantCall Bool
  | markTenant (reason : Given) : TenantCall Nat
  | uncache (user scope : Given) : TenantCall Nat
  -- The catalogue
  | createPermission (p : NewPermission) (actor : Given) : TenantCall PermissionRow
  | createPermissions (items : List NewPermission) (actor : Given) : TenantCall BulkResult
  | permission (id : Given) : TenantCall PermissionRow
  | updatePermission (id : Given) (c : PermissionChange) (actor : Given) : TenantCall PermissionRow
  | deletePermission (id actor : Given) : TenantCall Unit
  | permissions (f : CatalogFilter) (offset : Option Int) (limit : Int) : TenantCall PermissionPage
  | activePermissions : TenantCall (List PermissionRow)
  | domains : TenantCall (List String)
  | equipment (domain : Given) : TenantCall (List String)
  | locations (domain unit : Given) : TenantCall (List String)
  -- Maintenance
  | expireAssignments (present : Option Stamp) : TenantCall Nat
  | runExpiry (days : Option Int) : TenantCall Nat
  -- The audit log
  | record (mode : AuditLog.Mode) (bestEffort : Bool) (d : AuditDraft) : TenantCall Unit
  | events (f : AuditFilter) (offset limit : Option Int) : TenantCall (List AuditRow)

namespace TenantCall

/-- The call in the name of a tenant. -/
def call (tenant : String) : TenantCall α → Call α
  | evaluate user right scope => Evaluation.evaluate (some tenant) user right scope
  | evaluateBatch user rights scope => Evaluation.evaluateBatch (some tenant) user rights scope
  | grants user scope present => Evaluation.grants (some tenant) user scope present
  | effective user scope => Evaluation.effective (some tenant) user scope
  | generate user o => Generation.generate (some tenant) user o
  | refresh user scope reason => Generation.refresh (some tenant) user scope reason
  | permits user key scope => Generation.permits (some tenant) user key scope
  | featureAccess user feature scope => Generation.featureAccess (some tenant) user feature scope
  | invalidate user reason scope actor =>
    Generation.invalidate (some tenant) user reason scope actor
  | invalidateTenant reason actor => Generation.invalidateTenant (some tenant) reason actor
  | policy key => Administration.policy (some tenant) key
  | createPolicy p actor => Administration.createPolicy (some tenant) p actor
  | updatePolicy key c actor => Administration.updatePolicy (some tenant) key c actor
  | deletePolicy key actor => Administration.deletePolicy (some tenant) key actor
  | role key => Administration.role (some tenant) key
  | createRole r actor => Administration.createRole (some tenant) r actor
  | updateRole key c actor => Administration.updateRole (some tenant) key c actor
  | deleteRole key actor => Administration.deleteRole (some tenant) key actor
  | assignRole d => Administration.assignRole (some tenant) d
  | revoke id actor reason => Administration.revoke (some tenant) id actor reason
  | assignments user liveOnly => Administration.assignments (some tenant) user liveOnly
  | storedPolicy? key => AccessStore.policy? (some tenant) key
  | storedPolicyRowById? id => AccessStore.policyRowById? (some tenant) id
  | storedPolicies offset limit => AccessStore.policies (some tenant) offset limit
  | savePolicy d actor => AccessStore.savePolicy (some tenant) d actor
  | removePolicy key => AccessStore.removePolicy (some tenant) key
  | storedRole? key => AccessStore.role? (some tenant) key
  | storedRoleRowById? id => AccessStore.roleRowById? (some tenant) id
  | storedRoleRows offset limit => AccessStore.roleRows (some tenant) offset limit
  | storedRoles => AccessStore.roles (some tenant)
  | rolesUsing key => AccessStore.rolesUsing (some tenant) key
  | saveRole d actor => AccessStore.saveRole (some tenant) d actor
  | removeRole key => AccessStore.removeRole (some tenant) key
  | storedAssignment? id => AccessStore.assignment? (some tenant) id
  | storedAssignments user liveOnly => AccessStore.assignments (some tenant) user liveOnly
  | liveAssignment? user key scope => AccessStore.liveAssignment? (some tenant) user key scope
  | countLive key => AccessStore.countLive (some tenant) key
  | createAssignment d grantedAt => AccessStore.createAssignment (some tenant) d grantedAt
  | setStatus id status actor => AccessStore.setStatus (some tenant) id status actor
  | recordExpiry now => AccessStore.expireAssignments (some tenant) now
  | user? id => Directory.user? (some tenant) id
  | customer? id => Directory.customer? (some tenant) id
  | primaryGroup? user => Directory.primaryGroup? (some tenant) user
  | cached? user scope => BundleCache.get? (some tenant) user scope
  | cache user scope bundle checksum generatedAt expiresAt =>
    BundleCache.put (some tenant) user scope bundle checksum generatedAt expiresAt
  | markUser user reason => BundleCache.invalidateUser (some tenant) user reason
  | markScope user scope reason => BundleCache.invalidateScope (some tenant) user scope reason
  | markTenant reason => BundleCache.invalidateTenant (some tenant) reason
  | uncache user scope => BundleCache.delete (some tenant) user scope
  | createPermission p actor => Catalog.create (some tenant) p actor
  | createPermissions items actor => Catalog.createAll (some tenant) items actor
  | permission id => Catalog.get (some tenant) id
  | updatePermission id c actor => Catalog.update (some tenant) id c actor
  | deletePermission id actor => Catalog.delete (some tenant) id actor
  | permissions f offset limit => Catalog.list (some tenant) f offset limit
  | activePermissions => Catalog.active (some tenant)
  | domains => Catalog.domains (some tenant)
  | equipment domain => Catalog.equipment (some tenant) domain
  | locations domain unit => Catalog.locations (some tenant) domain unit
  | expireAssignments present => Maintenance.expireAssignments (some tenant) present
  | runExpiry days =>
    Maintenance.run (some Maintenance.Task.expireAssignments.name) (some tenant) days
  | record mode bestEffort d =>
    AuditLog.record mode bestEffort { d with tenant := some tenant }
  | events f offset limit => AuditLog.events (some tenant) f offset limit

/-- An answer without the numbers of audit rows. -/
def shown : TenantCall α → α → α
  | events _ _ _, rows => rows.map AuditRow.content
  | _, answer => answer

/-- Each call keeps to its tenant, up to the numbers of audit rows. -/
theorem isolated (tenant : String) (op : TenantCall α) :
    Isolated tenant (op.shown <$> op.call tenant) := by
  cases op with
  | evaluate user right scope => exact (Evaluation.isolated_evaluate tenant user right scope).map
  | evaluateBatch user rights scope =>
    exact (Evaluation.isolated_evaluateBatch tenant user rights scope).map
  | grants user scope present => exact (Evaluation.isolated_grants tenant user scope present).map
  | effective user scope => exact (Evaluation.isolated_effective tenant user scope).map
  | generate user o => exact (Generation.isolated_generate tenant user o).map
  | refresh user scope reason => exact (Generation.isolated_refresh tenant user scope reason).map
  | permits user key scope => exact (Generation.isolated_permits tenant user key scope).map
  | featureAccess user feature scope =>
    exact (Generation.isolated_featureAccess tenant user feature scope).map
  | invalidate user reason scope actor =>
    exact (Generation.isolated_invalidate tenant user reason scope actor).map
  | invalidateTenant reason actor =>
    exact (Generation.isolated_invalidateTenant tenant reason actor).map
  | policy key => exact (Administration.isolated_policy tenant key).map
  | createPolicy p actor => exact (Administration.isolated_createPolicy tenant p actor).map
  | updatePolicy key c actor => exact (Administration.isolated_updatePolicy tenant key c actor).map
  | deletePolicy key actor => exact (Administration.isolated_deletePolicy tenant key actor).map
  | role key => exact (Administration.isolated_role tenant key).map
  | createRole r actor => exact (Administration.isolated_createRole tenant r actor).map
  | updateRole key c actor => exact (Administration.isolated_updateRole tenant key c actor).map
  | deleteRole key actor => exact (Administration.isolated_deleteRole tenant key actor).map
  | assignRole d => exact (Administration.isolated_assignRole tenant d).map
  | revoke id actor reason => exact (Administration.isolated_revoke tenant id actor reason).map
  | assignments user liveOnly =>
    exact (Administration.isolated_assignments tenant user liveOnly).map
  | storedPolicy? key => exact (AccessStore.isolated_policy? tenant key).map
  | storedPolicyRowById? id => exact (AccessStore.isolated_policyRowById? tenant id).map
  | storedPolicies offset limit => exact (AccessStore.isolated_policies tenant offset limit).map
  | savePolicy d actor => exact (AccessStore.isolated_savePolicy tenant d actor).map
  | removePolicy key => exact (AccessStore.isolated_removePolicy tenant key).map
  | storedRole? key => exact (AccessStore.isolated_role? tenant key).map
  | storedRoleRowById? id => exact (AccessStore.isolated_roleRowById? tenant id).map
  | storedRoleRows offset limit => exact (AccessStore.isolated_roleRows tenant offset limit).map
  | storedRoles => exact (AccessStore.isolated_roles tenant).map
  | rolesUsing key => exact (AccessStore.isolated_rolesUsing tenant key).map
  | saveRole d actor => exact (AccessStore.isolated_saveRole tenant d actor).map
  | removeRole key => exact (AccessStore.isolated_removeRole tenant key).map
  | storedAssignment? id => exact (AccessStore.isolated_assignment? tenant id).map
  | storedAssignments user liveOnly =>
    exact (AccessStore.isolated_assignments tenant user liveOnly).map
  | liveAssignment? user key scope =>
    exact (AccessStore.isolated_liveAssignment? tenant user key scope).map
  | countLive key => exact (AccessStore.isolated_countLive tenant key).map
  | createAssignment d grantedAt =>
    exact (AccessStore.isolated_createAssignment tenant d grantedAt).map
  | setStatus id status actor => exact (AccessStore.isolated_setStatus tenant id status actor).map
  | recordExpiry now => exact (AccessStore.isolated_expireAssignments tenant now).map
  | user? id => exact (Directory.isolated_user? tenant id).map
  | customer? id => exact (Directory.isolated_customer? tenant id).map
  | primaryGroup? user => exact (Directory.isolated_primaryGroup? tenant user).map
  | cached? user scope => exact (BundleCache.isolated_get? tenant user scope).map
  | cache user scope bundle checksum generatedAt expiresAt =>
    exact (BundleCache.isolated_put tenant user scope bundle checksum generatedAt expiresAt).map
  | markUser user reason => exact (BundleCache.isolated_invalidateUser tenant user reason).map
  | markScope user scope reason =>
    exact (BundleCache.isolated_invalidateScope tenant user scope reason).map
  | markTenant reason => exact (BundleCache.isolated_invalidateTenant tenant reason).map
  | uncache user scope => exact (BundleCache.isolated_delete tenant user scope).map
  | createPermission p actor => exact (Catalog.isolated_create tenant p actor).map
  | createPermissions items actor => exact (Catalog.isolated_createAll tenant items actor).map
  | permission id => exact (Catalog.isolated_get tenant id).map
  | updatePermission id c actor => exact (Catalog.isolated_update tenant id c actor).map
  | deletePermission id actor => exact (Catalog.isolated_delete tenant id actor).map
  | permissions f offset limit => exact (Catalog.isolated_list tenant f offset limit).map
  | activePermissions => exact (Catalog.isolated_active tenant).map
  | domains => exact (Catalog.isolated_domains tenant).map
  | equipment domain => exact (Catalog.isolated_equipment tenant domain).map
  | locations domain unit => exact (Catalog.isolated_locations tenant domain unit).map
  | expireAssignments present => exact (Maintenance.isolated_expireAssignments tenant present).map
  | runExpiry days => exact (Maintenance.isolated_runExpiry tenant days).map
  | record mode bestEffort d => exact (AuditLog.isolated_record tenant mode bestEffort rfl).map
  | events f offset limit => exact AuditLog.isolated_events tenant f offset limit

/-! ### Two databases -/

variable {tenant : String} {e e' : Engine}

/-- What twins answer and what they have become. -/
theorem twinRuns (op : TenantCall α) (env : Environment) (h : e.Twin tenant e') :
    ((op.call tenant).outcome env e).1.map op.shown =
        ((op.call tenant).outcome env e').1.map op.shown ∧
      e.StepsAlike tenant e' ((op.call tenant).after env e) ((op.call tenant).after env e') := by
  have hshown (e : Engine) : (op.shown <$> op.call tenant).outcome env e =
      (((op.call tenant).outcome env e).1.map op.shown, (op.call tenant).after env e) := by
    rw [outcome_map, after]
    rcases (op.call tenant).outcome env e with ⟨_ | _, _⟩ <;> rfl
  have hruns := op.isolated tenant env e e' h
  have hanswers := hruns.answers
  have hsteps := hruns.toStepsAlike
  rw [hshown, hshown] at hanswers
  rw [after_eq_of_outcome (hshown e), after_eq_of_outcome (hshown e')] at hsteps
  exact ⟨hanswers, hsteps⟩

/-- Two databases may differ in everything but the rows of a tenant and the global permissions: a
call of that tenant does not tell which of them it was made on, and no row of another tenant and no
global permission is touched. -/
theorem tells_nothing_of_others (op : TenantCall α) (env : Environment)
    (hagrees : e.AgreesOn tenant e') (h : e.IsConsistent) (h' : e'.IsConsistent) :
    ((op.call tenant).outcome env e).1.map op.shown =
        ((op.call tenant).outcome env e').1.map op.shown ∧
      ((op.call tenant).after env e).AgreesOn tenant ((op.call tenant).after env e') ∧
      e.store.Spares tenant ((op.call tenant).after env e).store ∧
      e'.store.Spares tenant ((op.call tenant).after env e').store ∧
      ((op.call tenant).after env e).IsConsistent ∧
      ((op.call tenant).after env e').IsConsistent := by
  obtain ⟨hanswers, hsteps⟩ := op.twinRuns env ⟨hagrees, h, h'⟩
  exact ⟨hanswers, hsteps.twin.toAgreesOn, hsteps.left.store, hsteps.right.store,
    hsteps.twin.left, hsteps.twin.right⟩

/-- A database in which another tenant has a policy for fans and an entry in the log. -/
def fansOfGlobex : Engine :=
  { Engine.start ⟨0⟩ false with
    store := { Store.empty with
      policies :=
        [{ tenant := "globex", createdBy := none, updatedBy := none, updatedAt := ⟨0⟩
           policy :=
            { id := "po-0007", key := "fans", allow := [], deny := [], risk := .low
              conditions := none, displayName := "Fans", description := ""
              isSystem := true } }]
      audit :=
        [{ id := 7, occurredAt := ⟨0⟩, tenant := some "globex", actorType := "system"
           actorId := none, eventType := "policy.created", outcome := "success"
           resourceType := some "policy", resourceId := some "fans", correlationId := none
           metadata := .obj [] }] } }

/-- The policy of the same key that a tenant adds to it, as it would to an empty database. -/
def createFans : TenantCall Policy :=
  createPolicy
    { key := some "fans", displayName := some "Fans", allow := .ofTexts ["hvac.fan.roof:start"]
      deny := .arr [], risk := .null, conditions := .null, description := none
      isSystem := false } (some "admin")

/-- The new entries of the log say the same under different numbers. -/
theorem taken_key_of_others_is_free :
    let env := { Environment.plain with sink := .audit }
    let alone := (createFans.call "acme").after env (Engine.start ⟨0⟩ false)
    let shared := (createFans.call "acme").after env fansOfGlobex
    (∃ p : Policy, ((createFans.call "acme").outcome env fansOfGlobex).1 = .ok p ∧
      p.id = "po-0001" ∧
      ((createFans.call "acme").outcome env (Engine.start ⟨0⟩ false)).1 = .ok p) ∧
    alone.store.audit.map (·.id) = [1] ∧ shared.store.audit.map (·.id) = [7, 8] ∧
    alone.store.auditOf "acme" = shared.store.auditOf "acme" ∧
    shared.store.policies.head? = fansOfGlobex.store.policies.head? := by
  have hstart := Engine.isConsistent_empty ⟨0⟩ (.numbered false)
  have hshared : fansOfGlobex.IsConsistent :=
    { hstart with policies := List.nodup_singleton _, audit := List.nodup_singleton _ }
  have hagrees : (Engine.start ⟨0⟩ false).AgreesOn "acme" fansOfGlobex :=
    { clock := rfl
      ids := rfl
      store :=
        { users := .nil, customers := .nil, groups := .nil, members := .nil, policies := .nil
          roles := .nil, assignments := .nil, cache := .nil, permissions := .nil
          audit := by
            simp [Store.auditOf, Store.allAudit, fansOfGlobex, Engine.start, Engine.empty,
              Store.empty] } }
  obtain ⟨hanswers, hafter, -⟩ := tells_nothing_of_others createFans
    { Environment.plain with sink := .audit } hagrees hstart hshared
  have hshown (r : Except Failure Policy) : r.map createFans.shown = r := by cases r <;> rfl
  rw [hshown, hshown] at hanswers
  exact ⟨⟨_, rfl, rfl, hanswers⟩, rfl, rfl, hafter.store.audit, rfl⟩

end TenantCall

end Entitlements
