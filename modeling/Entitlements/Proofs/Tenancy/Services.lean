import Entitlements.Administration.Assignments
import Entitlements.Catalog
import Entitlements.Maintenance
import Entitlements.Proofs.Tenancy.Calls

/-!
The services keep to the tenant they are called for. Almost all of them are put together from calls
on the tables, so the rules are enough. Only the catalogue writes rows of its own, and there a
tenant sees more than it may change: its checks keep the global rows as they are.
-/

namespace Entitlements

open Time Call

variable (tenant : String)

namespace Catalog

theorem isolated_audit (actor : Given) (type : EventType) (row : PermissionRow)
    (more : Json.Fields) : Isolated tenant (audit (some tenant) actor type row more) :=
  Isolated.read.bind fun _ => .ite
    (Isolated.now.bind fun _ => AuditLog.isolated_record tenant _ _ rfl) (.pure _)

theorem isolated_insert (p : NewPermission) (actor : Given) :
    Isolated tenant (insert (some tenant) p actor) := by
  refine (Isolated.ofExcept _).bind fun _ => (Isolated.ofExcept _).bind fun risk =>
    Isolated.read.bind fun env => fun env' e e' h => .store_bind ?_
  rw [← h.registered?]
  dsimp only
  split
  · exact .of_outcome rfl rfl (.refl h)
  have hspent := (h.spend .permission).twin
  refine .freshId_bind h (.store_bind (.now_bind hspent ?_))
  -- The table asks once more whether the key is taken, and among the tenant's own rows only.
  have hclash := h.store.permissions.any_eq
    (p := fun r => r.tenant == some tenant && r.key == p.key) fun r hr =>
      PermissionRow.isVisibleTo_of_tenant (beq_iff_eq.1 (Bool.and_eq_true_iff.1 hr).1)
  rw [Store.insertPermission?_eq, Store.insertPermission?_eq, Option.isSome_some, Bool.true_and,
    Bool.true_and]
  dsimp only
  rw [← hclash]
  split
  · exact .orFail_none hspent _
  · next hnone =>
    refine .orFail_some (.write_bind (h.addPermission rfl rfl fun r hr hsame => hnone ?_) ?_)
    · exact List.any_eq_true.2 ⟨r, hr, by simp [hsame, PermissionDraft.row]⟩
    · exact (isolated_audit tenant _ _ _ _).bind fun _ => .pure _

theorem isolated_create (p : NewPermission) (actor : Given) :
    Isolated tenant (create (some tenant) p actor) := (isolated_insert tenant p actor).transaction

theorem isolated_insertUnlessThere (p : NewPermission) (actor : Given) :
    Isolated tenant (insertUnlessThere (some tenant) p actor) := by
  refine (isolated_insert tenant p actor).map.tryCatch fun failure => ?_
  split
  · exact .pure _
  · exact .throw _

theorem isolated_createAll (items : List NewPermission) (actor : Given) :
    Isolated tenant (createAll (some tenant) items actor) := by
  refine Isolated.transaction (Isolated.bind (.list_mapM (fun p => ?_) items) fun _ => .pure _)
  exact (isolated_insertUnlessThere tenant p actor).bind fun _ => .pure _

theorem isolated_get (id : Given) : Isolated tenant (get (some tenant) id) :=
  .look (g := fun s => s.visiblePermission? (some tenant) id) (fun _ _ h => h.visiblePermission? id)
    fun row? => .orFail _ row?

variable {tenant} in
/-- A tenant that is let through to a row owns it, on both sides. -/
theorem owned_bind {id : Given} {k : PermissionRow → Call α} {env : Environment} {e e' : Engine}
    (h : e.Twin tenant e') (hk : ∀ row ∈ e.store.permissions, row.tenant = some tenant →
      TwinRuns tenant (k row) (k row) env e e') :
    TwinRuns tenant (owned (some tenant) id >>= k) (owned (some tenant) id >>= k) env e e' := by
  simp only [owned, get, bind_assoc]
  refine .store_bind ?_
  rw [← h.visiblePermission?]
  rcases hrow : e.store.visiblePermission? (some tenant) id with _ | row
  · exact .orFail_none h _
  · refine .orFail_some ?_
    have hmem := List.mem_of_find?_eq_some hrow
    split
    · exact .of_outcome rfl rfl (.refl h)
    · next hown => exact hk row hmem (not_not.1 hown)

theorem isolated_update (id : Given) (c : PermissionChange) (actor : Given) :
    Isolated tenant (update (some tenant) id c actor) := by
  refine Isolated.transaction fun env e e' h => owned_bind h fun row _ hrow => ?_
  refine Isolated.ite_bind (.pure _) (.ofExcept _) (fun risk => ?_) env e e' h
  refine Isolated.now.bind fun now env e e' h =>
    .store_bind (.write_bind (h.replacePermission hrow rfl rfl rfl) ?_)
  exact (isolated_audit tenant actor _ _ _).bind fun _ => .pure _

/-- The entry in the log comes first and leaves the catalogue as it is. -/
theorem permissions_audit (env : Environment) (e : Engine) (actor : Given) (type : EventType)
    (row : PermissionRow) (more : Json.Fields) :
    ((audit (some tenant) actor type row more).after env e).store.permissions =
      e.store.permissions := by
  rw [audit, after_bind_of_ok (outcome_read env e)]
  split
  · rw [after_bind_of_ok (outcome_now env e)]
    obtain ⟨m, -, hlogged⟩ := AuditLog.append_logs env e _
    exact congrArg (·.store.permissions) hlogged
  · rfl

theorem isolated_delete (id actor : Given) : Isolated tenant (delete (some tenant) id actor) := by
  refine Isolated.transaction fun env e e' h => owned_bind h fun row hmem hrow => ?_
  have hruns := isolated_audit tenant actor .domainPermissionDeleted row [] env e e' h
  refine hruns.bind fun _ => .store_bind ?_
  rw [← permissions_audit tenant env e actor .domainPermissionDeleted row []] at hmem
  exact .of_outcome rfl rfl (hruns.twin.removePermission hmem hrow)

theorem isolated_list (f : CatalogFilter) (offset : Option Int) (limit : Int) :
    Isolated tenant (list (some tenant) f offset limit) :=
  .look (g := fun s => s.catalog (some tenant) f)
    (k := fun rows => window offset (some (limit + 1)) rows >>= _)
    (fun _ _ h => h.catalog f) fun rows => (Isolated.window _ _ rows).bind fun _ => .pure _

theorem isolated_active : Isolated tenant (active (some tenant)) :=
  .look (g := fun s => s.catalog (some tenant) activeFilter) (fun _ _ h => h.catalog _) .pure

theorem isolated_domains : Isolated tenant (domains (some tenant)) :=
  .look (g := fun s => s.catalogValues (some tenant) activeFilter (·.domain))
    (fun _ _ h => h.catalogValues _ _) .pure

theorem isolated_equipment (domain : Given) : Isolated tenant (equipment (some tenant) domain) :=
  .look (g := fun s => s.catalogValues (some tenant) { activeFilter with domain } (·.equipment))
    (fun _ _ h => h.catalogValues _ _) .pure

theorem isolated_locations (domain equipment : Given) :
    Isolated tenant (locations (some tenant) domain equipment) :=
  .look (g := fun s =>
      s.catalogValues (some tenant) { activeFilter with domain, equipment } (·.location))
    (fun _ _ h => h.catalogValues _ _) .pure

end Catalog

namespace Evaluation

theorem isolated_evaluate (user permission scope : Given) :
    Isolated tenant (evaluate (some tenant) user permission scope) := by
  refine (Isolated.requireTenant _).bind fun _ => Isolated.now.bind fun now => ?_
  intro env e e' h
  refine .store_bind ?_
  rw [h.verdict]
  exact Isolated.pure _ env e e' h

theorem isolated_evaluateBatch (user : Given) (permissions : List Given) (scope : Given) :
    Isolated tenant (evaluateBatch (some tenant) user permissions scope) := by
  refine (Isolated.requireTenant _).bind fun _ => Isolated.now.bind fun now => ?_
  intro env e e' h
  refine .store_bind ?_
  dsimp only [Store.grantsAt]
  rw [h.liveAssignmentsOf, h.grantsWhere]
  exact Isolated.pure _ env e e' h

theorem isolated_grants (user scope : Given) (present : Option Stamp) :
    Isolated tenant (grants (some tenant) user scope present) := by
  refine (Isolated.requireTenant _).bind fun _ env e e' h => .store_bind ?_
  rcases present with _ | present
  · simp only [Store.grantsFor, h.grantsWhere]
    exact (Isolated.now.bind fun _ => .pure _) env e e' h
  · have hgrants : e.store.grantsOf (some tenant) = e'.store.grantsOf (some tenant) :=
      funext h.grantsOf
    dsimp only
    rw [h.liveAssignmentsOf, hgrants]
    exact ((Isolated.ofExcept _).bind fun _ => .pure _) env e e' h

theorem isolated_effective (user scope : Given) :
    Isolated tenant (effective (some tenant) user scope) :=
  (isolated_grants tenant user scope none).bind fun _ => .pure _

end Evaluation

namespace Generation

theorem isolated_profile (user : Given) : Isolated tenant (profile (some tenant) user) := by
  refine (Directory.isolated_user? tenant user).bind fun row? => (Isolated.orFail _ row?).bind
    fun row => ?_
  have hgroup := Directory.isolated_primaryGroup? tenant user
  dsimp only
  split
  · exact (Directory.isolated_customer? tenant _).bind fun _ => hgroup.bind fun _ => .pure _
  · exact (Isolated.pure _).bind fun _ => hgroup.bind fun _ => .pure _

theorem isolated_scopeOf (o : BundleOptions) : Isolated tenant (scopeOf o) :=
  Isolated.read.bind fun _ => .pure _

theorem isolated_compile (user : Given) (o : BundleOptions) :
    Isolated tenant (compile (some tenant) user o) := by
  refine Isolated.read.bind fun env => (isolated_scopeOf tenant o).bind fun scope => ?_
  refine Isolated.now.bind fun now => (isolated_profile tenant user).bind fun profile => ?_
  refine (Evaluation.isolated_grants tenant user (some scope) none).bind fun grants => ?_
  exact (Isolated.ofExcept _).bind fun _ => .pure _

theorem isolated_compileAndCache (user : Given) (o : BundleOptions) :
    Isolated tenant (compileAndCache (some tenant) user o) :=
  (isolated_compile tenant user o).bind fun _ =>
    (BundleCache.isolated_put tenant _ _ _ _ _ _).bind fun _ => .pure _

theorem isolated_generate (user : Given) (o : BundleOptions) :
    Isolated tenant (generate (some tenant) user o) := by
  refine .ite ?_ (isolated_compile tenant user o)
  refine (isolated_scopeOf tenant o).bind fun scope =>
    (BundleCache.isolated_get? tenant user (some scope)).bind fun entry? => ?_
  split
  · exact .pure _
  · exact isolated_compileAndCache tenant user o

theorem isolated_invalidate (user reason scope actor : Given) :
    Isolated tenant (invalidate (some tenant) user reason scope actor) := by
  have hpublish (affected : Nat) := AuditLog.isolated_publish tenant
    (e := invalidated (some tenant) "user_bundle" user reason scope actor affected) rfl
  simp only [invalidate]
  split
  · exact (BundleCache.isolated_invalidateScope tenant user _ reason).bind fun _ =>
      (Isolated.pure _).bind fun affected => (hpublish affected).bind fun _ => .pure _
  · exact (BundleCache.isolated_invalidateUser tenant user reason).bind fun affected =>
      (hpublish affected).bind fun _ => .pure _

theorem isolated_invalidateTenant (reason actor : Given) :
    Isolated tenant (invalidateTenant (some tenant) reason actor) :=
  (BundleCache.isolated_invalidateTenant tenant reason).bind fun _ =>
    (AuditLog.isolated_publish tenant rfl).bind fun _ => .pure _

theorem isolated_refresh (user scope reason : Given) :
    Isolated tenant (refresh (some tenant) user scope reason) :=
  (isolated_scopeOf tenant _).bind fun _ =>
    (BundleCache.isolated_invalidateScope tenant user _ reason).bind fun _ =>
      isolated_generate tenant user _

theorem isolated_permits (user : Given) (key : DomainKey) (scope : Given) :
    Isolated tenant (permits (some tenant) user key scope) :=
  (isolated_generate tenant user _).bind fun _ => .pure _

theorem isolated_featureAccess (user : Given) (feature : String) (scope : Given) :
    Isolated tenant (featureAccess (some tenant) user feature scope) :=
  (isolated_generate tenant user _).bind fun _ => .pure _

end Generation

namespace Administration

theorem isolated_markStale (reason : String) (actor : Given) (stale : Stale) :
    Isolated tenant (markStale (some tenant) reason actor stale) := by
  cases stale with
  | nothing => exact .pure _
  | user id => exact (Generation.isolated_invalidate tenant id _ none actor).discard
  | tenant => exact (Generation.isolated_invalidateTenant tenant _ actor).discard

theorem isolated_followUp {e : Event} (he : e.tenant = some tenant) (stale : Stale)
    (reason : String) (actor : Given) : Isolated tenant (followUp e stale reason actor) := by
  refine (AuditLog.isolated_publish tenant he).bind fun _ => Isolated.read.bind fun env => ?_
  rw [he]
  exact .ite (isolated_markStale tenant reason actor stale).attempt (.pure _)

/-! ### Policies -/

theorem isolated_policy (key : Given) : Isolated tenant (policy (some tenant) key) :=
  (AccessStore.isolated_policy? tenant key).bind fun policy? => .orFail _ policy?

theorem isolated_createPolicy (p : NewPolicy) (actor : Given) :
    Isolated tenant (createPolicy (some tenant) p actor) :=
  (AccessStore.isolated_policy? tenant p.key).bind fun _ => .guard <|
    (Isolated.ofExcept _).bind fun draft =>
      (AccessStore.isolated_savePolicy tenant draft actor).bind fun _ =>
        (isolated_followUp tenant rfl _ _ actor).bind fun _ => .pure _

theorem isolated_updatePolicy (key : Given) (c : PolicyChange) (actor : Given) :
    Isolated tenant (updatePolicy (some tenant) key c actor) :=
  (isolated_policy tenant key).bind fun _ => .guard <|
    (Isolated.ofExcept _).bind fun draft =>
      (AccessStore.isolated_savePolicy tenant draft actor).bind fun _ =>
        (isolated_followUp tenant rfl _ _ actor).bind fun _ => .pure _

theorem isolated_deletePolicy (key actor : Given) :
    Isolated tenant (deletePolicy (some tenant) key actor) :=
  (isolated_policy tenant key).bind fun _ => .guard <|
    (AccessStore.isolated_rolesUsing tenant key).bind fun _ => .guard <|
      (AccessStore.isolated_removePolicy tenant key).bind fun _ =>
        isolated_followUp tenant rfl _ _ actor

/-! ### Roles -/

theorem isolated_role (key : Given) : Isolated tenant (role (some tenant) key) :=
  (AccessStore.isolated_role? tenant key).bind fun role? => .orFail _ role?

theorem isolated_requirePolicies (keys : Json) :
    Isolated tenant (requirePolicies (some tenant) keys) :=
  (Isolated.ofExcept _).bind fun keys =>
    .list_mapM (fun key => (isolated_policy tenant key).bind fun _ => .pure _) (distinct keys)

theorem isolated_createRole (r : NewRole) (actor : Given) :
    Isolated tenant (createRole (some tenant) r actor) :=
  (AccessStore.isolated_role? tenant r.key).bind fun _ => .guard <|
    (isolated_requirePolicies tenant r.policyKeys).bind fun _ => (Isolated.ofExcept _).bind fun _ =>
      (Isolated.ofExcept _).bind fun _ => (AccessStore.isolated_saveRole tenant _ actor).bind
        fun _ => (isolated_followUp tenant rfl _ _ actor).bind fun _ => .pure _

theorem isolated_updateRole (key : Given) (c : RoleChange) (actor : Given) :
    Isolated tenant (updateRole (some tenant) key c actor) := by
  refine (isolated_role tenant key).bind fun current => .guard ?_
  refine .ite_bind (.pure _) (isolated_requirePolicies tenant c.policyKeys) fun policyKeys => ?_
  exact (Isolated.ofExcept _).bind fun _ => (Isolated.ofExcept _).bind fun _ =>
    (AccessStore.isolated_saveRole tenant _ actor).bind fun _ =>
      (isolated_followUp tenant rfl _ _ actor).bind fun _ => .pure _

theorem isolated_deleteRole (key actor : Given) :
    Isolated tenant (deleteRole (some tenant) key actor) :=
  (isolated_role tenant key).bind fun _ => .guard <|
    (AccessStore.isolated_countLive tenant key).bind fun _ => .guard <|
      (AccessStore.isolated_removeRole tenant key).bind fun _ =>
        isolated_followUp tenant rfl _ _ actor

/-! ### Assignments -/

theorem isolated_assignRole (d : AssignmentDraft) :
    Isolated tenant (assignRole (some tenant) d) := by
  refine (Isolated.ofExcept _).bind fun _ => Isolated.now.bind fun now => ?_
  refine (Isolated.ofExcept _).bind fun _ => (isolated_role tenant d.role).bind fun _ => ?_
  have hassign : Isolated tenant do
      let assignment ← AccessStore.createAssignment (some tenant) d (some now)
      followUp
        (assignmentEvent .roleAssigned (some tenant) (some assignment.id) "CREATE" d.grantedBy
          d.user d.role d.scope d.reason)
        (.user d.user) ("Role " ++ d.role.mention ++ " assigned") d.grantedBy
      return assignment :=
    (AccessStore.isolated_createAssignment tenant d (some now)).bind fun _ =>
      (isolated_followUp tenant rfl _ _ _).bind fun _ => .pure _
  refine Isolated.read.bind fun env => .ite ?_ hassign
  exact (AccessStore.isolated_liveAssignment? tenant d.user d.role d.scope).bind fun _ =>
    .guard hassign

theorem isolated_revoke (id actor reason : Given) :
    Isolated tenant (revoke (some tenant) id actor reason) := by
  refine (AccessStore.isolated_assignment? tenant id).bind fun row? =>
    (Isolated.orFail _ row?).bind fun current => .ite (.pure _) ?_
  refine Isolated.read.bind fun env =>
    .ite_bind (.pure _) (AccessStore.isolated_setStatus tenant id _ actor) fun revoked? => ?_
  exact (Isolated.orFail _ revoked?).bind fun _ =>
    (isolated_followUp tenant rfl _ _ actor).bind fun _ => .pure _

theorem isolated_assignments (user : Given) (liveOnly : Bool) :
    Isolated tenant (assignments (some tenant) user liveOnly) :=
  (AccessStore.isolated_assignments tenant user liveOnly).bind fun _ =>
    Isolated.now.bind fun _ => .pure _

end Administration

namespace Maintenance

theorem isolated_expireAssignments (present : Option Stamp) :
    Isolated tenant (expireAssignments (some tenant) present) := by
  refine Isolated.bind ?_ fun now => AccessStore.isolated_expireAssignments tenant now
  cases present with
  | none => exact .now
  | some present => exact .pure _

/-- The one scheduled task that asks for a tenant. -/
theorem isolated_runExpiry (days : Option Int) :
    Isolated tenant (run (some Task.expireAssignments.name) (some tenant) days) :=
  .ite (isolated_expireAssignments tenant none) (.throw _)

end Maintenance

end Entitlements
