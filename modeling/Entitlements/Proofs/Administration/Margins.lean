import Entitlements.Administration.Assignments
import Entitlements.Engine.Directory
import Entitlements.Maintenance
import Entitlements.Proofs.Engine.Alike

/-!
Administration beside any margin. The tables of rights are read and written without a look at what
is cached, logged or waiting. What follows a change does touch the margin: an event is logged or
waits to be collected, and cached bundles are marked. Neither has any influence on how the call
ends, so each call goes alike beside any two margins, as long as the relation between their cached
bundles is one that marking restores.
-/

namespace Entitlements

open Time Call

/-! ### Writes to the tables -/

namespace Store

variable (s : Store) (m : Margin) (tenant actor : Given) (now : Instant)

/-- What a write comes to beside another margin. -/
def beside (m : Margin) (r : Store × α) : Store × α := (r.1.withMargin m, r.2)

theorem insertPolicy?_withMargin (id : String) (d : PolicyDraft) :
    (s.withMargin m).insertPolicy? id tenant d actor now =
      (s.insertPolicy? id tenant d actor now).map (beside m) := by
  rcases tenant with _ | _ <;> rcases hk : d.key with _ | _ <;>
    rcases hn : d.displayName with _ | _ <;> simp [insertPolicy?, hk, hn, beside, withMargin]

theorem updatePolicy?_withMargin (r : PolicyRow) (d : PolicyDraft) :
    (s.withMargin m).updatePolicy? r d actor now =
      (s.updatePolicy? r d actor now).map (beside m) := by
  rcases h : r.updated? d actor now with _ | _ <;> simp [updatePolicy?, h, beside, withMargin]

theorem insertRole?_withMargin (id : String) (d : RoleDraft) :
    (s.withMargin m).insertRole? id tenant d actor now =
      (s.insertRole? id tenant d actor now).map (beside m) := by
  rcases tenant with _ | _ <;> rcases hk : d.key with _ | _ <;>
    rcases hn : d.displayName with _ | _ <;> simp [insertRole?, hk, hn, beside, withMargin]

theorem updateRole?_withMargin (r : RoleRow) (d : RoleDraft) :
    (s.withMargin m).updateRole? r d actor now =
      (s.updateRole? r d actor now).map (beside m) := by
  rcases h : r.updated? d actor now with _ | _ <;> simp [updateRole?, h, beside, withMargin]

theorem insertAssignment?_withMargin (id : String) (d : AssignmentDraft) :
    (s.withMargin m).insertAssignment? id tenant d now =
      (s.insertAssignment? id tenant d now).map (beside m) := by
  rcases tenant with _ | _ <;> rcases hu : d.user with _ | _ <;> rcases hr : d.role with _ | _ <;>
    rcases hs : d.scope with _ | _ <;> rcases hg : d.grantedBy with _ | _ <;>
    simp only [insertAssignment?, hu, hr, hs, hg, Option.bind_eq_bind, Option.bind_none,
      Option.bind_some, Option.map_none]
  rw [apply_ite (Option.map (beside m))]
  rfl

theorem setStatus?_withMargin (r : AssignmentRow) (status : Given) :
    (s.withMargin m).setStatus? r status actor now =
      (s.setStatus? r status actor now).map (beside m) := by
  rcases status with _ | status
  · rfl
  · simp only [setStatus?, Option.bind_eq_bind, Option.bind_some]
    rw [apply_ite (Option.map (beside m))]
    rfl

end Store

/-! ### The access store -/

namespace AccessStore

variable (tenant key actor : Given)

theorem unaware_policy? : Unaware (policy? tenant key) := fun m =>
  (Unaware.requireTenant tenant m).bind fun _ => .store_bind fun s => .pure (s.policy? tenant key)

theorem unaware_role? : Unaware (role? tenant key) := fun m =>
  (Unaware.requireTenant tenant m).bind fun _ => .store_bind fun s => .pure (s.role? tenant key)

theorem unaware_rolesUsing : Unaware (rolesUsing tenant key) := fun m =>
  (Unaware.requireTenant tenant m).bind fun _ =>
    .store_bind fun s => .pure (s.rolesUsing tenant key)

theorem unaware_countLive : Unaware (countLive tenant key) := fun m =>
  (Unaware.requireTenant tenant m).bind fun _ => .store_bind fun s =>
    (Unaware.now m).bind fun now => .pure (s.countLive tenant key now)

theorem unaware_assignment? : Unaware (assignment? tenant key) := fun m =>
  (Unaware.requireTenant tenant m).bind fun _ =>
    .store_bind fun s =>
      Unaware.mapM (s.assignmentRow? tenant key) (fun row => .ofExcept row.record) m

theorem unaware_liveAssignment? (user role scope : Given) :
    Unaware (liveAssignment? tenant user role scope) := fun m =>
  (Unaware.requireTenant tenant m).bind fun _ => .store_bind fun s =>
    (Unaware.now m).bind fun now =>
      Unaware.mapM (s.liveAssignment? tenant user role scope now)
        (fun row => .ofExcept row.record) m

theorem unaware_savePolicy (d : PolicyDraft) : Unaware (savePolicy tenant d actor) := by
  intro m
  refine (Unaware.requireTenant tenant m).bind fun _ => .store_bind fun s => ?_
  refine (Unaware.now m).bind fun now => ?_
  have hrow : (s.withMargin m).policyRow? tenant d.key = s.policyRow? tenant d.key := rfl
  rw [hrow]
  cases s.policyRow? tenant d.key with
  | none =>
    refine (Unaware.freshId .policy m).bind fun id => ?_
    rw [Store.insertPolicy?_withMargin]
    exact .orFail_bind _ _ (Store.beside m) fun saved =>
      (Mirrors.write saved.1).bind fun _ => .pure saved.2
  | some row =>
    dsimp only
    rw [Store.updatePolicy?_withMargin]
    exact .orFail_bind _ _ (Store.beside m) fun saved =>
      (Mirrors.write saved.1).bind fun _ => .pure saved.2

theorem unaware_removePolicy : Unaware (removePolicy tenant key) := fun m =>
  (Unaware.requireTenant tenant m).bind fun _ => .store_bind fun s =>
    (Mirrors.write (s.removePolicy tenant key)).bind fun _ =>
      .pure (s.policyRow? tenant key).isSome

theorem unaware_saveRole (d : RoleDraft) : Unaware (saveRole tenant d actor) := by
  intro m
  refine (Unaware.requireTenant tenant m).bind fun _ => .store_bind fun s => ?_
  refine (Unaware.now m).bind fun now => ?_
  have hrow : (s.withMargin m).roleRow? tenant d.key = s.roleRow? tenant d.key := rfl
  rw [hrow]
  cases s.roleRow? tenant d.key with
  | none =>
    refine (Unaware.freshId .role m).bind fun id => ?_
    rw [Store.insertRole?_withMargin]
    exact .orFail_bind _ _ (Store.beside m) fun saved =>
      (Mirrors.write saved.1).bind fun _ => .pure saved.2
  | some row =>
    dsimp only
    rw [Store.updateRole?_withMargin]
    exact .orFail_bind _ _ (Store.beside m) fun saved =>
      (Mirrors.write saved.1).bind fun _ => .pure saved.2

theorem unaware_removeRole : Unaware (removeRole tenant key) := fun m =>
  (Unaware.requireTenant tenant m).bind fun _ => .store_bind fun s =>
    (Mirrors.write (s.removeRole tenant key)).bind fun _ =>
      .pure (s.roleRow? tenant key).isSome

theorem unaware_createAssignment (d : AssignmentDraft) (grantedAt : Option Instant) :
    Unaware (createAssignment tenant d grantedAt) := by
  intro m
  refine (Unaware.requireTenant tenant m).bind fun _ => ?_
  refine (Unaware.orFail .incomparable grantedAt m).bind fun grantedAt => ?_
  refine (Unaware.freshId .assignment m).bind fun id => .store_bind fun s => ?_
  rw [Store.insertAssignment?_withMargin]
  refine .orFail_bind _ _ (Store.beside m) fun saved => (Mirrors.write saved.1).bind fun _ => ?_
  exact (Unaware.mapM d.expiresAt (fun stamp => .ofExcept stamp.instant) m).bind fun expiresAt =>
    .pure { saved.2.withStatus .active with expiresAt }

theorem unaware_setStatus (id status : Given) : Unaware (setStatus tenant id status actor) := by
  intro m
  refine (Unaware.requireTenant tenant m).bind fun _ => .store_bind fun s => ?_
  have hrow : (s.withMargin m).assignmentRow? tenant id = s.assignmentRow? tenant id := rfl
  rw [hrow]
  cases s.assignmentRow? tenant id with
  | none => exact .pure none
  | some row =>
    refine (Unaware.now m).bind fun now => ?_
    rw [Store.setStatus?_withMargin]
    refine .orFail_bind _ _ (Store.beside m) fun saved => ?_
    refine (Mirrors.write saved.1).bind fun _ => ?_
    exact (Unaware.ofExcept saved.2.record m).bind fun record => .pure (some record)

theorem unaware_expireAssignments (now : Instant) : Unaware (expireAssignments tenant now) :=
  fun m => (Unaware.requireTenant tenant m).bind fun _ => .store_bind fun s =>
    (Mirrors.write (s.expireWhere (fun r => some r.tenant == tenant) now)).bind fun _ =>
      .pure (s.assignments.countP fun r => some r.tenant == tenant && r.isLapsed now)

end AccessStore

/-! ### The directory -/

namespace Directory

/-- Beside another margin the same rows are added, or refused. -/
theorem unaware_add {insert? : Store → Option Store}
    (h : ∀ m s, insert? (s.withMargin m) = (insert? s).map (·.withMargin m)) :
    Unaware (add insert?) := by
  intro m
  refine .store_bind fun s => ?_
  rw [h]
  exact .orFail_bind _ _ (·.withMargin m) fun s => .write s

variable (tenant id : Given)

theorem unaware_addUser (email : Given) (customerId : Option String) :
    Unaware (addUser tenant id email customerId) := by
  refine unaware_add fun m s => ?_
  simp only [Store.insertUser?, Store.withMargin, Option.bind_eq_bind, Option.pure_def,
    Option.map_bind, Option.map_some, Function.comp_def]

theorem unaware_addCustomer (name : Given) : Unaware (addCustomer tenant id name) := by
  refine unaware_add fun m s => ?_
  simp only [Store.insertCustomer?, Store.withMargin, Option.bind_eq_bind, Option.pure_def,
    Option.map_bind, Option.map_some, Function.comp_def]

theorem unaware_addGroup (key name : Given) : Unaware (addGroup tenant id key name) := by
  refine unaware_add fun m s => ?_
  simp only [Store.insertGroup?, Store.withMargin, Option.bind_eq_bind, Option.pure_def,
    Option.map_bind, Option.map_some, Function.comp_def]

theorem unaware_addMember (group user : Given) (assignedAt expiresAt : Option Stamp) :
    Unaware (addMember tenant id group user assignedAt expiresAt) := by
  refine unaware_add fun m s => ?_
  simp only [Store.insertMember?, Store.withMargin, Option.bind_eq_bind, Option.pure_def,
    Option.map_bind, Option.map_some, Function.comp_def]

end Directory

/-! ### Announcing -/

/-- Do two engines differ in what is logged or waits only? -/
def Engine.Logs (e e' : Engine) : Prop := ∃ m, m.cache = e.store.cache ∧ e' = e.withMargin m

theorem Engine.Logs.refl (e : Engine) : e.Logs e := ⟨e.margin, rfl, rfl⟩

namespace AuditLog

variable (env : Environment) (e : Engine)

theorem append_logs (d : AuditDraft) : e.Logs ((append d).after env e) := by
  rw [append, after_bind_of_ok (outcome_store env e)]
  refine after_bind_of_outcome (P := e.Logs) (outcome_orFail env e _ _) (.refl e) fun s hs => ?_
  have happended := eq_some_of_elim hs
  simp only [Store.appendAudit?, Option.bind_eq_bind, Option.bind_eq_some_iff] at happended
  obtain ⟨_, -, _, -, _, -, happended⟩ := happended
  cases happended
  exact ⟨⟨e.store.cache, _, e.outbox⟩, rfl, rfl⟩

/-- Whether a refusal matters or not, it leaves the same engine. -/
theorem after_record (mode : Mode) (bestEffort : Bool) (d : AuditDraft) :
    (record mode bestEffort d).after env e =
      (append { d with metadata := metadataOf d.metadata }).after env e := by
  rw [record]
  split
  · exact after_eq_of_outcome (outcome_attempt env e _)
  · rfl

theorem deliver_logs (event : Event) : e.Logs ((deliver event).after env e) := by
  rw [deliver, after_bind_of_ok (outcome_read env e)]
  cases env.sink with
  | audit =>
    dsimp only
    rw [after_bind_of_ok (outcome_read env e)]
    split
    · rw [after_bind_of_ok (outcome_now env e), after_record]
      exact append_logs env e _
    · exact .refl e
  | outbox => exact ⟨⟨e.store.cache, e.store.audit, e.outbox ++ [event]⟩, rfl, rfl⟩
  | refusing => exact .refl e
  | none => exact .refl e

/-- Whatever is announced, the rest goes on as if nothing had been. -/
theorem alike_publish {R : Instant → List CacheRow → List CacheRow → Prop}
    (event event' : Event) : Alike R Eq (publish event) (publish event') := by
  intro env e m hR
  obtain ⟨m₁, hm₁, hl⟩ := deliver_logs env e event
  obtain ⟨m₂, hm₂, hr⟩ := deliver_logs env (e.withMargin m) event'
  rw [publish, publish, outcome_attempt, outcome_attempt, hl, hr]
  have hR' : R (e.withMargin m₁).clock (e.withMargin m₁).store.cache m₂.cache := by
    have hcache : (e.withMargin m₁).store.cache = e.store.cache := hm₁
    rw [hcache, hm₂]
    exact hR
  exact .ok (e := e.withMargin m₁) (m := m₂) rfl hR'

end AuditLog

/-! ### Marking -/

/-- A table in which the selected rows are marked. -/
def CacheTable.markWhere (selected : CacheRow → Bool) (now : Instant) (reason : String)
    (rows : List CacheRow) : List CacheRow :=
  rows.map fun r => if CacheRow.isMarkable selected r then r.invalidate now reason else r

/-- Does marking on both sides restore a relation between tables? -/
def CacheTable.KeptByMarking (R : Instant → List CacheRow → List CacheRow → Prop) : Prop :=
  ∀ now rows rows' selected reason, R now rows rows' →
    R now (markWhere selected now reason rows) (markWhere selected now reason rows')

section

variable {R : Instant → List CacheRow → List CacheRow → Prop} (hR : CacheTable.KeptByMarking R)

include hR

/-- How many rows are marked may differ, and is of no account. -/
theorem BundleCache.alike_invalidateWhere (tenant : Given) (selected : CacheRow → Bool)
    (reason : String) :
    Alike R (fun _ _ => True) (invalidateWhere tenant selected reason)
      (invalidateWhere tenant selected reason) := by
  refine .after_unaware .read fun env => .ite ?_ (.throw _)
  refine .after_unaware (.requireTenant tenant) fun _ => ?_
  intro env e m hrows
  have hmarked := hR e.clock _ _ selected reason hrows
  exact .ok (e := { e with store := (e.store.invalidateWhere selected e.clock reason).1 })
    (m := { m with cache := CacheTable.markWhere selected e.clock reason m.cache }) trivial hmarked

theorem BundleCache.alike_invalidateScope (tenant user scope reason : Given) :
    Alike R (fun _ _ => True) (invalidateScope tenant user scope reason)
      (invalidateScope tenant user scope reason) :=
  (alike_invalidateWhere hR tenant _ _).bind fun _ _ _ => .pure trivial

namespace Generation

theorem alike_invalidate (tenant user reason scope actor : Given) :
    Alike R (fun _ _ => True) (invalidate tenant user reason scope actor)
      (invalidate tenant user reason scope actor) := by
  have hannounce (affected affected' : Nat) :
      Alike R (fun _ _ => True)
        (do
          AuditLog.publish (invalidated tenant "user_bundle" user reason scope actor affected)
          return affected : Call Nat)
        (do
          AuditLog.publish (invalidated tenant "user_bundle" user reason scope actor affected')
          return affected' : Call Nat) :=
    (AuditLog.alike_publish _ _).bind fun _ _ _ => .pure trivial
  unfold invalidate
  rcases scope.nonempty? with _ | scope
  · refine (BundleCache.alike_invalidateWhere hR tenant _ _).bind fun affected affected' _ => ?_
    exact hannounce affected affected'
  · refine (BundleCache.alike_invalidateScope hR tenant user _ reason).bind
      fun marked marked' _ => ?_
    exact hannounce _ _

theorem alike_invalidateTenant (tenant reason actor : Given) :
    Alike R (fun _ _ => True) (invalidateTenant tenant reason actor)
      (invalidateTenant tenant reason actor) := by
  refine (BundleCache.alike_invalidateWhere hR tenant _ _).bind fun affected affected' _ => ?_
  exact (AuditLog.alike_publish _ _).bind fun _ _ _ => .pure trivial

end Generation

/-! ### Administration -/

namespace Administration

theorem alike_followUp (event : Event) (stale : Stale) (reason : String) (actor : Given) :
    Alike R Eq (followUp event stale reason actor) (followUp event stale reason actor) := by
  refine (AuditLog.alike_publish event event).bind fun _ _ _ => ?_
  refine .after_unaware .read fun env => .ite (.attempt (Q := Eq) ?_) (.pure rfl)
  cases stale with
  | nothing => exact .pure rfl
  | user id => exact .discard (Generation.alike_invalidate hR event.tenant id _ none actor)
  | tenant => exact .discard (Generation.alike_invalidateTenant hR event.tenant _ actor)

omit hR in
theorem unaware_policy (tenant key : Given) : Unaware (policy tenant key) :=
  (AccessStore.unaware_policy? tenant key).bind fun _ => .orFail _ _

omit hR in
theorem unaware_role (tenant key : Given) : Unaware (role tenant key) :=
  (AccessStore.unaware_role? tenant key).bind fun _ => .orFail _ _

omit hR in
theorem unaware_requirePolicies (tenant : Given) (keys : Json) :
    Unaware (requirePolicies tenant keys) := by
  refine (Unaware.ofExcept _).bind fun keys => Unaware.list_mapM (fun key => ?_) (distinct keys)
  exact (unaware_policy tenant key).bind fun policy => .pure policy.key

/-- A write and its follow-up. -/
theorem alike_of_write {x : Call α} (hx : Unaware x) (event : α → Event) (stale : Stale)
    (reason : String) (actor : Given) :
    Alike R Eq (do let a ← x; followUp (event a) stale reason actor; return a)
      (do let a ← x; followUp (event a) stale reason actor; return a) :=
  .after_unaware hx fun a =>
    (alike_followUp hR (event a) stale reason actor).bind fun _ _ _ => .pure rfl

variable (tenant key actor : Given)

theorem alike_createPolicy (p : NewPolicy) :
    Alike R Eq (createPolicy tenant p actor) (createPolicy tenant p actor) := by
  refine .after_unaware (AccessStore.unaware_policy? tenant p.key) fun found => ?_
  refine .ite (.throw _) ?_
  refine .after_unaware (.ofExcept _) fun draft => ?_
  exact alike_of_write hR (AccessStore.unaware_savePolicy tenant actor draft) _ _ _ _

theorem alike_updatePolicy (c : PolicyChange) :
    Alike R Eq (updatePolicy tenant key c actor) (updatePolicy tenant key c actor) := by
  refine .after_unaware (unaware_policy tenant key) fun current => ?_
  refine .ite (.throw _) ?_
  refine .after_unaware (.ofExcept _) fun draft => ?_
  exact alike_of_write hR (AccessStore.unaware_savePolicy tenant actor draft) _ _ _ _

theorem alike_deletePolicy :
    Alike R Eq (deletePolicy tenant key actor) (deletePolicy tenant key actor) := by
  refine .after_unaware (unaware_policy tenant key) fun current => ?_
  refine .ite (.throw _) ?_
  refine .after_unaware (AccessStore.unaware_rolesUsing tenant key) fun roles => ?_
  refine .ite (.throw _) ?_
  exact .after_unaware (AccessStore.unaware_removePolicy tenant key) fun _ =>
    alike_followUp hR _ _ _ _

theorem alike_createRole (r : NewRole) :
    Alike R Eq (createRole tenant r actor) (createRole tenant r actor) := by
  refine .after_unaware (AccessStore.unaware_role? tenant r.key) fun found => ?_
  refine .ite (.throw _) ?_
  refine .after_unaware (unaware_requirePolicies tenant _) fun policyKeys => ?_
  refine .after_unaware (.ofExcept _) fun risk => .after_unaware (.ofExcept _) fun tags => ?_
  exact alike_of_write hR (AccessStore.unaware_saveRole tenant actor _) _ _ _ _

theorem alike_updateRole (c : RoleChange) :
    Alike R Eq (updateRole tenant key c actor) (updateRole tenant key c actor) := by
  refine .after_unaware (unaware_role tenant key) fun current => ?_
  refine .ite (.throw _) ?_
  refine .after_choice (.pure _) (unaware_requirePolicies tenant _) fun policyKeys => ?_
  refine .after_unaware (.ofExcept _) fun risk => .after_unaware (.ofExcept _) fun tags => ?_
  exact alike_of_write hR (AccessStore.unaware_saveRole tenant actor _) _ _ _ _

theorem alike_deleteRole :
    Alike R Eq (deleteRole tenant key actor) (deleteRole tenant key actor) := by
  refine .after_unaware (unaware_role tenant key) fun current => ?_
  refine .ite (.throw _) ?_
  refine .after_unaware (AccessStore.unaware_countLive tenant key) fun active => ?_
  refine .ite (.throw _) ?_
  exact .after_unaware (AccessStore.unaware_removeRole tenant key) fun _ =>
    alike_followUp hR _ _ _ _

theorem alike_assignRole (d : AssignmentDraft) :
    Alike R Eq (assignRole tenant d) (assignRole tenant d) := by
  refine .after_unaware (.ofExcept _) fun _ => .after_unaware .now fun now => ?_
  refine .after_unaware (.ofExcept _) fun _ => ?_
  refine .after_unaware (unaware_role tenant d.role) fun _ => ?_
  have hcreate : Alike R Eq
      (do
        let assignment ← AccessStore.createAssignment tenant d (some now)
        followUp
          (assignmentEvent .roleAssigned tenant (some assignment.id) "CREATE" d.grantedBy d.user
            d.role d.scope d.reason)
          (.user d.user) ("Role " ++ d.role.mention ++ " assigned") d.grantedBy
        return assignment)
      (do
        let assignment ← AccessStore.createAssignment tenant d (some now)
        followUp
          (assignmentEvent .roleAssigned tenant (some assignment.id) "CREATE" d.grantedBy d.user
            d.role d.scope d.reason)
          (.user d.user) ("Role " ++ d.role.mention ++ " assigned") d.grantedBy
        return assignment) :=
    alike_of_write hR (AccessStore.unaware_createAssignment tenant d (some now)) _ _ _ _
  refine .after_unaware .read fun env => .ite ?_ hcreate
  refine .after_unaware (AccessStore.unaware_liveAssignment? tenant d.user d.role d.scope)
    fun live => ?_
  exact .ite (.throw _) hcreate

theorem alike_revoke (id reason : Given) :
    Alike R Eq (revoke tenant id actor reason) (revoke tenant id actor reason) := by
  refine .after_unaware (AccessStore.unaware_assignment? tenant id) fun found => ?_
  refine .after_unaware (.orFail _ _) fun current => ?_
  refine .ite (.pure rfl) ?_
  refine .after_unaware .read fun env => ?_
  refine .after_choice (.pure _) (AccessStore.unaware_setStatus tenant actor id _)
    fun revoked? => ?_
  exact alike_of_write hR (.orFail _ _) _ _ _ _

end Administration

end

end Entitlements
