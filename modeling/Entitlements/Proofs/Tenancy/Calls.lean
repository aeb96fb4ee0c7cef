import Entitlements.Engine.AccessStore
import Entitlements.Engine.AuditLog
import Entitlements.Engine.Directory
import Entitlements.Proofs.Tenancy.Writes

/-!
The calls on the tables, one by one, keep to the tenant they are made for.
-/

namespace Entitlements

open Time Call

namespace AccessStore

variable (tenant : String)

/-! ### Policies -/

theorem isolated_policy? (key : Given) : Isolated tenant (policy? (some tenant) key) :=
  (Isolated.requireTenant _).bind fun _ =>
    .look (g := fun s => s.policy? (some tenant) key) (fun _ _ h => h.policy? key) .pure

theorem isolated_policyRowById? (id : Given) :
    Isolated tenant (policyRowById? (some tenant) id) :=
  (Isolated.requireTenant _).bind fun _ =>
    .look (g := fun s => s.policyRows (some tenant)) (fun _ _ h => h.policyRows) fun _ => .pure _

theorem isolated_policies (offset limit : Option Int) :
    Isolated tenant (policies (some tenant) offset limit) :=
  (Isolated.requireTenant _).bind fun _ =>
    .look (g := fun s => s.policyRows (some tenant))
      (k := fun rows => do return (← window offset limit rows).map (·.record))
      (fun _ _ h => h.policyRows) fun rows =>
        (Isolated.window offset limit rows).bind fun _ => .pure _

theorem isolated_savePolicy (d : PolicyDraft) (actor : Given) :
    Isolated tenant (savePolicy (some tenant) d actor) := by
  refine (Isolated.requireTenant _).bind fun _ env e e' h => .store_bind (.now_bind h ?_)
  dsimp only
  rw [← h.policyRow?]
  rcases hrow : e.store.policyRow? (some tenant) d.key with _ | r
  · refine .freshId_bind h ?_
    have hspent := (h.spend .policy).twin
    rw [Store.insertPolicy?_eq, Store.insertPolicy?_eq]
    rcases hadded : d.row? (e.ids.next .policy) tenant actor e.clock with _ | row
    · exact .orFail_none hspent _
    · obtain ⟨htenant, hkey⟩ := PolicyDraft.of_row? hadded
      exact .orFail_some (.write_bind (hspent.addPolicy htenant (hkey ▸ hrow)) (.pure _))
  · obtain ⟨-, hr, -⟩ := Store.of_policyRow? hrow
    simp only [Store.updatePolicy?]
    rcases hupdated : r.updated? d actor e.clock with _ | row
    · exact .orFail_none h _
    · obtain ⟨htenant, hkey⟩ := PolicyRow.of_updated? hupdated
      exact .orFail_some
        (.write_bind (h.replacePolicy (Option.some.inj hr) htenant hkey) (.pure _))

theorem isolated_removePolicy (key : Given) :
    Isolated tenant (removePolicy (some tenant) key) := by
  refine (Isolated.requireTenant _).bind fun _ env e e' h => .store_bind ?_
  rw [← h.policyRow?]
  exact .write_bind (h.removePolicy key) (.pure _)

/-! ### Roles -/

theorem isolated_role? (key : Given) : Isolated tenant (role? (some tenant) key) :=
  (Isolated.requireTenant _).bind fun _ =>
    .look (g := fun s => s.role? (some tenant) key) (fun _ _ h => h.role? key) .pure

theorem isolated_roleRowById? (id : Given) : Isolated tenant (roleRowById? (some tenant) id) :=
  (Isolated.requireTenant _).bind fun _ =>
    .look (g := fun s => s.roleRows (some tenant)) (fun _ _ h => h.roleRows) fun _ => .pure _

theorem isolated_roleRows (offset limit : Option Int) :
    Isolated tenant (roleRows (some tenant) offset limit) :=
  (Isolated.requireTenant _).bind fun _ =>
    .look (g := fun s => s.roleRows (some tenant)) (fun _ _ h => h.roleRows)
      (Isolated.window offset limit)

theorem isolated_roles : Isolated tenant (roles (some tenant)) :=
  (Isolated.requireTenant _).bind fun _ =>
    .look (g := fun s => s.roleRows (some tenant)) (fun _ _ h => h.roleRows) fun _ => .pure _

theorem isolated_rolesUsing (policy : Given) :
    Isolated tenant (rolesUsing (some tenant) policy) :=
  (Isolated.requireTenant _).bind fun _ =>
    .look (g := fun s => s.rolesUsing (some tenant) policy) (fun _ _ h => h.rolesUsing policy) .pure

theorem isolated_saveRole (d : RoleDraft) (actor : Given) :
    Isolated tenant (saveRole (some tenant) d actor) := by
  refine (Isolated.requireTenant _).bind fun _ env e e' h => .store_bind (.now_bind h ?_)
  dsimp only
  rw [← h.roleRow?]
  rcases hrow : e.store.roleRow? (some tenant) d.key with _ | r
  · refine .freshId_bind h ?_
    have hspent := (h.spend .role).twin
    rw [Store.insertRole?_eq, Store.insertRole?_eq]
    rcases hadded : d.row? (e.ids.next .role) tenant actor e.clock with _ | row
    · exact .orFail_none hspent _
    · obtain ⟨htenant, hkey⟩ := RoleDraft.of_row? hadded
      exact .orFail_some (.write_bind (hspent.addRole htenant (hkey ▸ hrow)) (.pure _))
  · obtain ⟨-, hr, -⟩ := Store.of_roleRow? hrow
    simp only [Store.updateRole?]
    rcases hupdated : r.updated? d actor e.clock with _ | row
    · exact .orFail_none h _
    · obtain ⟨htenant, hkey⟩ := RoleRow.of_updated? hupdated
      exact .orFail_some
        (.write_bind (h.replaceRole (Option.some.inj hr) htenant hkey) (.pure _))

theorem isolated_removeRole (key : Given) : Isolated tenant (removeRole (some tenant) key) := by
  refine (Isolated.requireTenant _).bind fun _ env e e' h => .store_bind ?_
  rw [← h.roleRow?]
  exact .write_bind (h.removeRole key) (.pure _)

/-! ### Assignments -/

theorem isolated_record (row : AssignmentRow) :
    Isolated tenant (ofExcept row.record : Call Assignment) := .ofExcept _

theorem isolated_assignment? (id : Given) : Isolated tenant (assignment? (some tenant) id) :=
  (Isolated.requireTenant _).bind fun _ =>
    .look (g := fun s => s.assignmentRow? (some tenant) id) (fun _ _ h => h.assignmentRow? id)
      fun row? => .mapM row? (isolated_record tenant)

theorem isolated_assignments (user : Given) (liveOnly : Bool) :
    Isolated tenant (assignments (some tenant) user liveOnly) := by
  refine (Isolated.requireTenant _).bind fun _ env e e' h => .store_bind (.now_bind h ?_)
  rw [h.liveAssignmentsOf, h.assignmentsOf]
  exact Isolated.list_mapM (isolated_record tenant) _ env e e' h

theorem isolated_liveAssignment? (user role scope : Given) :
    Isolated tenant (liveAssignment? (some tenant) user role scope) := by
  refine (Isolated.requireTenant _).bind fun _ env e e' h => .store_bind (.now_bind h ?_)
  rw [h.liveAssignment?]
  exact Isolated.mapM _ (isolated_record tenant) env e e' h

theorem isolated_countLive (role : Given) : Isolated tenant (countLive (some tenant) role) := by
  refine (Isolated.requireTenant _).bind fun _ env e e' h => .store_bind (.now_bind h ?_)
  rw [h.countLive]
  exact Isolated.pure _ env e e' h

theorem isolated_createAssignment (d : AssignmentDraft) (grantedAt : Option Instant) :
    Isolated tenant (createAssignment (some tenant) d grantedAt) := by
  refine (Isolated.requireTenant _).bind fun _ => (Isolated.orFail _ _).bind fun now => ?_
  intro env e e' h
  refine .freshId_bind h (.store_bind ?_)
  have hspent := (h.spend .assignment).twin
  rw [Store.insertAssignment?_eq, Store.insertAssignment?_eq]
  rcases hadded : d.row? (e.ids.next .assignment) tenant now with _ | row
  · exact .orFail_none hspent _
  · obtain ⟨htenant, hid⟩ := AssignmentDraft.of_row? hadded
    have hselected : ∀ r : AssignmentRow,
        r.hasTriple (some tenant) d.user d.role d.scope = true → r.tenant = tenant := by
      intro r hr
      simp only [AssignmentRow.hasTriple, Bool.and_eq_true, beq_iff_eq, Option.some.injEq] at hr
      exact hr.1.1.1
    -- The same rows have lapsed on both sides, so the new one is refused on both or on neither.
    have hclashes := Store.clashes_eq (h.settled hselected now).1 htenant
    simp only [Option.bind_some, ← hclashes]
    split
    · exact .orFail_none hspent _
    · next hclash =>
      refine .orFail_some (.write_bind
        (h.addAssignment htenant hid hselected now (Bool.not_eq_true _ ▸ hclash)) ?_)
      exact (Isolated.mapM _ fun _ => .ofExcept _).bind fun _ => .pure _

theorem isolated_setStatus (id status actor : Given) :
    Isolated tenant (setStatus (some tenant) id status actor) := by
  refine (Isolated.requireTenant _).bind fun _ env e e' h => .store_bind ?_
  rw [← h.assignmentRow?]
  rcases hrow : e.store.assignmentRow? (some tenant) id with _ | r
  · exact Isolated.pure _ env e e' h
  · obtain ⟨-, -, hr⟩ := Store.of_assignmentRow? hrow
    refine .now_bind h ?_
    rcases status with _ | status
    · exact .orFail_none h _
    · have hown := Option.some.inj hr
      have hkept : (r.inState status actor e.clock).tenant = tenant := hown
      rw [Store.setStatus?_eq, Store.setStatus?_eq, ← Store.clashes_eq h.store.assignments hkept]
      split
      · exact .orFail_none h _
      · next hclash =>
        refine .orFail_some (.write_bind
          (h.replaceAssignment hown rfl rfl (Bool.not_eq_true _ ▸ hclash)) ?_)
        exact (Isolated.ofExcept _).bind fun _ => .pure _

theorem isolated_expireAssignments (now : Instant) :
    Isolated tenant (expireAssignments (some tenant) now) := by
  refine (Isolated.requireTenant _).bind fun _ env e e' h => .store_bind ?_
  have hcount := h.store.assignments.countP_eq
    (p := fun r => some r.tenant == some tenant && r.isLapsed now) fun r hr => by
      simpa using (Bool.and_eq_true_iff.1 hr).1
  dsimp only
  rw [← hcount]
  exact .write_bind (h.expireWhere (fun r hr => by simpa using hr) now) (.pure _)

end AccessStore

namespace Directory

variable (tenant : String)

theorem isolated_user? (id : Given) : Isolated tenant (user? (some tenant) id) :=
  (Isolated.requireTenant _).bind fun _ =>
    .look (g := fun s => s.user? (some tenant) id) (fun _ _ h => h.user? id) .pure

theorem isolated_customer? (id : Given) : Isolated tenant (customer? (some tenant) id) :=
  (Isolated.requireTenant _).bind fun _ =>
    .look (g := fun s => s.customer? (some tenant) id) (fun _ _ h => h.customer? id) .pure

theorem isolated_primaryGroup? (user : Given) :
    Isolated tenant (primaryGroup? (some tenant) user) := by
  refine (Isolated.requireTenant _).bind fun _ env e e' h => .store_bind (.now_bind h ?_)
  rw [h.primaryGroup?]
  exact Isolated.pure _ env e e' h

end Directory

namespace BundleCache

variable (tenant : String)

theorem isolated_get? (user scope : Given) : Isolated tenant (get? (some tenant) user scope) := by
  refine (Isolated.requireTenant _).bind fun _ env e e' h => .store_bind (.now_bind h ?_)
  rw [h.cacheHit?]
  exact Isolated.mapM _ (fun row : CacheRow => .ofExcept row.entry) env e e' h

theorem isolated_put (user scope : Given) (bundle : Bundle) (checksum : Given)
    (generatedAt expiresAt : Option Instant) :
    Isolated tenant (put (some tenant) user scope bundle checksum generatedAt expiresAt) := by
  intro env e e' h
  rcases outcome_put env (some tenant) user scope bundle checksum generatedAt expiresAt with
    ⟨p, hput, hout⟩ | ⟨failure, -, hout⟩
  · have htenant : some tenant = some p.tenant := (Edit.put.inj (Edit.put?_eq_some_iff.1 hput).1).1
    exact .of_outcome (hout e) (hout e') (h.putCacheRow (Option.some.inj htenant).symm)
  · exact .of_outcome (hout e) (hout e') (.refl h)

/-- Marking what is selected among the tenant's rows. -/
theorem isolated_invalidateWhere {selected : CacheRow → Bool}
    (hselected : ∀ r, selected r = true → r.tenant = tenant) (reason : String) :
    Isolated tenant (invalidateWhere (some tenant) selected reason) := by
  refine Isolated.read.bind fun env => .ite ?_ (.throw _)
  refine (Isolated.requireTenant _).bind fun _ env e e' h => .store_bind (.now_bind h ?_)
  have hcount := h.store.cache.countP_eq (p := CacheRow.isMarkable selected) fun r hr => by
    simpa using hselected r (Bool.and_eq_true_iff.1 hr).1
  simp only [Store.invalidateWhere, ← hcount]
  exact .write_bind (h.invalidateWhere hselected e.clock reason) (.pure _)

theorem tenant_of_hasKey {user scope : Given} {r : CacheRow}
    (h : r.hasKey (some tenant) user scope = true) : r.tenant = tenant :=
  Option.some.inj (CacheRow.hasKey_iff.1 h).1

theorem isolated_invalidateUser (user reason : Given) :
    Isolated tenant (invalidateUser (some tenant) user reason) :=
  isolated_invalidateWhere tenant (fun r hr => by
    simpa using (Bool.and_eq_true_iff.1 hr).1) _

theorem isolated_invalidateScope (user scope reason : Given) :
    Isolated tenant (invalidateScope (some tenant) user scope reason) :=
  (isolated_invalidateWhere tenant (fun _ => tenant_of_hasKey tenant) _).bind fun _ => .pure _

theorem isolated_invalidateTenant (reason : Given) :
    Isolated tenant (invalidateTenant (some tenant) reason) :=
  isolated_invalidateWhere tenant (fun r hr => by simpa using hr) _

/-- Removing what is selected among the tenant's rows. -/
theorem isolated_removeWhere {selected : CacheRow → Bool}
    (hselected : ∀ r, selected r = true → r.tenant = tenant) :
    Isolated tenant (removeWhere selected) := by
  refine fun env e e' h => .store_bind ?_
  have hcount := h.store.cache.countP_eq (p := selected) fun r hr => by simpa using hselected r hr
  simp only [Store.uncacheWhere, ← hcount]
  exact .write_bind (h.uncacheWhere hselected) (.pure _)

theorem isolated_delete (user scope : Given) :
    Isolated tenant (delete (some tenant) user scope) :=
  (Isolated.requireTenant _).bind fun _ => isolated_removeWhere tenant fun r hr => by
    rw [Bool.and_eq_true, Bool.and_eq_true] at hr
    simpa using hr.1.1

end BundleCache

namespace AuditLog

variable (tenant : String)

theorem isolated_append {d : AuditDraft} (hd : d.tenant = some tenant) :
    Isolated tenant (append d) := by
  intro env e e' h
  refine .store_bind ?_
  rw [Store.appendAudit?_eq, Store.appendAudit?_eq]
  rcases hrow : d.row? with _ | row
  · exact .orFail_none h _
  · have htenant := (AuditDraft.of_row? hrow).trans hd
    exact .orFail_some (.of_outcome rfl rfl (h.appendAudit htenant))

theorem isolated_record (mode : Mode) (bestEffort : Bool) {d : AuditDraft}
    (hd : d.tenant = some tenant) : Isolated tenant (record mode bestEffort d) := by
  have happend := isolated_append tenant (d := { d with metadata := metadataOf d.metadata }) hd
  exact .ite happend.attempt happend

theorem map_page (f : α → β) (offset : Int) (limit : Option Int) (rows : List α) :
    (page offset limit rows).map f = page offset limit (rows.map f) := by
  rcases limit with _ | n
  · exact List.map_drop
  · simp only [page]
    split
    · rw [List.map_take, List.map_drop]
    · exact List.map_drop

theorem map_window (f : α → β) (offset limit : Option Int) (rows : List α) :
    (List.map f <$> window offset limit rows : Call (List β)) =
      window offset limit (rows.map f) := by
  simp only [window]
  split
  · rw [map_pure, map_page]
  · rfl

/-- The entries are the same up to their numbers. -/
theorem isolated_events (f : AuditFilter) (offset limit : Option Int) :
    Isolated tenant (List.map AuditRow.content <$> events (some tenant) f offset limit) := by
  simp only [events, map_bind, map_window]
  exact .look (g := fun s => (s.auditRows (some tenant) f).map AuditRow.content)
    (k := window offset limit) (fun _ _ h => h.auditRows f) (.window offset limit)

theorem isolated_publish {e : Event} (he : e.tenant = some tenant) :
    Isolated tenant (publish e) := by
  refine Isolated.attempt (Isolated.read.bind fun env => ?_)
  rcases env.sink with _ | _ | _ | _
  · refine Isolated.read.bind fun env => .ite (Isolated.now.bind fun _ => ?_) (.pure _)
    exact isolated_record tenant _ _ he
  · intro env e e' h
    exact .of_outcome rfl rfl
      { twin := { h with left := { h.left with }, right := { h.right with } }
        left := ⟨.refl tenant e.store, fun _ _ hid => hid⟩
        right := ⟨.refl tenant e'.store, fun _ _ hid => hid⟩ }
  · exact .throw _
  · exact .pure _

end AuditLog

end Entitlements
