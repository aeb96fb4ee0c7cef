import Entitlements.Proofs.Administration.Margins
import Entitlements.Proofs.Cache.Edits
import Entitlements.Proofs.Generation.Runs

/-!
Everything that a deployment can be asked for: administration and generation through the services,
and writes to the access store and to the cache past them. A course is a run of requests, each in an
environment of its own; what is admitted to it is left open, because theorems differ in that.
-/

namespace Entitlements

open Time Call

/-! ### Requests -/

/-- The writes that the access store offers. -/
inductive AccessStore.Write where
  | savePolicy (tenant : Given) (draft : PolicyDraft) (actor : Given)
  | removePolicy (tenant key : Given)
  | saveRole (tenant : Given) (draft : RoleDraft) (actor : Given)
  | removeRole (tenant key : Given)
  | createAssignment (tenant : Given) (draft : AssignmentDraft) (grantedAt : Option Instant)
  | setStatus (tenant id status actor : Given)
  | expireAssignments (tenant : Given) (now : Instant)

namespace AccessStore.Write

def call : Write → Call Unit
  | savePolicy tenant draft actor => discard (AccessStore.savePolicy tenant draft actor)
  | removePolicy tenant key => discard (AccessStore.removePolicy tenant key)
  | saveRole tenant draft actor => discard (AccessStore.saveRole tenant draft actor)
  | removeRole tenant key => discard (AccessStore.removeRole tenant key)
  | createAssignment tenant draft grantedAt =>
    discard (AccessStore.createAssignment tenant draft grantedAt)
  | setStatus tenant id status actor => discard (AccessStore.setStatus tenant id status actor)
  | expireAssignments tenant now => discard (AccessStore.expireAssignments tenant now)

end AccessStore.Write

inductive Request where
  | operation (op : Operation)
  | generate (tenant user : Given) (o : BundleOptions)
  | write (w : AccessStore.Write)
  | edit (w : BundleCache.Edit)

def Request.call : Request → Call Unit
  | operation op => op.call
  | generate tenant user o => discard (Generation.generate tenant user o)
  | write w => w.call
  | edit w => w.call

/-- The engines that requests lead to, one after another, as far as they are admitted. -/
inductive Course (admits : Environment → Engine → Request → Prop) (start : Engine) : Engine → Prop
  | nil : Course admits start start
  | step {e : Engine} (env : Environment) (request : Request) :
    Course admits start e → admits env e request →
      Course admits start (request.call.after env e)

namespace Course

variable {admits : Environment → Engine → Request → Prop} {start e : Engine}

/-- Calls one after another, each of which is admitted whatever there is. -/
theorem operations {env : Environment} (h : Course admits start e) {ops : List Operation}
    (hadmits : ∀ op ∈ ops, ∀ e, admits env e (.operation op)) :
    Course admits start (ops.foldl (fun e op => op.call.after env e) e) := by
  induction ops generalizing e with
  | nil => exact h
  | cons op ops ih =>
    have hop := h.step env (.operation op) (hadmits op List.mem_cons_self e)
    exact ih hop fun op hop => hadmits op (List.mem_cons_of_mem _ hop)

end Course

/-- Time moves to where it is told to, if there is such a time. -/
theorem Operation.after_moveClock (setTo : Option Instant) (micros : Int) (env : Environment)
    (e : Engine) :
    (moveClock setTo micros).call.after env e =
      { e with clock := ((setTo.getD e.clock).add? micros).getD e.clock } := by
  rw [call, after_discard, after, outcome_moveClock]
  cases (setTo.getD e.clock).add? micros <;> rfl

/-! ### Requests beside a margin -/

/-- Does marking, or removing, on both sides restore a relation between tables? -/
structure CacheTable.Kept (R : Instant → List CacheRow → List CacheRow → Prop) : Prop where
  mark : KeptByMarking R
  remove : ∀ now rows rows' (selected : CacheRow → Bool), R now rows rows' →
    R now (rows.filter fun r => !selected r) (rows'.filter fun r => !selected r)

section

variable {R : Instant → List CacheRow → List CacheRow → Prop} (hR : CacheTable.Kept R)

include hR

theorem BundleCache.alike_removeWhere (selected : CacheRow → Bool) :
    Alike R (fun _ _ => True) (removeWhere selected) (removeWhere selected) := by
  intro env e m hrows
  have hremoved := hR.remove e.clock _ _ selected hrows
  exact .ok (e := e.withCache (e.store.cache.filter fun r => !selected r))
    (m := { m with cache := m.cache.filter fun r => !selected r }) trivial hremoved

omit hR in
theorem Maintenance.unaware_timeOf (present : Option Stamp) : Unaware (timeOf present) := by
  cases present with
  | none => exact .now
  | some present => exact .pure _

theorem Maintenance.alike_pruneExpired (present : Option Stamp) :
    Alike R (fun _ _ => True) (pruneExpired present) (pruneExpired present) :=
  .after_unaware (unaware_timeOf present) fun _ => BundleCache.alike_removeWhere hR _

theorem Maintenance.alike_pruneInvalidated (days : Option Int) (present : Option Stamp) :
    Alike R (fun _ _ => True) (pruneInvalidated days present) (pruneInvalidated days present) :=
  .after_unaware .read fun _ => .after_unaware (unaware_timeOf present) fun _ =>
    .after_unaware (.orFail _ _) fun _ => BundleCache.alike_removeWhere hR _

omit hR in
theorem Maintenance.unaware_expireAssignments (tenant : Given) (present : Option Stamp) :
    Unaware (expireAssignments tenant present) :=
  (unaware_timeOf present).bind fun now => AccessStore.unaware_expireAssignments tenant now

theorem Maintenance.alike_run (task tenant : Given) (days : Option Int) :
    Alike R (fun _ _ => True) (run task tenant days) (run task tenant days) := by
  unfold run
  rcases task.bind Task.ofName? with _ | task
  · exact .throw _
  · cases task with
    | pruneExpired => exact alike_pruneExpired hR none
    | pruneInvalidated => exact alike_pruneInvalidated hR days none
    | expireAssignments =>
      refine .ite ?_ (.throw _)
      exact (Alike.of_unaware (unaware_expireAssignments tenant none)).mono fun _ _ _ => trivial

theorem Operation.alike (op : Operation) (hplain : op.isPlain = true) :
    Alike R Eq op.call op.call := by
  cases op with
  | createPolicy tenant policy actor =>
    exact .discard (Administration.alike_createPolicy hR.mark tenant actor policy)
  | updatePolicy tenant key change actor =>
    exact .discard (Administration.alike_updatePolicy hR.mark tenant key actor change)
  | deletePolicy tenant key actor =>
    exact Administration.alike_deletePolicy hR.mark tenant key actor
  | createRole tenant role actor =>
    exact .discard (Administration.alike_createRole hR.mark tenant actor role)
  | updateRole tenant key change actor =>
    exact .discard (Administration.alike_updateRole hR.mark tenant key actor change)
  | deleteRole tenant key actor => exact Administration.alike_deleteRole hR.mark tenant key actor
  | assignRole tenant draft => exact .discard (Administration.alike_assignRole hR.mark tenant draft)
  | revoke tenant id actor reason =>
    exact .discard (Administration.alike_revoke hR.mark tenant actor id reason)
  | invalidate tenant user reason scope actor =>
    exact .discard (Generation.alike_invalidate hR.mark tenant user reason scope actor)
  | invalidateTenant tenant reason actor =>
    exact .discard (Generation.alike_invalidateTenant hR.mark tenant reason actor)
  | pruneExpired present => exact .discard (Maintenance.alike_pruneExpired hR present)
  | pruneInvalidated days present =>
    exact .discard (Maintenance.alike_pruneInvalidated hR days present)
  | expireAssignments tenant present =>
    exact .discard (.of_unaware (Maintenance.unaware_expireAssignments tenant present))
  | runTask task tenant days => exact .discard (Maintenance.alike_run hR task tenant days)
  | addUser tenant id email customerId =>
    exact .of_unaware (Directory.unaware_addUser tenant id email customerId)
  | addCustomer tenant id name => exact .of_unaware (Directory.unaware_addCustomer tenant id name)
  | addGroup tenant id key name =>
    exact .of_unaware (Directory.unaware_addGroup tenant id key name)
  | addMember tenant id group user assignedAt expiresAt =>
    exact .of_unaware
      (Directory.unaware_addMember tenant id group user assignedAt expiresAt)
  | _ => cases hplain

omit hR in
theorem AccessStore.Write.alike (w : AccessStore.Write) : Alike R Eq w.call w.call := by
  cases w with
  | savePolicy tenant draft actor =>
    exact .discard (.of_unaware (unaware_savePolicy tenant actor draft))
  | removePolicy tenant key => exact .discard (.of_unaware (unaware_removePolicy tenant key))
  | saveRole tenant draft actor =>
    exact .discard (.of_unaware (unaware_saveRole tenant actor draft))
  | removeRole tenant key => exact .discard (.of_unaware (unaware_removeRole tenant key))
  | createAssignment tenant draft grantedAt =>
    exact .discard (.of_unaware (unaware_createAssignment tenant draft grantedAt))
  | setStatus tenant id status actor =>
    exact .discard (.of_unaware (unaware_setStatus tenant actor id status))
  | expireAssignments tenant now =>
    exact .discard (.of_unaware (unaware_expireAssignments tenant now))

/-- Does an edit write a bundle that its caller made up? -/
def BundleCache.Edit.isPut : Edit → Bool
  | .put .. => true
  | _ => false

theorem BundleCache.Edit.alike (w : Edit) (h : w.isPut = false) : Alike R Eq w.call w.call := by
  cases w with
  | put => cases h
  | invalidateUser tenant user reason => exact .discard (alike_invalidateWhere hR.mark tenant _ _)
  | invalidateScope tenant user scope reason =>
    exact .discard (alike_invalidateScope hR.mark tenant user scope reason)
  | invalidateTenant tenant reason => exact .discard (alike_invalidateWhere hR.mark tenant _ _)
  | delete tenant user scope =>
    exact .discard (.after_unaware (.requireTenant tenant) fun _ => alike_removeWhere hR _)
  | pruneExpired present => exact .discard (Maintenance.alike_pruneExpired hR present)
  | pruneInvalidated days present =>
    exact .discard (Maintenance.alike_pruneInvalidated hR days present)

end

end Entitlements
