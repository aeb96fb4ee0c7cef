import Entitlements.Proofs.Administration.Quiet
import Entitlements.Proofs.Audit.Redaction
import Entitlements.Proofs.Engine.Services
import Entitlements.Proofs.Generation.Requests
import Entitlements.Proofs.Maintenance.CleanUp
import Entitlements.Proofs.Tenancy.Writes

/-!
The log only grows. Rows are added at its end, each under a number above all before it; no call
changes or removes one. There is one place that adds a row, so what has to be shown of a call is
that it leaves the log alone otherwise, and `OnlyAppends` has a rule for each way in which calls are
put together. What the calls of the engine log is redacted besides, since they tell it in documents;
only a caller who records an entry himself can have a tuple in its metadata. A transaction that is
given up takes back the rows that it had added, with nothing in between that anybody has seen.
-/

namespace Entitlements

open Time Call

/-! ### Growing -/

/-- What a log can become: rows of one sort come to its end, under higher numbers. -/
inductive AuditTable.Grows (sort : AuditRow → Prop) (log : List AuditRow) : List AuditRow → Prop
  | refl : Grows sort log log
  | append {grown : List AuditRow} {row : AuditRow} : Grows sort log grown →
    (∀ r ∈ grown, r.id < row.id) → sort row → Grows sort log (grown ++ [row])

namespace AuditTable.Grows

variable {sort wider : AuditRow → Prop} {log grown later : List AuditRow}

theorem trans (h : Grows sort log grown) (h' : Grows sort grown later) :
    Grows sort log later := by
  induction h' with
  | refl => exact h
  | append _ hids hsort ih => exact ih.append hids hsort

theorem mono (h : Grows sort log grown) (hwider : ∀ r, sort r → wider r) :
    Grows wider log grown := by
  induction h with
  | refl => exact .refl
  | append _ hids hsort ih => exact ih.append hids (hwider _ hsort)

/-- What is there stays as it is. -/
theorem isPrefix (h : Grows sort log grown) : log <+: grown := by
  induction h with
  | refl => exact List.prefix_refl log
  | append _ _ _ ih => exact ih.trans (List.prefix_append _ _)

theorem pairwise_ids (h : Grows sort log grown) (hlog : log.Pairwise fun r q => r.id < q.id) :
    grown.Pairwise fun r q => r.id < q.id := by
  induction h with
  | refl => exact hlog
  | append _ hids _ ih =>
    refine List.pairwise_append.2 ⟨ih, List.pairwise_singleton _ _, fun r hr q hq => ?_⟩
    rw [List.mem_singleton.1 hq]
    exact hids r hr

/-- What is not there yet is of the sort that is added. -/
theorem mem_or (h : Grows sort log grown) : ∀ r ∈ grown, r ∈ log ∨ sort r := by
  induction h with
  | refl => exact fun r hr => .inl hr
  | append _ _ hsort ih => exact Store.forall_mem_append_singleton ih (.inr hsort)

end AuditTable.Grows

open AuditTable

/-! ### Calls that only append -/

/-- Is there nothing left to redact in the metadata of an entry? -/
def AuditRow.IsRedacted (r : AuditRow) : Prop := Redaction.IsClean r.metadata

/-- Has the log of an engine grown, by entries that are redacted? -/
def Engine.LogGrows (e e' : Engine) : Prop :=
  Grows AuditRow.IsRedacted e.store.audit e'.store.audit

instance : IsPreorder Engine Engine.LogGrows where
  refl _ := .refl
  trans _ _ _ h h' := Grows.trans h h'

namespace Call

/-- Does a call change the log in no other way than to add to it? -/
abbrev OnlyAppends (env : Environment) (x : Call α) : Prop := Moves Engine.LogGrows env x

variable {env : Environment} {x : Call α}

/-- A call that has nothing to do with the log. -/
theorem Moves.appends_of_unaware (hx : Unaware x) : OnlyAppends env x := by
  intro e
  have hsame : (x.after env e).store.audit = e.store.audit :=
    congrArg (·.store.audit) (hx.after_eq env e)
  rw [Engine.LogGrows, hsame]
  exact .refl

/-- What a failed transaction has added is gone, and nothing else. -/
theorem Moves.appends_transaction (hx : OnlyAppends env x) : OnlyAppends env (Call.transaction x) :=
  hx.transaction fun _ _ _ => .refl

end Call

variable {env : Environment}

/-! ### The log itself -/

/-- A row is redacted unless a tuple was in the way. -/
theorem AuditDraft.isRedacted_of_row? {d : AuditDraft} {row : AuditRow} (h : d.row? = some row) :
    row.IsRedacted ↔ ¬d.metadata.Exposes := by
  simp only [row?, Option.bind_eq_bind, Option.bind_eq_some_iff] at h
  obtain ⟨_, -, _, -, _, -, h⟩ := h
  cases h
  exact Redaction.isClean_kept_iff.trans (Details.isClean_redact_iff d.metadata)

namespace AuditLog

theorem exposes_metadataOf {given : Details} : (metadataOf given).Exposes ↔ given.Exposes := by
  rw [metadataOf]
  split
  · next hnothing =>
    exact iff_of_false (Details.not_exposes_of_isNothing rfl)
      (Details.not_exposes_of_isNothing hnothing)
  · rfl

/-- A recorded entry is refused, or comes to the end of the log under the next number. -/
theorem audit_after_record (env : Environment) (e : Engine) (mode : Mode) (bestEffort : Bool)
    (d : AuditDraft) :
    ((record mode bestEffort d).after env e).store.audit = e.store.audit ∨
      ∃ row : AuditRow, (∀ r ∈ e.store.audit, r.id < row.id) ∧
        (row.IsRedacted ↔ ¬d.metadata.Exposes) ∧
        ((record mode bestEffort d).after env e).store.audit = e.store.audit ++ [row] := by
  rw [after_record, append, after_bind_of_ok (outcome_store env e), Store.appendAudit?_eq]
  rcases hrow : ({ d with metadata := metadataOf d.metadata } : AuditDraft).row? with _ | row
  · exact .inl rfl
  · refine .inr ⟨_, fun r hr => Store.lt_nextAuditId hr, ?_, rfl⟩
    exact (AuditDraft.isRedacted_of_row? hrow).trans (not_congr exposes_metadataOf)

theorem record_onlyAppends (mode : Mode) (bestEffort : Bool) {d : AuditDraft}
    (hd : ¬d.metadata.Exposes) : OnlyAppends env (record mode bestEffort d) := by
  intro e
  rw [Engine.LogGrows]
  rcases audit_after_record env e mode bestEffort d with hsame | ⟨row, hids, hclean, hlog⟩
  · rw [hsame]
    exact .refl
  · rw [hlog]
    exact .append .refl hids (hclean.2 hd)

theorem deliver_onlyAppends (event : Event) : OnlyAppends env (deliver event) := by
  refine .read_bind ?_
  cases env.sink with
  | audit =>
    exact .read_bind (.ite (Moves.now.bind fun _ =>
      record_onlyAppends _ _ (Details.not_exposes_ofJson _)) (.pure _))
  | outbox => exact fun _ => .refl
  | refusing => exact .throw _
  | none => exact .pure _

theorem publish_onlyAppends (event : Event) : OnlyAppends env (publish event) :=
  (deliver_onlyAppends event).attempt

theorem events_onlyAppends (tenant : Given) (f : AuditFilter) (offset limit : Option Int) :
    OnlyAppends env (events tenant f offset limit) :=
  Moves.store.bind fun _ => .window offset limit _

end AuditLog

/-! ### The cache -/

namespace BundleCache

theorem get?_onlyAppends (tenant user scope : Given) : OnlyAppends env (get? tenant user scope) :=
  (Moves.requireTenant tenant).bind fun _ => Moves.store.bind fun _ =>
    Moves.now.bind fun _ => .appends_of_unaware (.mapM _ fun _ => .ofExcept _)

theorem put_onlyAppends (tenant user scope : Given) (bundle : Bundle) (checksum : Given)
    (generatedAt expiresAt : Option Instant) :
    OnlyAppends env (put tenant user scope bundle checksum generatedAt expiresAt) := by
  intro e
  rcases outcome_put env tenant user scope bundle checksum generatedAt expiresAt with
    ⟨p, -, hput⟩ | ⟨failure, -, hput⟩
  · rw [after_eq_of_outcome (hput e)]
    exact .refl
  · rw [after_eq_of_outcome (hput e)]
    exact .refl

theorem invalidateWhere_onlyAppends (tenant : Given) (selected : CacheRow → Bool)
    (reason : String) : OnlyAppends env (invalidateWhere tenant selected reason) :=
  .read_bind (.ite ((Moves.requireTenant tenant).bind fun _ _ => .refl) (.throw _))

theorem invalidateScope_onlyAppends (tenant user scope reason : Given) :
    OnlyAppends env (invalidateScope tenant user scope reason) :=
  (invalidateWhere_onlyAppends tenant _ _).bind fun _ => .pure _

theorem removeWhere_onlyAppends (selected : CacheRow → Bool) :
    OnlyAppends env (removeWhere selected) := fun _ => .refl

end BundleCache

namespace Maintenance

theorem pruneExpired_onlyAppends (present : Option Stamp) :
    OnlyAppends env (pruneExpired present) :=
  pruneExpired_moves BundleCache.removeWhere_onlyAppends present

theorem pruneInvalidated_onlyAppends (days : Option Int) (present : Option Stamp) :
    OnlyAppends env (pruneInvalidated days present) :=
  pruneInvalidated_moves BundleCache.removeWhere_onlyAppends days present

theorem expireAssignments_onlyAppends (tenant : Given) (present : Option Stamp) :
    OnlyAppends env (expireAssignments tenant present) :=
  .appends_of_unaware (unaware_expireAssignments tenant present)

theorem run_onlyAppends (task tenant : Given) (days : Option Int) :
    OnlyAppends env (run task tenant days) :=
  run_moves BundleCache.removeWhere_onlyAppends expireAssignments_onlyAppends task tenant days

end Maintenance

theorem BundleCache.Edit.onlyAppends (w : Edit) : OnlyAppends env w.call := by
  cases w with
  | put tenant user scope bundle checksum generatedAt expiresAt =>
    exact .discard (put_onlyAppends tenant user scope bundle checksum generatedAt expiresAt)
  | invalidateUser tenant user reason => exact .discard (invalidateWhere_onlyAppends tenant _ _)
  | invalidateScope tenant user scope reason =>
    exact .discard (invalidateScope_onlyAppends tenant user scope reason)
  | invalidateTenant tenant reason => exact .discard (invalidateWhere_onlyAppends tenant _ _)
  | delete tenant user scope =>
    exact .discard ((Moves.requireTenant tenant).bind fun _ => removeWhere_onlyAppends _)
  | pruneExpired present => exact .discard (Maintenance.pruneExpired_onlyAppends present)
  | pruneInvalidated days present =>
    exact .discard (Maintenance.pruneInvalidated_onlyAppends days present)

/-! ### Bundles -/

namespace Generation

variable (tenant user : Given)

theorem generate_onlyAppends (o : BundleOptions) : OnlyAppends env (generate tenant user o) := by
  have hcompile : OnlyAppends env (compile tenant user o) :=
    .appends_of_unaware (unaware_compile tenant user o)
  refine .ite ?_ hcompile
  refine (Moves.appends_of_unaware (unaware_scopeOf o)).bind fun scope => ?_
  refine (BundleCache.get?_onlyAppends tenant user _).bind fun entry => ?_
  cases entry with
  | some entry => exact .pure _
  | none =>
    exact hcompile.bind fun _ => (BundleCache.put_onlyAppends _ _ _ _ _ _ _).bind fun _ => .pure _

theorem refresh_onlyAppends (scope reason : Given) :
    OnlyAppends env (refresh tenant user scope reason) :=
  (Moves.appends_of_unaware (unaware_scopeOf _)).bind fun _ =>
    (BundleCache.invalidateScope_onlyAppends tenant user _ reason).bind fun _ =>
      generate_onlyAppends tenant user _

theorem invalidate_onlyAppends (reason scope actor : Given) :
    OnlyAppends env (invalidate tenant user reason scope actor) :=
  invalidate_moves BundleCache.invalidateWhere_onlyAppends
    (fun event _ => AuditLog.publish_onlyAppends event) tenant user reason scope actor

theorem invalidateTenant_onlyAppends (reason actor : Given) :
    OnlyAppends env (invalidateTenant tenant reason actor) :=
  invalidateTenant_moves BundleCache.invalidateWhere_onlyAppends
    (fun event _ => AuditLog.publish_onlyAppends event) tenant reason actor

end Generation

/-! ### Administration -/

namespace Administration

variable (tenant key actor : Given)

theorem followUp_onlyAppends (event : Event) (stale : Stale) (reason : String) :
    OnlyAppends env (followUp event stale reason actor) := by
  refine (AuditLog.publish_onlyAppends event).bind fun _ => ?_
  refine .read_bind (.ite (.attempt ?_) (.pure _))
  exact markStale_moves BundleCache.invalidateWhere_onlyAppends
    (fun event _ => AuditLog.publish_onlyAppends event) event.tenant reason actor stale

/-- A write and its follow-up. -/
theorem followedUp_onlyAppends {x : Call α} (hx : Unaware x) (event : α → Event) (stale : Stale)
    (reason : String) :
    OnlyAppends env (do let a ← x; followUp (event a) stale reason actor; return a) :=
  (Moves.appends_of_unaware hx).bind fun _ =>
    (followUp_onlyAppends actor _ _ _).bind fun _ => .pure _

theorem createPolicy_onlyAppends (p : NewPolicy) :
    OnlyAppends env (createPolicy tenant p actor) := by
  refine (Moves.appends_of_unaware (AccessStore.unaware_policy? tenant p.key)).bind fun _ =>
    .guard ?_
  refine (Moves.ofExcept _).bind fun draft => ?_
  exact followedUp_onlyAppends actor (AccessStore.unaware_savePolicy tenant actor draft) _ _ _

theorem updatePolicy_onlyAppends (c : PolicyChange) :
    OnlyAppends env (updatePolicy tenant key c actor) := by
  refine (Moves.appends_of_unaware (unaware_policy tenant key)).bind fun current => .guard ?_
  refine (Moves.ofExcept _).bind fun draft => ?_
  exact followedUp_onlyAppends actor (AccessStore.unaware_savePolicy tenant actor draft) _ _ _

theorem deletePolicy_onlyAppends : OnlyAppends env (deletePolicy tenant key actor) := by
  refine (Moves.appends_of_unaware (unaware_policy tenant key)).bind fun _ => .guard ?_
  refine (Moves.appends_of_unaware (AccessStore.unaware_rolesUsing tenant key)).bind fun _ =>
    .guard ?_
  exact (Moves.appends_of_unaware (AccessStore.unaware_removePolicy tenant key)).bind fun _ =>
    followUp_onlyAppends actor _ _ _

theorem createRole_onlyAppends (r : NewRole) : OnlyAppends env (createRole tenant r actor) := by
  refine (Moves.appends_of_unaware (AccessStore.unaware_role? tenant r.key)).bind fun _ => .guard ?_
  refine (Moves.appends_of_unaware (unaware_requirePolicies tenant _)).bind fun policyKeys => ?_
  refine (Moves.ofExcept _).bind fun risk => (Moves.ofExcept _).bind fun tags => ?_
  exact followedUp_onlyAppends actor (AccessStore.unaware_saveRole tenant actor _) _ _ _

theorem updateRole_onlyAppends (c : RoleChange) :
    OnlyAppends env (updateRole tenant key c actor) := by
  refine (Moves.appends_of_unaware (unaware_role tenant key)).bind fun current => .guard ?_
  refine .after_choice (.pure _) (.appends_of_unaware (unaware_requirePolicies tenant _))
    fun policyKeys => ?_
  refine (Moves.ofExcept _).bind fun risk => (Moves.ofExcept _).bind fun tags => ?_
  exact followedUp_onlyAppends actor (AccessStore.unaware_saveRole tenant actor _) _ _ _

theorem deleteRole_onlyAppends : OnlyAppends env (deleteRole tenant key actor) := by
  refine (Moves.appends_of_unaware (unaware_role tenant key)).bind fun _ => .guard ?_
  refine (Moves.appends_of_unaware (AccessStore.unaware_countLive tenant key)).bind fun _ =>
    .guard ?_
  exact (Moves.appends_of_unaware (AccessStore.unaware_removeRole tenant key)).bind fun _ =>
    followUp_onlyAppends actor _ _ _

theorem assignRole_onlyAppends (d : AssignmentDraft) : OnlyAppends env (assignRole tenant d) := by
  refine (Moves.ofExcept _).bind fun _ => Moves.now.bind fun now => ?_
  refine (Moves.ofExcept _).bind fun _ => ?_
  refine (Moves.appends_of_unaware (unaware_role tenant d.role)).bind fun _ => ?_
  have hcreate : OnlyAppends env do
      let assignment ← AccessStore.createAssignment tenant d (some now)
      followUp
        (assignmentEvent .roleAssigned tenant (some assignment.id) "CREATE" d.grantedBy d.user
          d.role d.scope d.reason)
        (.user d.user) ("Role " ++ d.role.mention ++ " assigned") d.grantedBy
      return assignment :=
    followedUp_onlyAppends d.grantedBy
      (AccessStore.unaware_createAssignment tenant d (some now)) _ _ _
  refine .read_bind (.ite ?_ hcreate)
  exact (Moves.appends_of_unaware
    (AccessStore.unaware_liveAssignment? tenant d.user d.role d.scope)).bind fun _ => .guard hcreate

theorem revoke_onlyAppends (id reason : Given) :
    OnlyAppends env (revoke tenant id actor reason) := by
  refine (Moves.appends_of_unaware (AccessStore.unaware_assignment? tenant id)).bind fun found => ?_
  refine (Moves.orFail _ _).bind fun current => .ite (.pure _) ?_
  refine .read_bind (.after_choice (.pure _)
    (.appends_of_unaware (AccessStore.unaware_setStatus tenant actor id _)) fun revoked? => ?_)
  exact followedUp_onlyAppends actor (.orFail _ _) _ _ _

end Administration

/-! ### The catalogue -/

namespace Catalog

variable (tenant actor : Given)

theorem audit_onlyAppends (type : EventType) (row : PermissionRow) (more : Json.Fields) :
    OnlyAppends env (audit tenant actor type row more) :=
  .read_bind (.ite (Moves.now.bind fun _ =>
    AuditLog.record_onlyAppends _ _ (Details.not_exposes_ofJson _)) (.pure _))

theorem insert_onlyAppends (p : NewPermission) : OnlyAppends env (insert tenant p actor) := by
  refine (Moves.ofExcept _).bind fun _ => (Moves.ofExcept _).bind fun risk => ?_
  refine .read_bind (Moves.store.bind fun s => .guard ?_)
  refine (Moves.appends_of_unaware (.freshId .permission)).bind fun id => ?_
  intro e
  rw [after_bind_of_ok (outcome_store env e), after_bind_of_ok (outcome_now env e)]
  refine after_bind_of_outcome (P := e.LogGrows) (outcome_orFail env e _ _) .refl
    fun saved hsaved => ?_
  have hkept : saved.1.audit = e.store.audit := by
    rw [(Store.insertPermission?_eq_some (eq_some_of_elim hsaved)).2.2]
  rw [after_bind_of_ok (outcome_write env e _), Engine.LogGrows, ← hkept]
  exact ((audit_onlyAppends tenant actor _ _ _).bind fun _ => .pure _) { e with store := saved.1 }

theorem update_onlyAppends (id : Given) (c : PermissionChange) :
    OnlyAppends env (update tenant id c actor) := by
  refine Moves.appends_transaction ((owned_moves tenant id).bind fun row => ?_)
  refine .after_choice (.pure _) (.ofExcept _) fun risk => Moves.now.bind fun now => ?_
  have hrecord (changed : PermissionRow) (more : Json.Fields) : OnlyAppends env (do
      audit tenant actor .domainPermissionUpdated changed more
      return changed) :=
    (audit_onlyAppends tenant actor _ _ _).bind fun _ => .pure _
  intro e
  exact hrecord (c.apply risk now row) _
    { e with store := e.store.replacePermission row (c.apply risk now row) }

theorem delete_onlyAppends (id : Given) : OnlyAppends env (delete tenant id actor) := by
  refine Moves.appends_transaction ((owned_moves tenant id).bind fun row => ?_)
  exact (audit_onlyAppends tenant actor _ _ _).bind fun _ _ => .refl

end Catalog

end Entitlements
