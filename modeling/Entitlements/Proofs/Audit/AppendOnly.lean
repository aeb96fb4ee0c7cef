import Entitlements.CommandLine.Commands
import Entitlements.Proofs.Administration.BestEffort
import Entitlements.Proofs.Audit.Log

/-!
Everything that a deployment does, and what it does to the log. `SystemStep` lists what can be asked
for: requests that write, calls of administration and of the catalogue, look-ups, entries that a
caller records itself, the commands of the program. Whatever is asked for, in whatever environment
and however it ends, the log only grows; so over a run no entry is ever lost or changed and the
numbers ascend. There is one way for a secret into the log: a caller records it himself, in a tuple.
-/

namespace Entitlements

open Time Call AuditTable

variable {env : Environment}

/-! ### The catalogue -/

theorem CatalogCall.onlyAppends (op : CatalogCall α) : OnlyAppends env op.call :=
  op.moves (fun _ _ _ => .refl)
    (fun p actor => Catalog.insert_onlyAppends op.owner actor p)
    (fun id c actor => Catalog.update_onlyAppends op.owner actor id c)
    (fun id actor => Catalog.delete_onlyAppends op.owner actor id)

/-! ### Look-ups -/

/-- The calls that only look, the catalogue and administration apart. -/
inductive LookUp : Type → Type where
  -- Evaluation
  | evaluate (tenant user right scope : Given) : LookUp Decision
  | evaluateBatch (tenant user : Given) (rights : List Given) (scope : Given) :
    LookUp Evaluation.Batch
  | grants (tenant user scope : Given) (present : Option Stamp) : LookUp (List Grant)
  | effective (tenant user scope : Given) : LookUp (List EffectivePermission)
  -- The access store
  | policy? (tenant key : Given) : LookUp (Option Policy)
  | policyRowById? (tenant id : Given) : LookUp (Option PolicyRow)
  | policies (tenant : Given) (offset limit : Option Int) : LookUp (List Policy)
  | role? (tenant key : Given) : LookUp (Option Role)
  | roleRowById? (tenant id : Given) : LookUp (Option RoleRow)
  | roleRows (tenant : Given) (offset limit : Option Int) : LookUp (List RoleRow)
  | roles (tenant : Given) : LookUp (List Role)
  | rolesUsing (tenant key : Given) : LookUp (List String)
  | assignment? (tenant id : Given) : LookUp (Option Assignment)
  | assignments (tenant user : Given) (liveOnly : Bool) : LookUp (List Assignment)
  | liveAssignment? (tenant user key scope : Given) : LookUp (Option Assignment)
  | countLive (tenant key : Given) : LookUp Nat
  -- The directory, the cache and the log
  | user? (tenant id : Given) : LookUp (Option UserRow)
  | customer? (tenant id : Given) : LookUp (Option CustomerRow)
  | primaryGroup? (tenant user : Given) : LookUp (Option GroupRow)
  | cached? (tenant user scope : Given) : LookUp (Option CacheEntry)
  | events (tenant : Given) (f : AuditFilter) (offset limit : Option Int) : LookUp (List AuditRow)

namespace LookUp

def call : LookUp α → Call α
  | evaluate tenant user right scope => Evaluation.evaluate tenant user right scope
  | evaluateBatch tenant user rights scope => Evaluation.evaluateBatch tenant user rights scope
  | grants tenant user scope present => Evaluation.grants tenant user scope present
  | effective tenant user scope => Evaluation.effective tenant user scope
  | policy? tenant key => AccessStore.policy? tenant key
  | policyRowById? tenant id => AccessStore.policyRowById? tenant id
  | policies tenant offset limit => AccessStore.policies tenant offset limit
  | role? tenant key => AccessStore.role? tenant key
  | roleRowById? tenant id => AccessStore.roleRowById? tenant id
  | roleRows tenant offset limit => AccessStore.roleRows tenant offset limit
  | roles tenant => AccessStore.roles tenant
  | rolesUsing tenant key => AccessStore.rolesUsing tenant key
  | assignment? tenant id => AccessStore.assignment? tenant id
  | assignments tenant user liveOnly => AccessStore.assignments tenant user liveOnly
  | liveAssignment? tenant user key scope => AccessStore.liveAssignment? tenant user key scope
  | countLive tenant key => AccessStore.countLive tenant key
  | user? tenant id => Directory.user? tenant id
  | customer? tenant id => Directory.customer? tenant id
  | primaryGroup? tenant user => Directory.primaryGroup? tenant user
  | cached? tenant user scope => BundleCache.get? tenant user scope
  | events tenant f offset limit => AuditLog.events tenant f offset limit

theorem grants_onlyAppends (tenant user scope : Given) (present : Option Stamp) :
    OnlyAppends env (Evaluation.grants tenant user scope present) := by
  refine (Moves.requireTenant tenant).bind fun _ => Moves.store.bind fun s => ?_
  cases present with
  | none => exact Moves.now.bind fun _ => .pure _
  | some present => exact (Moves.ofExcept _).bind fun _ => .pure _

theorem onlyAppends (op : LookUp α) : OnlyAppends env op.call := by
  -- Most of them ask for a tenant, look at the tables, and answer.
  have hlooks {β : Type} {tenant : Given} {f : Store → Call β} (hf : ∀ s, OnlyAppends env (f s)) :
      OnlyAppends env (do requireTenant tenant; f (← store)) :=
    (Moves.requireTenant tenant).bind fun _ => Moves.store.bind hf
  have hclock {β : Type} {f : Instant → Call β} (hf : ∀ t, OnlyAppends env (f t)) :
      OnlyAppends env (now >>= f) := Moves.now.bind hf
  cases op with
  | evaluate tenant user right scope =>
    exact (Moves.requireTenant tenant).bind fun _ => hclock fun _ =>
      Moves.store.bind fun _ => .pure _
  | evaluateBatch tenant user rights scope =>
    exact (Moves.requireTenant tenant).bind fun _ => hclock fun _ =>
      Moves.store.bind fun _ => .pure _
  | grants tenant user scope present => exact grants_onlyAppends tenant user scope present
  | effective tenant user scope =>
    exact (grants_onlyAppends tenant user scope none).bind fun _ => .pure _
  | policy? tenant key => exact hlooks fun _ => .pure _
  | policyRowById? tenant id => exact hlooks fun _ => .pure _
  | policies tenant offset limit =>
    exact hlooks fun _ => (Moves.window _ _ _).bind fun _ => .pure _
  | role? tenant key => exact hlooks fun _ => .pure _
  | roleRowById? tenant id => exact hlooks fun _ => .pure _
  | roleRows tenant offset limit => exact hlooks fun _ => .window _ _ _
  | roles tenant => exact hlooks fun _ => .pure _
  | rolesUsing tenant key => exact hlooks fun _ => .pure _
  | assignment? tenant id =>
    exact hlooks fun _ => .appends_of_unaware (.mapM _ fun _ => .ofExcept _)
  | assignments tenant user liveOnly =>
    exact hlooks fun _ => hclock fun _ => .list_mapM (fun _ => .ofExcept _) _
  | liveAssignment? tenant user key scope =>
    exact hlooks fun _ => hclock fun _ => .appends_of_unaware (.mapM _ fun _ => .ofExcept _)
  | countLive tenant key => exact hlooks fun _ => hclock fun _ => .pure _
  | user? tenant id => exact hlooks fun _ => .pure _
  | customer? tenant id => exact hlooks fun _ => .pure _
  | primaryGroup? tenant user => exact hlooks fun _ => hclock fun _ => .pure _
  | cached? tenant user scope => exact BundleCache.get?_onlyAppends tenant user scope
  | events tenant f offset limit => exact AuditLog.events_onlyAppends tenant f offset limit

end LookUp

/-! ### Requests -/

theorem Operation.onlyAppends (op : Operation) : OnlyAppends env op.call := by
  cases op with
  | createPolicy tenant policy actor =>
    exact .discard (Administration.createPolicy_onlyAppends tenant actor policy)
  | updatePolicy tenant key change actor =>
    exact .discard (Administration.updatePolicy_onlyAppends tenant key actor change)
  | deletePolicy tenant key actor =>
    exact Administration.deletePolicy_onlyAppends tenant key actor
  | createRole tenant role actor =>
    exact .discard (Administration.createRole_onlyAppends tenant actor role)
  | updateRole tenant key change actor =>
    exact .discard (Administration.updateRole_onlyAppends tenant key actor change)
  | deleteRole tenant key actor => exact Administration.deleteRole_onlyAppends tenant key actor
  | assignRole tenant draft => exact .discard (Administration.assignRole_onlyAppends tenant draft)
  | revoke tenant id actor reason =>
    exact .discard (Administration.revoke_onlyAppends tenant actor id reason)
  | generate tenant user scope useCache lifetime =>
    exact .discard (Generation.generate_onlyAppends tenant user _)
  | refresh tenant user scope reason =>
    exact .discard (Generation.refresh_onlyAppends tenant user scope reason)
  | permits tenant user key scope =>
    exact .discard ((Generation.generate_onlyAppends tenant user _).bind fun _ => .pure _)
  | featureAccess tenant user feature scope =>
    exact .discard ((Generation.generate_onlyAppends tenant user _).bind fun _ => .pure _)
  | invalidate tenant user reason scope actor =>
    exact .discard (Generation.invalidate_onlyAppends tenant user reason scope actor)
  | invalidateTenant tenant reason actor =>
    exact .discard (Generation.invalidateTenant_onlyAppends tenant reason actor)
  | pruneExpired present => exact .discard (Maintenance.pruneExpired_onlyAppends present)
  | pruneInvalidated days present =>
    exact .discard (Maintenance.pruneInvalidated_onlyAppends days present)
  | expireAssignments tenant present =>
    exact .discard (Maintenance.expireAssignments_onlyAppends tenant present)
  | runTask task tenant days => exact .discard (Maintenance.run_onlyAppends task tenant days)
  | addUser tenant id email customerId =>
    exact .appends_of_unaware (Directory.unaware_addUser tenant id email customerId)
  | addCustomer tenant id name =>
    exact .appends_of_unaware (Directory.unaware_addCustomer tenant id name)
  | addGroup tenant id key name =>
    exact .appends_of_unaware (Directory.unaware_addGroup tenant id key name)
  | addMember tenant id group user assignedAt expiresAt =>
    exact .appends_of_unaware
      (Directory.unaware_addMember tenant id group user assignedAt expiresAt)
  | moveClock setTo micros =>
    intro e
    rw [after_moveClock]
    exact .refl

theorem AccessStore.Write.onlyAppends (w : AccessStore.Write) : OnlyAppends env w.call := by
  cases w with
  | savePolicy tenant draft actor =>
    exact .discard (.appends_of_unaware (unaware_savePolicy tenant actor draft))
  | removePolicy tenant key =>
    exact .discard (.appends_of_unaware (unaware_removePolicy tenant key))
  | saveRole tenant draft actor =>
    exact .discard (.appends_of_unaware (unaware_saveRole tenant actor draft))
  | removeRole tenant key => exact .discard (.appends_of_unaware (unaware_removeRole tenant key))
  | createAssignment tenant draft grantedAt =>
    exact .discard (.appends_of_unaware (unaware_createAssignment tenant draft grantedAt))
  | setStatus tenant id status actor =>
    exact .discard (.appends_of_unaware (unaware_setStatus tenant actor id status))
  | expireAssignments tenant now =>
    exact .discard (.appends_of_unaware (unaware_expireAssignments tenant now))

theorem Request.onlyAppends (r : Request) : OnlyAppends env r.call := by
  cases r with
  | operation op => exact op.onlyAppends
  | generate tenant user o => exact .discard (Generation.generate_onlyAppends tenant user o)
  | write w => exact w.onlyAppends
  | edit w => exact w.onlyAppends

theorem AdministrationCall.onlyAppends (op : AdministrationCall α) : OnlyAppends env op.call := by
  cases op with
  | policy tenant key => exact .appends_of_unaware (Administration.unaware_policy tenant key)
  | createPolicy tenant p actor => exact Administration.createPolicy_onlyAppends tenant actor p
  | updatePolicy tenant key c actor =>
    exact Administration.updatePolicy_onlyAppends tenant key actor c
  | deletePolicy tenant key actor => exact Administration.deletePolicy_onlyAppends tenant key actor
  | role tenant key => exact .appends_of_unaware (Administration.unaware_role tenant key)
  | createRole tenant r actor => exact Administration.createRole_onlyAppends tenant actor r
  | updateRole tenant key c actor => exact Administration.updateRole_onlyAppends tenant key actor c
  | deleteRole tenant key actor => exact Administration.deleteRole_onlyAppends tenant key actor
  | assignRole tenant d => exact Administration.assignRole_onlyAppends tenant d
  | revoke tenant id actor reason => exact Administration.revoke_onlyAppends tenant actor id reason
  | assignments tenant user liveOnly =>
    exact (LookUp.assignments tenant user liveOnly).onlyAppends.bind fun _ =>
      Moves.now.bind fun _ => .pure _

/-! ### Commands -/

namespace CommandLine

theorem checkQueried_onlyAppends (values : Keyed Setting) (names : List String) :
    OnlyAppends env (checkQueried values names) :=
  .ite ((Moves.requireTenant _).bind fun _ => .throw _) (.pure _)

theorem inspectBundle_onlyAppends (values : Keyed Setting) :
    OnlyAppends env (inspectBundle values) :=
  .read_bind ((Moves.ofExcept _).bind fun _ => (checkQueried_onlyAppends _ _).bind fun _ =>
    (Generation.generate_onlyAppends _ _ _).withReader.bind fun _ => .pure _)

theorem pruneBundleCache_onlyAppends (values : Keyed Setting) :
    OnlyAppends env (pruneBundleCache values) := by
  unfold pruneBundleCache
  dsimp only
  refine Moves.appends_transaction (.ite (Moves.bind (.pure _) fun _ => ?_)
    ((Maintenance.pruneExpired_onlyAppends none).bind fun _ =>
      Moves.bind (.pure _) fun _ => ?_))
  -- The second pass is the same, whether or not the first was skipped.
  all_goals
    refine .ite (Moves.bind (.pure _) fun _ => .pure _) (.guard ?_)
    exact (Maintenance.pruneInvalidated_onlyAppends _ none).bind fun _ =>
      Moves.bind (.pure _) fun _ => .pure _

theorem expireRoleAssignments_onlyAppends (values : Keyed Setting) :
    OnlyAppends env (expireRoleAssignments values) := by
  refine Moves.bind (Moves.tryCatch ?_ fun failure => ?_) fun _ => .pure _
  · exact (checkQueried_onlyAppends _ _).bind fun _ =>
      Maintenance.expireAssignments_onlyAppends _ none
  · split
    · exact .throw _
    · exact .throw _

theorem work_onlyAppends (n : Name) (values : Keyed Setting) : OnlyAppends env (n.work values) := by
  cases n with
  | inspectBundle => exact inspectBundle_onlyAppends values
  | pruneBundleCache => exact pruneBundleCache_onlyAppends values
  | expireRoleAssignments => exact expireRoleAssignments_onlyAppends values

theorem run_onlyAppends (n : Name) (args : List String) : OnlyAppends env (run n args) := by
  unfold run
  split
  · exact .pure _
  · exact .pure _
  · exact .read_bind ((Moves.ofExcept _).bind fun _ =>
      (work_onlyAppends n _).bind fun _ => .pure _)

end CommandLine

/-! ### Runs -/

/-- One call on a deployment, of any kind, in an environment of its own. -/
inductive SystemStep (e : Engine) : Engine → Prop
  | request (env : Environment) (r : Request) : SystemStep e (r.call.after env e)
  | administration (env : Environment) (op : AdministrationCall α) :
    SystemStep e (op.call.after env e)
  | catalogue (env : Environment) (op : CatalogCall α) : SystemStep e (op.call.after env e)
  | lookUp (env : Environment) (op : LookUp α) : SystemStep e (op.call.after env e)
  | record (env : Environment) (mode : AuditLog.Mode) (bestEffort : Bool) (d : AuditDraft) :
    SystemStep e ((AuditLog.record mode bestEffort d).after env e)
  | collect (env : Environment) : SystemStep e (collect.after env e)
  | command (env : Environment) (n : CommandLine.Name) (args : List String) :
    SystemStep e ((CommandLine.run n args).after env e)

abbrev SystemRun : Engine → Engine → Prop := Relation.ReflTransGen SystemStep

/-- Has a caller's own entry come to the end of the log? -/
structure Engine.Records (e : Engine) (d : AuditDraft) (row : AuditRow) (e' : Engine) : Prop where
  called : ∃ env mode bestEffort, e' = (AuditLog.record mode bestEffort d).after env e
  added : e'.store.audit = e.store.audit ++ [row]

namespace Engine.Records

variable {e e' : Engine} {d : AuditDraft} {row : AuditRow}

/-- What is recorded has the next number, and is redacted unless a tuple was in the way. -/
theorem numbered_and_redacted (h : e.Records d row e') :
    (∀ r ∈ e.store.audit, r.id < row.id) ∧ (row.IsRedacted ↔ ¬d.metadata.Exposes) := by
  obtain ⟨⟨env, mode, bestEffort, rfl⟩, hadded⟩ := h
  rcases AuditLog.audit_after_record env e mode bestEffort d with
    hsame | ⟨written, hids, hredacted, hlog⟩
  · rw [hadded] at hsame
    exact absurd hsame (by simp)
  · rw [hadded] at hlog
    obtain rfl : row = written := List.singleton_inj.1 (List.append_cancel_left hlog)
    exact ⟨hids, hredacted⟩

end Engine.Records

/-- Only a caller's own entry can be other than redacted. -/
theorem SystemStep.grows_or_records {e e' : Engine} (h : SystemStep e e') :
    e.LogGrows e' ∨ ∃ d row, e.Records d row e' := by
  cases h with
  | request env r => exact .inl (r.onlyAppends e)
  | administration env op => exact .inl (op.onlyAppends e)
  | catalogue env op => exact .inl (op.onlyAppends e)
  | lookUp env op => exact .inl (op.onlyAppends e)
  | record env mode bestEffort d =>
    rcases AuditLog.audit_after_record env e mode bestEffort d with
      hsame | ⟨row, -, -, hlog⟩
    · left
      rw [Engine.LogGrows, hsame]
      exact .refl
    · exact .inr ⟨d, row, ⟨env, mode, bestEffort, rfl⟩, hlog⟩
  | collect env => exact .inl .refl
  | command env n args => exact .inl (CommandLine.run_onlyAppends n args e)

theorem SystemStep.grows {e e' : Engine} (h : SystemStep e e') :
    Grows (fun _ => True) e.store.audit e'.store.audit := by
  rcases h.grows_or_records with hgrows | ⟨d, row, hrecords⟩
  · exact Grows.mono hgrows fun _ _ => trivial
  · rw [hrecords.added]
    exact .append .refl hrecords.numbered_and_redacted.1 trivial

theorem SystemRun.grows {e e' : Engine} (h : SystemRun e e') :
    Grows (fun _ => True) e.store.audit e'.store.audit := by
  induction h with
  | refl => exact .refl
  | tail _ hstep ih => exact ih.trans hstep.grows

/-- An entry that is not redacted leads back to the caller who recorded it with a tuple. -/
theorem SystemRun.redacted_or_recorded {e e' : Engine} (h : SystemRun e e')
    (hbefore : ∀ r ∈ e.store.audit, r.IsRedacted) :
    ∀ r ∈ e'.store.audit, r.IsRedacted ∨ ∃ e₁ d e₂,
      SystemRun e e₁ ∧ e₁.Records d r e₂ ∧ SystemRun e₂ e' ∧ d.metadata.Exposes := by
  induction h with
  | refl => exact fun r hr => .inl (hbefore r hr)
  | @tail e₁ e₂ hrun hstep ih =>
    have hold : ∀ r ∈ e₁.store.audit, r.IsRedacted ∨ ∃ e₃ d e₄,
        SystemRun e e₃ ∧ e₃.Records d r e₄ ∧ SystemRun e₄ e₂ ∧ d.metadata.Exposes := by
      intro r hr
      rcases ih r hr with hredacted | ⟨e₃, d, e₄, hfirst, hrecords, hrest, hexposes⟩
      · exact .inl hredacted
      · exact .inr ⟨e₃, d, e₄, hfirst, hrecords, hrest.tail hstep, hexposes⟩
    rcases hstep.grows_or_records with hgrows | ⟨d, row, hrecords⟩
    · intro r hr
      rcases Grows.mem_or hgrows r hr with hr | hredacted
      · exact hold r hr
      · exact .inl hredacted
    · rw [hrecords.added]
      refine Store.forall_mem_append_singleton hold ?_
      by_cases hexposes : d.metadata.Exposes
      · exact .inr ⟨e₁, d, e₂, hrun, hrecords, .refl, hexposes⟩
      · exact .inl (hrecords.numbered_and_redacted.2.2 hexposes)

/-- The log is append-only, and only a tuple can bring a secret into it. Whatever has been asked for
since there was nothing, what is logged stays as it is and later entries have higher numbers. The
metadata of an entry are redacted, so that at any depth a sensitive key has the mark for its value,
unless a caller recorded the entry himself and his metadata expose something in a tuple; and then
they are not. Documents expose nothing. On them redaction depends on nothing under sensitive keys
and keeps all the rest, with its shape and its order. -/
theorem audit_log_grows_and_tuples_expose {clock : Instant} {scheme : IdScheme} {e e' : Engine}
    (h : SystemRun (Engine.empty clock scheme) e) (h' : SystemRun e e') :
    e.store.audit <+: e'.store.audit ∧
      (e'.store.audit.Pairwise fun r q => r.id < q.id) ∧
      (∀ r ∈ e'.store.audit,
        (Redaction.redact r.metadata = r.metadata ∧ Redaction.IsClean r.metadata) ∨
          ∃ e₁ d e₂, SystemRun (Engine.empty clock scheme) e₁ ∧ e₁.Records d r e₂ ∧
            SystemRun e₂ e' ∧ d.metadata.Exposes) ∧
      (∀ e₁ d r e₂, Engine.Records e₁ d r e₂ →
        (Redaction.redact r.metadata = r.metadata ↔ ¬d.metadata.Exposes)) ∧
      (∀ x : Json, ¬(Details.ofJson x).Exposes) ∧
      (∀ x y, Redaction.AgreesOutside x y → Redaction.redact x = Redaction.redact y) ∧
      ∀ x, Redaction.AgreesOutside x (Redaction.redact x) := by
  have hrun : SystemRun (Engine.empty clock scheme) e' := h.trans h'
  have hnone : ∀ r ∈ (Engine.empty clock scheme).store.audit, r.IsRedacted :=
    List.forall_mem_nil _
  refine ⟨(SystemRun.grows h').isPrefix, (SystemRun.grows hrun).pairwise_ids .nil,
    fun r hr => ?_, fun e₁ d r e₂ hrecords => ?_, Details.not_exposes_ofJson,
    fun _ _ => Redaction.redact_eq_iff.2, Redaction.agreesOutside_redact⟩
  · exact (SystemRun.redacted_or_recorded hrun hnone r hr).imp_left fun hredacted =>
      ⟨Redaction.redact_of_isClean hredacted, hredacted⟩
  · exact Redaction.redact_eq_self_iff.trans hrecords.numbered_and_redacted.2

/-- An entry about a login, with what should not be in it: under a key of its own, in a list and in
a tuple. -/
def AuditDraft.login : AuditDraft where
  occurredAt := ⟨0⟩
  tenant := some "acme"
  actorType := some "user"
  actorId := some "alice"
  eventType := some "LOGIN"
  outcome := some "success"
  resourceType := none
  resourceId := none
  correlationId := none
  metadata := .map
    [("Access_Token", .str "t0p"),
      ("attempts", .list [.map [("password", .str "hunter1")]]),
      ("steps", .tuple [.map [("password", .str "hunter2"), ("role", .str "operator")]])]

/-- The list is redacted and the tuple is not, and so the entry stays when a permission is
registered after it. -/
theorem login_exposes_its_tuple :
    let env := Environment.plain
    let login := (AuditLog.record .alone true .login).after env (Engine.start ⟨0⟩ false)
    let fan : NewPermission := ⟨⟨"hvac", "fan", "roof", "start"⟩, none, none, .null⟩
    let registered := (CatalogCall.create none fan (some "admin")).call.after env login
    login.store.audit.map (·.metadata) =
        [.obj
          [("Access_Token", .str "[REDACTED]"),
            ("attempts", .arr [.obj [("password", .str "[REDACTED]")]]),
            ("steps", .arr [.obj [("password", .str "hunter2"), ("role", .str "operator")]])]] ∧
      login.store.audit <+: registered.store.audit ∧
      registered.store.audit.map (·.id) = [1, 2] ∧
      AuditDraft.login.metadata.Exposes ∧
      ∃ r ∈ registered.store.audit, Redaction.redact r.metadata ≠ r.metadata := by
  intro env login fan registered
  have hlogin : SystemRun (Engine.start ⟨0⟩ false) login :=
    .single (.record env .alone true .login)
  have hregistered : SystemRun login registered :=
    .single (.catalogue env (.create none fan (some "admin")))
  obtain ⟨hkept, -, -, hexposed, -⟩ := audit_log_grows_and_tuples_expose hlogin hregistered
  obtain ⟨row, hrow⟩ : ∃ row, login.store.audit = [row] := ⟨_, rfl⟩
  have hrecords : (Engine.start ⟨0⟩ false).Records .login row login :=
    ⟨⟨env, .alone, true, rfl⟩, hrow⟩
  have hleak : ¬Redaction.redact row.metadata = row.metadata := by
    obtain rfl : _ = row := List.singleton_inj.1 hrow
    decide +kernel
  have hexposes : AuditDraft.login.metadata.Exposes := by
    by_contra hnone
    exact hleak ((hexposed _ _ _ _ hrecords).2 hnone)
  refine ⟨by decide +kernel, hkept, by decide +kernel, hexposes, row, hkept.subset ?_, hleak⟩
  rw [hrow]
  exact List.mem_singleton_self _

end Entitlements
