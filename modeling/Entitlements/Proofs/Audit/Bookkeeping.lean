import Entitlements.Proofs.Administration.Staleness
import Entitlements.Proofs.Audit.Tally
import Entitlements.Proofs.Engine.Services
import Entitlements.Proofs.Tenancy.Writes

/-!
Tables and log in step. A row comes or goes in one step and the entry that tells of it is written in
another, so in between an engine owes the entry: its log would tell of its tables if it had one
entry more. `Owes` is that, and `Replays` is what holds of whole calls, that a log which told of the
tables tells of them again. A call that writes either fails without a trace or leaves one entry
owing, and a publication pays for it where the sink is the log.
-/

namespace Entitlements

open Time Call

/-! ### Tables that a log tells of -/

/-- Does an event tell that a row has come, gone or been revoked? The others tell of changes. -/
def EventType.isCounted : EventType → Bool
  | .roleUpdated | .policyUpdated | .domainPermissionUpdated | .bundleInvalidated => false
  | _ => true

/-- Are the tables what a tally comes to? -/
structure Store.Told (s : Store) (ids : IdSupply) (tally : Tally) : Prop where
  policies : Balanced (tally .policyCreated) (tally .policyDeleted) (s.policies.map (·.naming))
  roles : Balanced (tally .roleCreated) (tally .roleDeleted) (s.roles.map (·.naming))
  permissions : Balanced (tally .domainPermissionCreated) (tally .domainPermissionDeleted)
    (s.permissions.map (·.naming))
  registered : NamedOnce ids .permission (tally .domainPermissionCreated)
  assigned : AssignmentTable.Told ids (tally .roleAssigned) (tally .roleRevoked) s.assignments

namespace Store

variable {s s' : Store} {ids later : IdSupply} {tally : Tally} {tenant key : Given}

theorem mem_policies_naming :
    (tenant, key) ∈ s.policies.map (·.naming) ↔ (s.policyRow? tenant key).isSome = true := by
  simp [policyRow?, PolicyRow.naming, List.find?_isSome]

theorem mem_roles_naming :
    (tenant, key) ∈ s.roles.map (·.naming) ↔ (s.roleRow? tenant key).isSome = true := by
  simp [roleRow?, RoleRow.naming, List.find?_isSome]

namespace Told

theorem mono (h : s.Told ids tally) (hids : ids.Precedes later) : s.Told later tally :=
  { h with registered := h.registered.mono hids, assigned := h.assigned.mono hids }

/-- Of all tables but one, it only matters what their rows are named. -/
theorem of_namings (h : s.Told ids tally)
    (hpolicies : s'.policies.map (·.naming) = s.policies.map (·.naming))
    (hroles : s'.roles.map (·.naming) = s.roles.map (·.naming))
    (hpermissions : s'.permissions.map (·.naming) = s.permissions.map (·.naming))
    (hassignments : s'.assignments = s.assignments) : s'.Told ids tally where
  policies := by rw [hpolicies]; exact h.policies
  roles := by rw [hroles]; exact h.roles
  permissions := by rw [hpermissions]; exact h.permissions
  registered := h.registered
  assigned := by rw [hassignments]; exact h.assigned

theorem uncounted (h : s.Told ids tally) {type : EventType} (htype : type.isCounted = false)
    (naming : Naming) : s.Told ids (tally.add type naming) := by
  cases type
  all_goals first
    | exact ⟨h.policies, h.roles, h.permissions, h.registered, h.assigned⟩
    | cases htype

/-! What happens to a row, and the entry that tells of it. -/

theorem addPolicy (h : s.Told ids tally) {row : PolicyRow} (hrow : row.naming = (tenant, key))
    (hnew : s.policyRow? tenant key = none) :
    { s with policies := s.policies ++ [row] }.Told ids (tally.add .policyCreated (tenant, key)) :=
  { h with
    policies := h.policies.append hrow fun hmem => by
      rw [mem_policies_naming, hnew] at hmem
      cases hmem }

theorem removePolicy (h : s.Told ids tally) (hrow : (s.policyRow? tenant key).isSome = true) :
    (s.removePolicy tenant key).Told ids (tally.add .policyDeleted (tenant, key)) :=
  { h with policies := h.policies.filter (mem_policies_naming.2 hrow) fun _ _ => rfl }

theorem addRole (h : s.Told ids tally) {row : RoleRow} (hrow : row.naming = (tenant, key))
    (hnew : s.roleRow? tenant key = none) :
    { s with roles := s.roles ++ [row] }.Told ids (tally.add .roleCreated (tenant, key)) :=
  { h with
    roles := h.roles.append hrow fun hmem => by
      rw [mem_roles_naming, hnew] at hmem
      cases hmem }

theorem removeRole (h : s.Told ids tally) (hrow : (s.roleRow? tenant key).isSome = true) :
    (s.removeRole tenant key).Told ids (tally.add .roleDeleted (tenant, key)) :=
  { h with roles := h.roles.filter (mem_roles_naming.2 hrow) fun _ _ => rfl }

/-- The identifiers of registered permissions are distinct. -/
theorem permission_ids (h : s.Told ids tally) : (s.permissions.map (·.id)).Nodup := by
  have hnamed := (h.permissions.perm.map Prod.snd).nodup_iff.1 h.registered.distinct
  rw [List.map_append, List.map_map] at hnamed
  exact List.Nodup.of_map some (by rw [List.map_map]; exact hnamed.of_append_right)

theorem addPermission (h : s.Told ids tally) {row : PermissionRow}
    (hid : row.id = ids.next .permission) :
    { s with permissions := s.permissions ++ [row] }.Told (ids.advance .permission)
      (tally.add .domainPermissionCreated row.naming) := by
  have hnew : row.naming ∉ s.permissions.map (·.naming) := by
    intro hmem
    have hcreated := h.permissions.perm.mem_iff.2 (List.mem_append_right _ hmem)
    exact h.registered.issued _ hcreated row.id rfl (hid ▸ ids.isUpcoming_next .permission)
  have hnaming : row.naming = (row.tenant, some (ids.next .permission)) := by
    rw [← hid]
    rfl
  exact
    { h.mono (ids.precedes_advance .permission) with
      permissions := h.permissions.append rfl hnew
      registered := by rw [hnaming]; exact h.registered.add row.tenant }

theorem removePermission (h : s.Told ids tally) {row : PermissionRow}
    (hrow : row ∈ s.permissions) :
    (s.removePermission row.id).Told ids (tally.add .domainPermissionDeleted row.naming) := by
  have hother : ∀ r ∈ s.permissions, (r.id != row.id) = (r.naming != row.naming) := by
    intro r hr
    rw [Bool.eq_iff_iff, bne_iff_ne, bne_iff_ne, not_iff_not]
    constructor
    · intro hid
      rw [Table.eq_of_key h.permission_ids hr hrow hid]
    · intro hnaming
      exact Option.some.inj (congrArg Prod.snd hnaming)
  exact { h with permissions := h.permissions.filter (List.mem_map_of_mem hrow) hother }

/-- Granting retires lapsed rows, which were not revoked, and are not now. -/
theorem expireWhere (h : s.Told ids tally) (selected : AssignmentRow → Bool) (now : Instant) :
    (s.expireWhere selected now).Told ids tally :=
  { h with
    assigned := by
      refine h.assigned.map (fun r => ?_) fun r => ?_
      · split <;> rfl
      · split
        · next hlapsed =>
          simp only [AssignmentRow.isLapsed, Bool.and_eq_true] at hlapsed
          rw [AssignmentRow.isRevoked_of_isActive hlapsed.2.1]
          rfl
        · rfl }

theorem addAssignment (h : s.Told ids tally) {row : AssignmentRow}
    (hid : row.id = ids.next .assignment) (hrow : row.isRevoked = false) :
    { s with assignments := s.assignments ++ [row] }.Told (ids.advance .assignment)
      (tally.add .roleAssigned row.naming) :=
  { h.mono (ids.precedes_advance .assignment) with assigned := h.assigned.add hid hrow }

theorem revoke (h : s.Told ids tally) {r row : AssignmentRow} (hmem : r ∈ s.assignments)
    (hr : r.isRevoked = false) (hrow : row.isRevoked = true) (hnaming : row.naming = r.naming) :
    { s with assignments := s.assignments.map fun q => if q = r then row else q }.Told ids
      (tally.add .roleRevoked r.naming) :=
  { h with assigned := h.assigned.revoke hmem hr hrow hnaming }

end Told

end Store

/-! ### Engines in step -/

namespace Engine

variable {e e₁ e' : Engine} {type : EventType} {naming : Naming}

/-- Does the log tell of the tables? -/
def IsReplayed (e : Engine) : Prop := e.store.Told e.ids (.ofLog e.store.audit)

/-- Does a log that told of the tables still do so? -/
structure Replays (e e' : Engine) : Prop where
  ids : e.ids.Precedes e'.ids
  replayed : e.IsReplayed → e'.IsReplayed

theorem Replays.refl (e : Engine) : e.Replays e := ⟨.refl _, id⟩

instance : IsPreorder Engine Replays where
  refl := .refl
  trans _ _ _ h h' := ⟨h.ids.trans h'.ids, h'.replayed ∘ h.replayed⟩

/-- Would a log that told of the tables do so with one entry more? -/
structure Owes (e : Engine) (type : EventType) (naming : Naming) (e' : Engine) : Prop where
  ids : e.ids.Precedes e'.ids
  told : e.IsReplayed → e'.store.Told e'.ids ((Tally.ofLog e'.store.audit).add type naming)

/-- With one more entry in the log. -/
def logged (e : Engine) (row : AuditRow) : Engine :=
  { e with store := { e.store with audit := e.store.audit ++ [row] } }

theorem Owes.replays_logged (h : e.Owes type naming e₁) {row : AuditRow}
    (htype : row.eventType = type.text) (hnaming : (row.tenant, row.resourceId) = naming) :
    e.Replays (e₁.logged row) where
  ids := h.ids
  replayed he := by
    have htold := h.told he
    rw [← hnaming, ← Tally.ofLog_append _ htype] at htold
    exact htold.of_namings rfl rfl rfl rfl

/-- What tells of no row can always be logged. -/
theorem Replays.owes (h : e.Replays e') (htype : type.isCounted = false) :
    e.Owes type naming e' := ⟨h.ids, fun he => (h.replayed he).uncounted htype naming⟩

/-- An identifier may be spent. -/
theorem replays_advance (e : Engine) (kind : IdKind) :
    e.Replays { e with ids := e.ids.advance kind } where
  ids := e.ids.precedes_advance kind
  replayed he := he.mono (e.ids.precedes_advance kind)

/-- Whatever was done to the store can be undone. -/
theorem Replays.restored (h : e.Replays e') : e.Replays { e' with store := e.store } where
  ids := h.ids
  replayed he := he.mono h.ids

/-- Only what the log tells of matters. -/
theorem replays_of_store {s : Store} (hpolicies : s.policies = e.store.policies)
    (hroles : s.roles = e.store.roles) (hpermissions : s.permissions = e.store.permissions)
    (hassignments : s.assignments = e.store.assignments) (haudit : s.audit = e.store.audit) :
    e.Replays { e with store := s } where
  ids := .refl _
  replayed he := by
    rw [IsReplayed, haudit]
    exact he.of_namings (by rw [hpolicies]) (by rw [hroles]) (by rw [hpermissions]) hassignments

end Engine

/-! ### Writing entries -/

/-- Do events reach the log, and is it kept? -/
structure Environment.Audits (env : Environment) : Prop where
  sink : env.sink = .audit
  isEnabled : env.settings.auditEnabled = true

/-- Does a call add one entry to the log, and nothing else? -/
def Call.Logs (x : Call Unit) (env : Environment) (type : EventType) (naming : Naming) : Prop :=
  ∀ e, ∃ row : AuditRow, row.eventType = type.text ∧ (row.tenant, row.resourceId) = naming ∧
    x.outcome env e = (.ok (), e.logged row)

variable {env : Environment} {e e₁ : Engine} {type : EventType} {naming : Naming}

theorem Engine.Owes.after_logs (h : e.Owes type naming e₁) {x : Call Unit}
    (hx : x.Logs env type naming) : e.Replays (x.after env e₁) := by
  obtain ⟨row, htype, hnaming, houtcome⟩ := hx e₁
  rw [after_eq_of_outcome houtcome]
  exact h.replays_logged htype hnaming

/-- An entry that lacks nothing is never refused. -/
theorem AuditLog.record_logs {d : AuditDraft} {who how : String} (hwho : d.actorType = some who)
    (hhow : d.outcome = some how) (htype : d.eventType = some type.text)
    (hnaming : (d.tenant, d.resourceId) = naming) (mode : Mode) (bestEffort : Bool) :
    (record mode bestEffort d).Logs env type naming := by
  intro e
  obtain ⟨row, hrow, hwhat, hentity⟩ : ∃ row : AuditRow,
      e.store.appendAudit? { d with metadata := metadataOf d.metadata } =
        some (e.logged row).store ∧
      row.eventType = type.text ∧ (row.tenant, row.resourceId) = naming := by
    simp only [Store.appendAudit?, hwho, hhow, htype]
    exact ⟨_, rfl, rfl, hnaming⟩
  have happended : (append { d with metadata := metadataOf d.metadata }).outcome env e =
      (.ok (), e.logged row) := by
    simp [append, hrow]
    rfl
  refine ⟨row, hwhat, hentity, ?_⟩
  rw [record]
  split
  · rw [outcome_attempt, after_eq_of_outcome happended]
  · exact happended

theorem Catalog.audit_logs (henabled : env.settings.auditEnabled = true) (tenant actor : Given)
    (type : EventType) (row : PermissionRow) (more : Json.Fields) :
    (audit tenant actor type row more).Logs env type (tenant, some row.id) := by
  intro e
  rw [audit, outcome_bind, outcome_read, andThen_ok, if_pos henabled, outcome_bind,
    outcome_now, andThen_ok]
  exact AuditLog.record_logs (by rfl) (by rfl) (by rfl) (by rfl) _ _ e

section

variable (haudits : env.Audits)

include haudits

theorem AuditLog.publish_logs (event : Event) :
    (publish event).Logs env event.type (event.tenant, event.entityId) := by
  intro e
  have hrecorded : (record .alone true (ofEvent event e.clock)).Logs env event.type
      (event.tenant, event.entityId) := record_logs rfl rfl rfl rfl .alone true
  obtain ⟨row, htype, hentity, houtcome⟩ := hrecorded e
  have hdelivered : (deliver event).outcome env e = (.ok (), e.logged row) := by
    simp [deliver, haudits.sink, haudits.isEnabled, houtcome]
  refine ⟨row, htype, hentity, ?_⟩
  rw [publish, outcome_attempt, after_eq_of_outcome hdelivered]

/-! ### Follow-ups -/

theorem Administration.markStale_replays (tenant : Given) (reason : String) (actor : Given)
    (stale : Stale) : Moves Engine.Replays env (markStale tenant reason actor stale) := by
  refine markStale_moves (fun owner selected why => ?_) (fun event htype e => ?_) tenant reason
    actor stale
  · refine .read_bind (.ite ((Moves.requireTenant owner).bind fun _ e => ?_) (.throw _))
    exact Engine.replays_of_store rfl rfl rfl rfl rfl
  · have howed : e.Owes event.type (event.tenant, event.entityId) e :=
      (Engine.Replays.refl e).owes (by rw [htype]; rfl)
    exact howed.after_logs (AuditLog.publish_logs haudits event)

/-- The announcement of a change is the entry that is owed for it. -/
theorem Administration.followUp_replays {event : Event}
    (h : e.Owes event.type (event.tenant, event.entityId) e₁) (stale : Stale) (reason : String)
    (actor : Given) : e.Replays ((followUp event stale reason actor).after env e₁) := by
  refine after_bind_of_after (P := e.Replays) (h.after_logs (AuditLog.publish_logs haudits event))
    fun _ e₂ hpaid => ?_
  have hmarks : Moves Engine.Replays env
      (if env.hasBundles then attempt (markStale event.tenant reason actor stale) else pure ()) :=
    .ite (.attempt (markStale_replays haudits _ _ _ _)) (.pure _)
  exact IsTrans.trans _ _ _ hpaid (hmarks e₂)

end

end Entitlements
