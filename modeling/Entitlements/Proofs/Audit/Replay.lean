import Entitlements.Proofs.Administration.BestEffort
import Entitlements.Proofs.Administration.Effects
import Entitlements.Proofs.Audit.Bookkeeping
import Mathlib.Logic.Relation

/-!
The log replays to the tables. Administration writes first and then announces what it did, the
catalogue records a change together with the change, and passes that expire assignments say nothing.
Each call is walked once here, to find that it leaves a log that tells of the tables as it found
one, however it ends. Over a run from nothing, what exists can then be counted off the log.
-/

namespace Entitlements

open Time Call

/-! ### Calls that leave an entry owing -/

/-- Does a call leave one entry to be written if it answers, and none if it fails? -/
structure Call.Incurs (x : Call α) (env : Environment) (e : Engine) (type : EventType)
    (naming : α → Naming) : Prop where
  failed : ∀ failure e₁, x.outcome env e = (.error failure, e₁) → e.Replays e₁
  answered : ∀ a e₁, x.outcome env e = (.ok a, e₁) → e.Owes type (naming a) e₁

namespace Call

variable {x : Call α} {env : Environment} {e : Engine} {type : EventType} {naming : α → Naming}

theorem incurs_of_ok (a : α) (e₁ : Engine) (h : x.outcome env e = (.ok a, e₁))
    (howes : e.Owes type (naming a) e₁) : x.Incurs env e type naming where
  failed failure e₂ h' := by
    rw [h] at h'
    cases h'
  answered b e₂ h' := by
    rw [h] at h'
    cases h'
    exact howes

theorem incurs_of_error (failure : Failure) (e₁ : Engine)
    (h : x.outcome env e = (.error failure, e₁)) (hreplays : e.Replays e₁) :
    x.Incurs env e type naming where
  failed failure' e₂ h' := by
    rw [h] at h'
    cases h'
    exact hreplays
  answered a e₂ h' := by
    rw [h] at h'
    cases h'

/-- A call that asks for a tenant first. -/
theorem incurs_of_requireTenant {tenant : Given} {f : Unit → Call α}
    (h : (f ()).Incurs env e type naming) :
    (requireTenant tenant >>= f).Incurs env e type naming := by
  rcases hg : env.settings.checkTenant tenant with failure | _
  · exact incurs_of_error failure e (by simp [hg]) (.refl e)
  · have hsame : (requireTenant tenant >>= f).outcome env e = (f ()).outcome env e := by
      simp [hg]
    exact ⟨hsame ▸ h.failed, hsame ▸ h.answered⟩

/-- What comes next has to pay. -/
theorem Incurs.bind (hx : x.Incurs env e type naming) {f : α → Call β}
    (hf : ∀ a e₁, x.outcome env e = (.ok a, e₁) → e.Owes type (naming a) e₁ →
      e.Replays ((f a).after env e₁)) : e.Replays ((x >>= f).after env e) := by
  rw [after, outcome_bind]
  rcases hr : x.outcome env e with ⟨failure | a, e₁⟩
  · exact hx.failed failure e₁ hr
  · exact hf a e₁ hr (hx.answered a e₁ hr)

end Call

/-! ### Writes -/

namespace Store

variable {s s' : Store} {tenant : Given} {actor : Given} {now : Instant} {id : String}

theorem naming_of_insertPolicy? {d : PolicyDraft} {policy : Policy}
    (h : s.insertPolicy? id tenant d actor now = some (s', policy)) :
    ∃ row : PolicyRow, row.naming = (tenant, d.key) ∧
      s' = { s with policies := s.policies ++ [row] } := by
  simp only [insertPolicy?, Option.bind_eq_bind, Option.bind_eq_some_iff] at h
  obtain ⟨t, rfl, key, hkey, _, -, h⟩ := h
  cases h
  exact ⟨_, by rw [hkey]; rfl, rfl⟩

theorem naming_of_insertRole? {d : RoleDraft} {role : Role}
    (h : s.insertRole? id tenant d actor now = some (s', role)) :
    ∃ row : RoleRow, row.naming = (tenant, d.key) ∧
      s' = { s with roles := s.roles ++ [row] } := by
  simp only [insertRole?, Option.bind_eq_bind, Option.bind_eq_some_iff] at h
  obtain ⟨t, rfl, key, hkey, _, -, h⟩ := h
  cases h
  exact ⟨_, by rw [hkey]; rfl, rfl⟩

end Store

namespace AccessStore

variable (env : Environment) (e : Engine) (tenant actor : Given)

/-- Saving under a key that is there changes a policy, and creates one otherwise. -/
theorem savePolicy_incurs (d : PolicyDraft) :
    (savePolicy tenant d actor).Incurs env e
      (if (e.store.policyRow? tenant d.key).isSome then .policyUpdated else .policyCreated)
      fun _ => (tenant, d.key) := by
  refine incurs_of_requireTenant ?_
  rcases hrow : e.store.policyRow? tenant d.key with _ | row
  · rcases hins : e.store.insertPolicy? (e.ids.next .policy) tenant d actor e.clock with _ | ⟨s, p⟩
    · exact incurs_of_error .constraint { e with ids := e.ids.advance .policy }
        (by simp [hrow, hins]) (e.replays_advance .policy)
    · refine incurs_of_ok p { e with store := s, ids := e.ids.advance .policy }
        (by simp [hrow, hins]) ⟨e.ids.precedes_advance .policy, fun he => ?_⟩
      obtain ⟨row, hnaming, rfl⟩ := Store.naming_of_insertPolicy? hins
      exact (he.addPolicy hnaming hrow).mono (e.ids.precedes_advance .policy)
  · rcases hupd : e.store.updatePolicy? row d actor e.clock with _ | ⟨s, p⟩
    · exact incurs_of_error .constraint e (by simp [hrow, hupd]) (.refl e)
    · refine incurs_of_ok p { e with store := s } (by simp [hrow, hupd])
        (Engine.Replays.owes ⟨.refl _, fun he => ?_⟩ rfl)
      obtain ⟨row', htenant, hkey, -, -, rfl⟩ := Store.updatePolicy?_eq_some hupd
      have hnaming : row'.naming = row.naming := by
        rw [PolicyRow.naming, htenant, hkey, PolicyRow.naming]
      exact he.of_namings (Table.map_replace hnaming _) rfl rfl rfl

theorem removePolicy_incurs {key : Given} (hrow : (e.store.policyRow? tenant key).isSome = true) :
    (removePolicy tenant key).Incurs env e .policyDeleted fun _ => (tenant, key) := by
  refine incurs_of_requireTenant ?_
  exact incurs_of_ok _ { e with store := e.store.removePolicy tenant key } rfl
    ⟨.refl _, fun he => he.removePolicy hrow⟩

/-- Saving under a key that is there changes a role, and creates one otherwise. -/
theorem saveRole_incurs (d : RoleDraft) :
    (saveRole tenant d actor).Incurs env e
      (if (e.store.roleRow? tenant d.key).isSome then .roleUpdated else .roleCreated)
      fun _ => (tenant, d.key) := by
  refine incurs_of_requireTenant ?_
  rcases hrow : e.store.roleRow? tenant d.key with _ | row
  · rcases hins : e.store.insertRole? (e.ids.next .role) tenant d actor e.clock with _ | ⟨s, r⟩
    · exact incurs_of_error .constraint { e with ids := e.ids.advance .role }
        (by simp [hrow, hins]) (e.replays_advance .role)
    · refine incurs_of_ok r { e with store := s, ids := e.ids.advance .role }
        (by simp [hrow, hins]) ⟨e.ids.precedes_advance .role, fun he => ?_⟩
      obtain ⟨row, hnaming, rfl⟩ := Store.naming_of_insertRole? hins
      exact (he.addRole hnaming hrow).mono (e.ids.precedes_advance .role)
  · rcases hupd : e.store.updateRole? row d actor e.clock with _ | ⟨s, r⟩
    · exact incurs_of_error .constraint e (by simp [hrow, hupd]) (.refl e)
    · refine incurs_of_ok r { e with store := s } (by simp [hrow, hupd])
        (Engine.Replays.owes ⟨.refl _, fun he => ?_⟩ rfl)
      obtain ⟨row', htenant, hkey, -, rfl⟩ := Store.updateRole?_eq_some hupd
      have hnaming : row'.naming = row.naming := by
        rw [RoleRow.naming, htenant, hkey, RoleRow.naming]
      exact he.of_namings rfl (Table.map_replace hnaming _) rfl rfl

theorem removeRole_incurs {key : Given} (hrow : (e.store.roleRow? tenant key).isSome = true) :
    (removeRole tenant key).Incurs env e .roleDeleted fun _ => (tenant, key) := by
  refine incurs_of_requireTenant ?_
  exact incurs_of_ok _ { e with store := e.store.removeRole tenant key } rfl
    ⟨.refl _, fun he => he.removeRole hrow⟩

/-- A grant whose limit is an instant has an answer once it is written. -/
theorem createAssignment_incurs {d : AssignmentDraft}
    (hlimit : ∀ stamp, d.expiresAt = some stamp → ∃ limit, stamp.instant = .ok limit)
    (now : Instant) :
    (createAssignment tenant d (some now)).Incurs env e .roleAssigned
      fun a => (tenant, some a.id) := by
  refine incurs_of_requireTenant ?_
  rcases hins : e.store.insertAssignment? (e.ids.next .assignment) tenant d now with _ | ⟨s, row⟩
  · exact incurs_of_error (.assignmentExists d.user d.role d.scope)
      { e with ids := e.ids.advance .assignment } (by simp [hins])
      (e.replays_advance .assignment)
  · obtain ⟨answer, hanswer⟩ :=
      outcome_limit env ⟨s, e.ids.advance .assignment, e.clock, e.outbox⟩ hlimit
    refine incurs_of_ok { row.withStatus .active with expiresAt := answer }
      { e with store := s, ids := e.ids.advance .assignment } (by simp [hins, hanswer])
      ⟨e.ids.precedes_advance .assignment, fun he => ?_⟩
    obtain ⟨⟨rfl, hid, -, -, -, hactive⟩, retired, rfl, -, rfl⟩ :=
      Store.insertAssignment?_eq_some hins
    exact (he.expireWhere _ now).addAssignment hid (AssignmentRow.isRevoked_of_isActive hactive)

theorem revokeStatus_incurs {id : Given} {row : AssignmentRow}
    (hrow : e.store.assignmentRow? tenant id = some row) (hactive : row.isActive = true) :
    (setStatus tenant id (some AssignmentStatus.revoked.text) actor).Incurs env e .roleRevoked
      fun _ => (tenant, id) := by
  refine incurs_of_requireTenant ?_
  rcases hset : e.store.setStatus? row (some AssignmentStatus.revoked.text) actor e.clock with
    _ | ⟨s, row'⟩
  · exact incurs_of_error .constraint e (by simp [hrow, hset]) (.refl e)
  · obtain ⟨hrow', hrecord, hs⟩ := Store.setStatus?_revoked hset
    refine incurs_of_ok (some (row'.withStatus .revoked)) { e with store := s }
      (by simp [hrow, hset, hrecord]) ⟨.refl _, fun he => ?_⟩
    obtain ⟨hmem, rfl, rfl⟩ := Store.of_assignmentRow? hrow
    have hnaming : row'.naming = row.naming := by rw [hrow']; rfl
    have hrevoked : row'.isRevoked = true := by rw [hrow']; rfl
    rw [hs]
    exact he.revoke hmem (AssignmentRow.isRevoked_of_isActive hactive) hrevoked hnaming

end AccessStore

/-! ### Administration -/

section

variable {env : Environment} (haudits : env.Audits)

include haudits

/-- A write and its announcement. -/
theorem Call.Incurs.followedUp {e : Engine} {x : Call α} {type : EventType} (event : α → Event)
    (hx : x.Incurs env e type fun a => ((event a).tenant, (event a).entityId))
    (htype : ∀ a, (event a).type = type) (stale : Stale) (reason : String) (actor : Given)
    (answer : α → β) :
    e.Replays ((do
      let a ← x
      Administration.followUp (event a) stale reason actor
      return answer a).after env e) := by
  refine hx.bind fun a e₁ _ howes => ?_
  rw [← htype a] at howes
  rw [after_bind_pure]
  exact Administration.followUp_replays haudits howes stale reason actor

namespace Administration

variable (tenant key actor : Given)

theorem createPolicy_replays (p : NewPolicy) :
    Moves Engine.Replays env (createPolicy tenant p actor) := by
  intro e
  refine after_bind_of_outcome (AccessStore.outcome_policy? tenant p.key env e) (.refl e)
    fun found hfound => ?_
  obtain ⟨-, rfl⟩ := eq_ok_of_map hfound
  refine after_of_guard (.refl e) fun hnew => ?_
  refine after_bind_of_outcome (outcome_ofExcept env e _) (.refl e) fun draft hdraft => ?_
  have hsaved := AccessStore.savePolicy_incurs env e tenant actor draft
  rw [key_of_newPolicyDraft hdraft] at hsaved
  rw [Store.policy?, Option.isSome_map] at hnew
  rw [if_neg hnew] at hsaved
  exact hsaved.followedUp haudits _ (fun _ => rfl) _ _ _ id

theorem updatePolicy_replays (c : PolicyChange) :
    Moves Engine.Replays env (updatePolicy tenant key c actor) := by
  intro e
  refine after_bind_of_outcome (outcome_policy tenant key env e) (.refl e)
    fun current hcurrent => ?_
  obtain ⟨-, hfound⟩ := of_lookedUp hcurrent
  refine after_of_guard (.refl e) fun _ => ?_
  refine after_bind_of_outcome (outcome_ofExcept env e _) (.refl e) fun draft hdraft => ?_
  have hkey : draft.key = key := by rw [key_of_changedPolicyDraft hdraft, key_of_policy? hfound]
  have hsaved := AccessStore.savePolicy_incurs env e tenant actor draft
  rw [hkey, if_pos (Store.isSome_policyRow? hfound)] at hsaved
  exact hsaved.followedUp haudits _ (fun _ => rfl) _ _ _ id

theorem deletePolicy_replays : Moves Engine.Replays env (deletePolicy tenant key actor) := by
  intro e
  refine after_bind_of_outcome (outcome_policy tenant key env e) (.refl e)
    fun current hcurrent => ?_
  obtain ⟨-, hfound⟩ := of_lookedUp hcurrent
  refine after_of_guard (.refl e) fun _ => ?_
  refine after_bind_of_outcome (AccessStore.outcome_rolesUsing tenant key env e) (.refl e)
    fun roles _ => ?_
  refine after_of_guard (.refl e) fun _ => ?_
  refine (AccessStore.removePolicy_incurs env e tenant (Store.isSome_policyRow? hfound)).bind
    fun _ e₁ _ howes => ?_
  exact followUp_replays haudits howes _ _ _

theorem createRole_replays (r : NewRole) :
    Moves Engine.Replays env (createRole tenant r actor) := by
  intro e
  refine after_bind_of_outcome (AccessStore.outcome_role? tenant r.key env e) (.refl e)
    fun found hfound => ?_
  obtain ⟨-, rfl⟩ := eq_ok_of_map hfound
  refine after_of_guard (.refl e) fun hnew => ?_
  refine after_bind_of_outcome (outcome_requirePolicies tenant env e _) (.refl e)
    fun policyKeys _ => ?_
  refine after_bind_of_outcome (outcome_ofExcept env e _) (.refl e) fun risk _ => ?_
  refine after_bind_of_outcome (outcome_ofExcept env e _) (.refl e) fun tags _ => ?_
  rw [Store.role?, Option.isSome_map] at hnew
  have hsaved := AccessStore.saveRole_incurs env e tenant actor
    { key := r.key, policyKeys, risk, displayName := r.displayName
      description := r.description.getD "", tags, isSystem := r.isSystem }
  rw [if_neg hnew] at hsaved
  exact hsaved.followedUp haudits _ (fun _ => rfl) _ _ _ id

theorem updateRole_replays (c : RoleChange) :
    Moves Engine.Replays env (updateRole tenant key c actor) := by
  intro e
  refine after_bind_of_outcome (outcome_role tenant key env e) (.refl e) fun current hcurrent => ?_
  obtain ⟨-, hfound⟩ := of_lookedUp hcurrent
  refine after_of_guard (.refl e) fun _ => ?_
  have hsave (policyKeys : List String) : e.Replays
      ((do
        let risk ← ofExcept (replacing c.risk current.risk (RiskLevel.parse · .low))
        let tags ← ofExcept (replacing c.tags current.tags tags)
        let saved ← AccessStore.saveRole tenant
          { key := some current.key, policyKeys, risk
            displayName := some (c.displayName.getD current.displayName)
            description := c.description.getD current.description, tags
            isSystem := current.isSystem } actor
        followUp
          (roleEvent .roleUpdated tenant key "UPDATE" actor [("fields", .ofTexts c.fields)])
          .tenant ("Role " ++ key.mention ++ " updated") actor
        return saved).after env e) := by
    refine after_bind_of_outcome (outcome_ofExcept env e _) (.refl e) fun risk _ => ?_
    refine after_bind_of_outcome (outcome_ofExcept env e _) (.refl e) fun tags _ => ?_
    have hsaved := AccessStore.saveRole_incurs env e tenant actor
      { key := some current.key, policyKeys, risk
        displayName := some (c.displayName.getD current.displayName)
        description := c.description.getD current.description, tags
        isSystem := current.isSystem }
    rw [key_of_role? hfound, if_pos (Store.isSome_roleRow? hfound)] at hsaved
    rw [key_of_role? hfound]
    exact hsaved.followedUp haudits _ (fun _ => rfl) _ _ _ id
  dsimp only
  split
  · exact after_bind_of_outcome (outcome_pure env e _) (.refl e)
      fun policyKeys _ => hsave policyKeys
  · exact after_bind_of_outcome (outcome_requirePolicies tenant env e _) (.refl e)
      fun policyKeys _ => hsave policyKeys

theorem deleteRole_replays : Moves Engine.Replays env (deleteRole tenant key actor) := by
  intro e
  refine after_bind_of_outcome (outcome_role tenant key env e) (.refl e) fun current hcurrent => ?_
  obtain ⟨-, hfound⟩ := of_lookedUp hcurrent
  refine after_of_guard (.refl e) fun _ => ?_
  refine after_bind_of_outcome (AccessStore.outcome_countLive tenant key env e) (.refl e)
    fun active _ => ?_
  refine after_of_guard (.refl e) fun _ => ?_
  refine (AccessStore.removeRole_incurs env e tenant (Store.isSome_roleRow? hfound)).bind
    fun _ e₁ _ howes => ?_
  exact followUp_replays haudits howes _ _ _

theorem assignRole_replays (d : AssignmentDraft) :
    Moves Engine.Replays env (assignRole tenant d) := by
  intro e
  refine after_bind_of_outcome (outcome_ofExcept env e _) (.refl e) fun scope _ => ?_
  rw [after_bind_of_ok (outcome_now env e)]
  refine after_bind_of_outcome (outcome_ofExcept env e _) (.refl e) fun _ hahead => ?_
  refine after_bind_of_outcome (outcome_role tenant d.role env e) (.refl e) fun found _ => ?_
  have hcreate := (AccessStore.createAssignment_incurs env e tenant
    (instant_of_checkExpiry hahead) e.clock).followedUp haudits
    (fun assignment : Assignment => assignmentEvent .roleAssigned tenant (some assignment.id)
      "CREATE" d.grantedBy d.user d.role d.scope d.reason)
    (fun _ => rfl) (.user d.user) ("Role " ++ d.role.mention ++ " assigned") d.grantedBy id
  rw [after_bind_of_ok (outcome_read env e)]
  dsimp only
  split
  · refine after_bind_of_outcome
      (AccessStore.outcome_liveAssignment? tenant env e d.user d.role d.scope) (.refl e)
      fun live _ => ?_
    exact after_of_guard (.refl e) fun _ => hcreate
  · exact hcreate

/-- An assignment that is no longer active is the answer, and one that has gone meanwhile is a
failure; neither leaves a trace. -/
theorem revoke_replays (id reason : Given) :
    Moves Engine.Replays env (revoke tenant id actor reason) := by
  intro e
  refine after_bind_of_outcome (AccessStore.outcome_assignment? tenant id env e) (.refl e)
    fun found hfound => ?_
  refine after_bind_of_outcome (outcome_orFail env e _ _) (.refl e) fun current hcurrent => ?_
  obtain rfl := eq_some_of_elim hcurrent
  dsimp only
  split
  · exact .refl e
  next hactive =>
  rw [after_bind_of_ok (outcome_read env e)]
  obtain ⟨-, row, hrow, -⟩ := of_assignment_answer hfound
  have hlive := isActive_of_assignment_answer env e tenant hfound (Decidable.not_not.1 hactive)
    row hrow
  split
  · exact .refl e
  · refine (AccessStore.revokeStatus_incurs env e tenant actor hrow hlive).bind
      fun revoked? e₁ hset howes => ?_
    obtain ⟨revoked, rfl⟩ := Option.isSome_iff_exists.1
      (AccessStore.setStatus_answers env e tenant actor hrow hset)
    rw [after_bind_of_ok (outcome_orFail env e₁ _ _), after_bind_pure]
    exact followUp_replays haudits howes _ _ _

end Administration

theorem AdministrationCall.replays (op : AdministrationCall α) :
    Moves Engine.Replays env op.call := by
  cases op with
  | policy tenant key => exact .of_look (Administration.outcome_policy tenant key env)
  | createPolicy tenant p actor => exact Administration.createPolicy_replays haudits tenant actor p
  | updatePolicy tenant key c actor =>
    exact Administration.updatePolicy_replays haudits tenant key actor c
  | deletePolicy tenant key actor =>
    exact Administration.deletePolicy_replays haudits tenant key actor
  | role tenant key => exact .of_look (Administration.outcome_role tenant key env)
  | createRole tenant r actor => exact Administration.createRole_replays haudits tenant actor r
  | updateRole tenant key c actor =>
    exact Administration.updateRole_replays haudits tenant key actor c
  | deleteRole tenant key actor => exact Administration.deleteRole_replays haudits tenant key actor
  | assignRole tenant d => exact Administration.assignRole_replays haudits tenant d
  | revoke tenant id actor reason =>
    exact Administration.revoke_replays haudits tenant actor id reason
  | assignments tenant user liveOnly =>
    refine Moves.bind ((Moves.requireTenant tenant).bind fun _ => Moves.store.bind fun _ =>
      Moves.now.bind fun _ => .list_mapM (fun _ => .ofExcept _) _) fun _ => ?_
    exact Moves.now.bind fun _ => .pure _

/-! ### The catalogue -/

namespace Catalog

variable (tenant actor : Given)

theorem insert_replays (p : NewPermission) :
    Moves Engine.Replays env (insert tenant p actor) := by
  intro e
  refine after_bind_of_outcome (outcome_ofExcept env e _) (.refl e) fun _ _ => ?_
  refine after_bind_of_outcome (outcome_ofExcept env e _) (.refl e) fun risk _ => ?_
  rw [after_bind_of_ok (outcome_read env e), after_bind_of_ok (outcome_store env e)]
  refine after_of_guard (.refl e) fun _ => ?_
  rw [after_bind_of_ok (outcome_freshId env e .permission), after_bind_of_ok (outcome_store env _),
    after_bind_of_ok (outcome_now env _)]
  refine after_bind_of_outcome (outcome_orFail env _ _ _) (e.replays_advance .permission)
    fun saved hsaved => ?_
  rw [after_bind_of_ok (outcome_write env _ _)]
  have howes : e.Owes .domainPermissionCreated (tenant, some saved.2.id)
      { e with store := saved.1, ids := e.ids.advance .permission } := by
    obtain ⟨hid, rfl, hs⟩ := Store.insertPermission?_eq_some (eq_some_of_elim hsaved)
    refine ⟨e.ids.precedes_advance .permission, fun he => ?_⟩
    rw [hs]
    exact he.addPermission hid
  rw [after_bind_pure]
  exact howes.after_logs (audit_logs haudits.isEnabled tenant actor _ _ _)

/-- A change leaves the row its name, so its entry is not counted. -/
theorem update_replays (id : Given) (c : PermissionChange) :
    Moves Engine.Replays env (update tenant id c actor) := by
  refine Moves.transaction (fun _ _ h => h.restored) ((owned_moves tenant id).bind fun row => ?_)
  refine .after_choice (.pure _) (.ofExcept _) fun risk => Moves.now.bind fun now e => ?_
  have hnaming : (c.apply risk now row).naming = row.naming := rfl
  have hchanged : e.Replays
      { e with store := e.store.replacePermission row (c.apply risk now row) } :=
    ⟨.refl _, fun he => he.of_namings rfl rfl (Table.map_replace hnaming _) rfl⟩
  rw [after_bind_of_ok (outcome_store env e), after_bind_of_ok (outcome_write env e _)]
  rw [after_bind_pure]
  exact (hchanged.owes rfl).after_logs (audit_logs haudits.isEnabled tenant actor _ _ _)

/-- Here the entry comes first, and the row goes after it. -/
theorem delete_replays (id : Given) : Moves Engine.Replays env (delete tenant id actor) := by
  refine Moves.transaction (fun _ _ h => h.restored) fun e => ?_
  obtain ⟨answer, hanswer, howned⟩ := outcome_owned env e tenant id
  refine after_bind_of_outcome hanswer (.refl e) fun row hrow => ?_
  obtain ⟨hmem, rfl⟩ := howned row hrow
  obtain ⟨entry, htype, hnaming, hlogged⟩ :=
    audit_logs haudits.isEnabled row.tenant actor .domainPermissionDeleted row [] e
  rw [after_bind_of_ok hlogged, after_bind_of_ok (outcome_store env _)]
  have howes : e.Owes .domainPermissionDeleted row.naming
      { e with store := e.store.removePermission row.id } :=
    ⟨.refl _, fun he => he.removePermission hmem⟩
  exact howes.replays_logged htype hnaming

end Catalog

theorem CatalogCall.replays (op : CatalogCall α) : Moves Engine.Replays env op.call :=
  op.moves (fun _ _ h => h.restored)
    (fun p actor => Catalog.insert_replays haudits op.owner actor p)
    (fun id c actor => Catalog.update_replays haudits op.owner actor id c)
    (fun id actor => Catalog.delete_replays haudits op.owner actor id)

end

/-! ### Clean-up -/

namespace Maintenance

variable {env : Environment}

theorem expireAssignments_replays (tenant : Given) (present : Option Stamp) :
    Moves Engine.Replays env (expireAssignments tenant present) := by
  refine (timeOf_moves present).bind fun time => (Moves.requireTenant tenant).bind fun _ e => ?_
  exact ⟨.refl _, fun he => he.expireWhere _ time⟩

theorem run_replays (task tenant : Given) (days : Option Int) :
    Moves Engine.Replays env (run task tenant days) :=
  run_moves (fun _ _ => Engine.replays_of_store rfl rfl rfl rfl rfl) expireAssignments_replays task
    tenant days

end Maintenance

/-! ### Runs -/

/-- One call on a deployment whose log is kept, or a step of its clock. -/
inductive AuditedStep (e : Engine) : Engine → Prop
  | administration {env : Environment} (haudits : env.Audits) (op : AdministrationCall α) :
    AuditedStep e (op.call.after env e)
  | catalogue {env : Environment} (haudits : env.Audits) (op : CatalogCall α) :
    AuditedStep e (op.call.after env e)
  | expire {env : Environment} (haudits : env.Audits) (tenant : Given) (present : Option Stamp) :
    AuditedStep e ((Maintenance.expireAssignments tenant present).after env e)
  | task {env : Environment} (haudits : env.Audits) (task tenant : Given) (days : Option Int) :
    AuditedStep e ((Maintenance.run task tenant days).after env e)
  | moveClock (env : Environment) (setTo : Option Instant) (micros : Int) :
    AuditedStep e ((moveClock setTo micros).after env e)

abbrev AuditedRun : Engine → Engine → Prop := Relation.ReflTransGen AuditedStep

theorem AuditedStep.replays {e e' : Engine} (h : AuditedStep e e') : e.Replays e' := by
  cases h with
  | administration haudits op => exact op.replays haudits e
  | catalogue haudits op => exact op.replays haudits e
  | expire _ tenant present => exact Maintenance.expireAssignments_replays tenant present e
  | task _ task tenant days => exact Maintenance.run_replays task tenant days e
  | moveClock env setTo micros =>
    rw [after, outcome_moveClock]
    split
    · exact ⟨.refl _, id⟩
    · exact .refl e

theorem AuditedRun.replays {e e' : Engine} (h : AuditedRun e e') : e.Replays e' := by
  induction h with
  | refl => exact .refl e
  | tail _ hstep ih => exact IsTrans.trans _ _ _ ih hstep.replays

theorem Engine.isReplayed_empty (clock : Instant) (scheme : IdScheme) :
    (empty clock scheme).IsReplayed :=
  have hnone {kind : IdKind} : NamedOnce (empty clock scheme).ids kind [] :=
    ⟨List.nodup_nil, List.forall_mem_nil _⟩
  { policies := ⟨.refl _, List.nodup_nil⟩
    roles := ⟨.refl _, List.nodup_nil⟩
    permissions := ⟨.refl _, List.nodup_nil⟩
    registered := hnone
    assigned := ⟨rfl, hnone, .refl _⟩ }

/-! ### Reading the log -/

namespace AuditTable

/-- The tenants that the entries of a type about an entity name, in the order of the log. -/
def tenantsOf (log : List AuditRow) (type : EventType) (entity : Given) : List Given :=
  (log.filter fun r => r.eventType == type.text && r.resourceId == entity).map (·.tenant)

/-- Does a log have one entry more about coming than about going just when something is there, and
as many of both otherwise? -/
structure Tells (log : List AuditRow) (created deleted : EventType) (tenant entity : Given)
    (isThere : Prop) : Prop where
  there : isThere ↔ (tenantsOf log created entity).count tenant =
    (tenantsOf log deleted entity).count tenant + 1
  gone : ¬isThere → (tenantsOf log created entity).count tenant =
    (tenantsOf log deleted entity).count tenant

variable {log : List AuditRow} {type created deleted : EventType} {tenant entity : Given}

theorem tenantsOf_eq (log : List AuditRow) (type : EventType) (entity : Given) :
    tenantsOf log type entity = ((Tally.ofLog log type).filter (·.2 == entity)).map Prod.fst := by
  rw [Tally.ofLog, List.filter_map, List.map_map, List.filter_filter]
  exact congrArg (List.map _) (List.filter_congr fun r _ => Bool.and_comm _ _)

theorem count_tenantsOf :
    (tenantsOf log type entity).count tenant = (Tally.ofLog log type).count (tenant, entity) := by
  rw [tenantsOf_eq, List.count_eq_countP, List.countP_map, List.countP_filter,
    List.count_eq_countP]
  rfl

theorem tells_of_balanced {rows : List Naming} {isThere : Prop}
    (h : Balanced (Tally.ofLog log created) (Tally.ofLog log deleted) rows)
    (hthere : (tenant, entity) ∈ rows ↔ isThere) :
    Tells log created deleted tenant entity isThere := by
  have hcount := h.count_eq (tenant, entity)
  rw [← count_tenantsOf, ← count_tenantsOf] at hcount
  by_cases hmem : (tenant, entity) ∈ rows
  · rw [if_pos hmem] at hcount
    exact ⟨iff_of_true (hthere.1 hmem) hcount, fun hgone => (hgone (hthere.1 hmem)).elim⟩
  · rw [if_neg hmem] at hcount
    exact ⟨iff_of_false (hmem ∘ hthere.2) (by omega), fun _ => hcount⟩

end AuditTable

open AuditTable

/-- The log replays to the tables. Where every event is logged, and whatever has been asked of
administration and of the catalogue since there was nothing, with or without success: a policy, a
role or a registered permission is there just when the log tells of one creation more than of
deletions, and otherwise it tells of as many; no permission is created or deleted twice; and each
assignment was granted in one entry and, just when it is revoked, revoked in another. -/
theorem log_replays_to_tables {clock : Instant} {scheme : IdScheme} {e : Engine}
    (h : AuditedRun (Engine.empty clock scheme) e) :
    (∀ tenant key, Tells e.store.audit .policyCreated .policyDeleted tenant key
      ((e.store.policyRow? tenant key).isSome = true)) ∧
    (∀ tenant key, Tells e.store.audit .roleCreated .roleDeleted tenant key
      ((e.store.roleRow? tenant key).isSome = true)) ∧
    (∀ owner id, Tells e.store.audit .domainPermissionCreated .domainPermissionDeleted owner id
      (∃ r ∈ e.store.permissions, r.tenant = owner ∧ some r.id = id)) ∧
    (∀ id, (tenantsOf e.store.audit .domainPermissionCreated id).length ≤ 1 ∧
      (tenantsOf e.store.audit .domainPermissionDeleted id).length ≤ 1) ∧
    ∀ r ∈ e.store.assignments,
      tenantsOf e.store.audit .roleAssigned (some r.id) = [some r.tenant] ∧
      tenantsOf e.store.audit .roleRevoked (some r.id) =
        if r.status = AssignmentStatus.revoked.text then [some r.tenant] else [] := by
  have htold := h.replays.replayed (Engine.isReplayed_empty clock scheme)
  refine ⟨fun tenant key => ?_, fun tenant key => ?_, fun owner id => ?_, fun id => ?_,
    fun r hr => ?_⟩
  · exact tells_of_balanced htold.policies Store.mem_policies_naming
  · exact tells_of_balanced htold.roles Store.mem_roles_naming
  · refine tells_of_balanced htold.permissions ?_
    simp [PermissionRow.naming]
  · rw [tenantsOf_eq, tenantsOf_eq, List.length_map, List.length_map]
    exact ⟨htold.registered.length_le_one id,
      (htold.registered.of_perm htold.permissions.perm).length_le_one id⟩
  · obtain ⟨hassigned, hrevoked⟩ := htold.assigned.of_mem hr
    rw [tenantsOf_eq, tenantsOf_eq, hassigned, hrevoked]
    refine ⟨rfl, ?_⟩
    by_cases hstatus : r.status = AssignmentStatus.revoked.text
    · rw [if_pos hstatus, if_pos (by rw [AssignmentRow.isRevoked, hstatus]; rfl)]
      rfl
    · rw [if_neg hstatus, if_neg (by simpa [AssignmentRow.isRevoked] using hstatus)]
      rfl

/-- A role is created, granted and revoked, and a permission is registered and deleted again. -/
theorem revocation_and_deletion_are_told :
    let env := { Environment.plain with sink := .audit }
    let admin := some "admin"
    let operator : NewRole :=
      { key := some "operator", displayName := some "Operator", policyKeys := .arr [], risk := .null
        description := none, tags := .arr [], isSystem := false }
    let grant : AssignmentDraft :=
      { user := some "alice", role := some "operator", scope := some "tenant:*", grantedBy := admin
        expiresAt := none, reason := none }
    let fan : NewPermission := ⟨⟨"hvac", "fan", "roof", "start"⟩, none, none, .null⟩
    let created :=
      (AdministrationCall.createRole (some "acme") operator admin).call.after env (.start ⟨0⟩ false)
    let granted := (AdministrationCall.assignRole (some "acme") grant).call.after env created
    let revoked := (AdministrationCall.revoke (some "acme") (some "ra-0001") admin none).call.after
      env granted
    let registered := (CatalogCall.create none fan admin).call.after env revoked
    let e := (CatalogCall.delete none (some "dp-0001") admin).call.after env registered
    (e.store.audit.filter (·.eventType != "BUNDLE_INVALIDATED")).map (·.eventType) =
        ["ROLE_CREATED", "ROLE_ASSIGNED", "ROLE_REVOKED", "DOMAIN_PERMISSION_CREATED",
          "DOMAIN_PERMISSION_DELETED"] ∧
      (e.store.roles.map (·.role.key), e.store.permissions) = (["operator"], []) ∧
      Tells e.store.audit .roleCreated .roleDeleted (some "acme") (some "operator") True ∧
      Tells e.store.audit .domainPermissionCreated .domainPermissionDeleted none (some "dp-0001")
        False ∧
      ∀ r ∈ e.store.assignments,
        tenantsOf e.store.audit .roleRevoked (some r.id) = [some "acme"] := by
  intro env admin operator grant fan created granted revoked registered e
  have haudits : env.Audits := ⟨rfl, rfl⟩
  have hrun : AuditedRun (.start ⟨0⟩ false) e :=
    ((((Relation.ReflTransGen.single (.administration haudits _)).tail
      (.administration haudits _)).tail (.administration haudits _)).tail
      (.catalogue haudits _)).tail (.catalogue haudits _)
  obtain ⟨-, hroles, hpermissions, -, hassignments⟩ := log_replays_to_tables hrun
  have hrole : (e.store.roleRow? (some "acme") (some "operator")).isSome = true := by
    decide +kernel
  have hpermission : e.store.permissions = [] := by decide +kernel
  refine ⟨by decide +kernel, by decide +kernel, ?_, ?_, fun r hr => ?_⟩
  · simpa only [hrole] using hroles (some "acme") (some "operator")
  · simpa only [hpermission, List.not_mem_nil, false_and, exists_false] using
      hpermissions none (some "dp-0001")
  · have hrevoked : ∀ q ∈ e.store.assignments,
        q.status = AssignmentStatus.revoked.text ∧ q.tenant = "acme" := by decide +kernel
    obtain ⟨hstatus, htenant⟩ := hrevoked r hr
    rw [(hassignments r hr).2, if_pos hstatus, htenant]

end Entitlements
