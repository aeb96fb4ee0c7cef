import Entitlements.Proofs.Engine.Reading
import Entitlements.Proofs.Store.Assignments

/-!
Calls that write to the tables of policies, roles and assignments. Each of them writes once, as the
last thing that can go wrong, so a call that fails has written nothing. `Alters` states that
together with whom the write concerns. Who that is comes from the tables: saving under a new key
concerns nobody, saving under a key that is there concerns its tenant.
-/

namespace Entitlements

open Time

namespace Call

/-- Does a call change what stale users are granted and nothing else, and nothing at all if it
fails? -/
structure Alters (x : Call α) (env : Environment) (e : Engine) (stale : String → String → Prop) :
    Prop where
  clock : (x.after env e).clock = e.clock
  changes : e.store.Changes (x.after env e).store e.clock stale
  failed : ∀ failure, (x.outcome env e).1 = .error failure → (x.after env e).store = e.store

variable {x : Call α} {env : Environment} {e : Engine} {stale wider : String → String → Prop}

theorem alters_of_ok (a : α) (e' : Engine) (h : x.outcome env e = (.ok a, e'))
    (hclock : e'.clock = e.clock) (hchanges : e.store.Changes e'.store e.clock stale) :
    x.Alters env e stale where
  clock := by rw [after_eq_of_outcome h, hclock]
  changes := by rw [after_eq_of_outcome h]; exact hchanges
  failed failure hf := by
    rw [h] at hf
    cases hf

theorem alters_of_error (failure : Failure) (e' : Engine)
    (h : x.outcome env e = (.error failure, e')) (hclock : e'.clock = e.clock)
    (hstore : e'.store = e.store) : x.Alters env e stale where
  clock := by rw [after_eq_of_outcome h, hclock]
  changes := by
    rw [after_eq_of_outcome h, hstore]
    exact (Store.Changes.refl e.store e.clock).mono fun _ _ => False.elim
  failed _ _ := by rw [after_eq_of_outcome h, hstore]

/-- A call that asks for a tenant first. -/
theorem alters_of_requireTenant {tenant : Given} {f : Unit → Call α}
    (h : (f ()).Alters env e stale) : (requireTenant tenant >>= f).Alters env e stale := by
  rcases hg : env.settings.checkTenant tenant with failure | _
  · refine alters_of_error failure e ?_ rfl rfl
    simp [hg]
  · have hsame : (requireTenant tenant >>= f).outcome env e = (f ()).outcome env e := by
      simp [hg]
    have hafter : (requireTenant tenant >>= f).after env e = (f ()).after env e :=
      congrArg Prod.snd hsame
    exact
      { clock := by rw [hafter, h.clock]
        changes := by rw [hafter]; exact h.changes
        failed := by rw [hafter, hsame]; exact h.failed }

theorem Alters.mono (h : x.Alters env e stale) (hw : ∀ t u, stale t u → wider t u) :
    x.Alters env e wider :=
  { h with changes := h.changes.mono hw }

end Call

/-! ### What the tables do with a draft -/

namespace Store

variable {s s' : Store} {tenant : Given} {actor : Given} {now : Instant}

theorem insertPolicy?_eq_some {id : String} {d : PolicyDraft} {policy : Policy}
    (h : s.insertPolicy? id tenant d actor now = some (s', policy)) :
    ∃ row : PolicyRow, some row.tenant = tenant ∧ row.policy.allow = d.allow ∧
      row.policy.deny = d.deny ∧ s' = { s with policies := s.policies ++ [row] } := by
  simp only [insertPolicy?, Option.bind_eq_bind, Option.bind_eq_some_iff] at h
  obtain ⟨t, rfl, _, -, _, -, h⟩ := h
  cases h
  exact ⟨_, rfl, rfl, rfl, rfl⟩

theorem updatePolicy?_eq_some {r : PolicyRow} {d : PolicyDraft} {policy : Policy}
    (h : s.updatePolicy? r d actor now = some (s', policy)) :
    ∃ row : PolicyRow, row.tenant = r.tenant ∧ row.policy.key = r.policy.key ∧
      row.policy.allow = d.allow ∧ row.policy.deny = d.deny ∧
      s' = { s with policies := s.policies.map fun q => if q = r then row else q } := by
  simp only [updatePolicy?, PolicyRow.updated?, Option.bind_eq_bind, Option.bind_eq_some_iff] at h
  obtain ⟨row, ⟨name, -, hrow⟩, h⟩ := h
  cases hrow
  cases h
  refine ⟨_, ?_, ?_, ?_, ?_, rfl⟩
  all_goals rfl

theorem insertRole?_eq_some {id : String} {d : RoleDraft} {role : Role}
    (h : s.insertRole? id tenant d actor now = some (s', role)) :
    ∃ row : RoleRow, some row.tenant = tenant ∧ row.role.policyKeys = d.policyKeys ∧
      s' = { s with roles := s.roles ++ [row] } := by
  simp only [insertRole?, Option.bind_eq_bind, Option.bind_eq_some_iff] at h
  obtain ⟨t, rfl, _, -, _, -, h⟩ := h
  cases h
  exact ⟨_, rfl, rfl, rfl⟩

theorem updateRole?_eq_some {r : RoleRow} {d : RoleDraft} {role : Role}
    (h : s.updateRole? r d actor now = some (s', role)) :
    ∃ row : RoleRow, row.tenant = r.tenant ∧ row.role.key = r.role.key ∧
      row.role.policyKeys = d.policyKeys ∧
      s' = { s with roles := s.roles.map fun q => if q = r then row else q } := by
  simp only [updateRole?, RoleRow.updated?, Option.bind_eq_bind, Option.bind_eq_some_iff] at h
  obtain ⟨row, ⟨name, -, hrow⟩, h⟩ := h
  cases hrow
  cases h
  refine ⟨_, ?_, ?_, ?_, rfl⟩
  all_goals rfl

theorem setStatus?_eq_some {r row : AssignmentRow} {status : Given}
    (h : s.setStatus? r status actor now = some (s', row)) :
    (∃ text, status = some text ∧
      row = { r with status := text, updatedBy := actor, updatedAt := now }) ∧
      s' = { s with assignments := s.assignments.map fun q => if q = r then row else q } := by
  simp only [setStatus?, Option.bind_eq_bind, Option.bind_eq_some_iff] at h
  obtain ⟨text, rfl, h⟩ := h
  split at h
  · cases h
  · cases h
    exact ⟨⟨text, rfl, rfl⟩, rfl⟩

/-- What is recorded as revoked can be read. -/
theorem setStatus?_revoked {r row : AssignmentRow}
    (h : s.setStatus? r (some AssignmentStatus.revoked.text) actor now = some (s', row)) :
    row = { r with
        status := AssignmentStatus.revoked.text, updatedBy := actor, updatedAt := now } ∧
      row.record = .ok (row.withStatus .revoked) ∧
      s' = { s with assignments := s.assignments.map fun q => if q = r then row else q } := by
  obtain ⟨⟨text, htext, hrow⟩, hs⟩ := setStatus?_eq_some h
  cases htext
  refine ⟨hrow, ?_, hs⟩
  rw [AssignmentRow.record, hrow]
  rfl

end Store

/-! ### Saving and removing -/

namespace AccessStore

open Call

variable (env : Environment) (e : Engine) (tenant actor : Given)

/-- Saving under a key concerns the tenant, if the key is there. -/
theorem savePolicy_alters (d : PolicyDraft) :
    (savePolicy tenant d actor).Alters env e
      fun t _ => some t = tenant ∧ (e.store.policyRow? tenant d.key).isSome = true := by
  refine alters_of_requireTenant ?_
  rcases hrow : e.store.policyRow? tenant d.key with _ | row
  · rcases hins : e.store.insertPolicy? (e.ids.next .policy) tenant d actor e.clock with _ | ⟨s, p⟩
    · refine alters_of_error .constraint
        { e with ids := e.ids.advance .policy } ?_ rfl rfl
      simp [hrow, hins]
    · refine alters_of_ok p ⟨s, e.ids.advance .policy, e.clock, e.outbox⟩ ?_ rfl ?_
      · simp [hrow, hins]
      · obtain ⟨row, -, -, -, rfl⟩ := Store.insertPolicy?_eq_some hins
        exact (Store.changes_addPolicy row).mono fun _ _ => False.elim
  · rcases hupd : e.store.updatePolicy? row d actor e.clock with _ | ⟨s, p⟩
    · refine alters_of_error .constraint e ?_ rfl rfl
      simp [hrow, hupd]
    · refine alters_of_ok p { e with store := s } ?_ rfl ?_
      · simp [hrow, hupd]
      · obtain ⟨row', ht, hk, -, -, rfl⟩ := Store.updatePolicy?_eq_some hupd
        refine (Store.changes_replacePolicy ht hk).mono fun t _ h => ?_
        exact ⟨by rw [h, (Store.of_policyRow? hrow).2.1], rfl⟩

theorem removePolicy_alters {key : Given} (hfree : e.store.rolesUsing tenant key = []) :
    (removePolicy tenant key).Alters env e fun t _ => some t = tenant := by
  refine alters_of_requireTenant ?_
  refine alters_of_ok (e.store.policyRow? tenant key).isSome
    { e with store := e.store.removePolicy tenant key } ?_ rfl ?_
  · simp
  · exact Store.changes_removePolicy hfree

/-- The policies that a role is to list have to be there, if references are to stay good. -/
theorem saveRole_alters {d : RoleDraft}
    (hkeys : e.store.Linked e.clock → ∀ key ∈ d.policyKeys,
      (e.store.policyRow? tenant (some key)).isSome = true) :
    (saveRole tenant d actor).Alters env e
      fun t _ => some t = tenant ∧ (e.store.roleRow? tenant d.key).isSome = true := by
  refine alters_of_requireTenant ?_
  rcases hrow : e.store.roleRow? tenant d.key with _ | row
  · rcases hins : e.store.insertRole? (e.ids.next .role) tenant d actor e.clock with _ | ⟨s, r⟩
    · refine alters_of_error .constraint
        { e with ids := e.ids.advance .role } ?_ rfl rfl
      simp [hrow, hins]
    · refine alters_of_ok r ⟨s, e.ids.advance .role, e.clock, e.outbox⟩ ?_ rfl ?_
      · simp [hrow, hins]
      · obtain ⟨row, rfl, hlisted, rfl⟩ := Store.insertRole?_eq_some hins
        rw [← hlisted] at hkeys
        exact (Store.changes_addRole hkeys).mono fun _ _ => False.elim
  · rcases hupd : e.store.updateRole? row d actor e.clock with _ | ⟨s, r⟩
    · refine alters_of_error .constraint e ?_ rfl rfl
      simp [hrow, hupd]
    · refine alters_of_ok r { e with store := s } ?_ rfl ?_
      · simp [hrow, hupd]
      · obtain ⟨row', ht, hk, hlisted, rfl⟩ := Store.updateRole?_eq_some hupd
        obtain ⟨-, htenant, -⟩ := Store.of_roleRow? hrow
        rw [← hlisted, ← htenant, ← ht] at hkeys
        refine (Store.changes_replaceRole ht hk hkeys).mono fun t _ h => ?_
        exact ⟨by rw [h, htenant], rfl⟩

theorem removeRole_alters {key : Given} (hfree : e.store.countLive tenant key e.clock = 0) :
    (removeRole tenant key).Alters env e fun t _ => some t = tenant := by
  refine alters_of_requireTenant ?_
  refine alters_of_ok (e.store.roleRow? tenant key).isSome
    { e with store := e.store.removeRole tenant key } ?_ rfl ?_
  · simp
  · exact Store.changes_removeRole hfree

/-- A limit that is an instant can be answered with. -/
theorem outcome_limit {expiresAt : Option Stamp}
    (h : ∀ stamp, expiresAt = some stamp → ∃ limit, stamp.instant = .ok limit) :
    ∃ answer, (expiresAt.mapM fun stamp : Stamp =>
      (ofExcept stamp.instant : Call Instant)).outcome env e = (.ok answer, e) := by
  cases expiresAt with
  | none => exact ⟨none, rfl⟩
  | some stamp =>
    obtain ⟨limit, hlimit⟩ := h stamp rfl
    exact ⟨some limit, by simp [hlimit]⟩

/-- An expiry that was found to lie ahead can be answered with. -/
theorem createAssignment_alters {d : AssignmentDraft}
    (hrole : (e.store.roleRow? tenant d.role).isSome = true)
    (hexpiry : ∀ stamp, d.expiresAt = some stamp → ∃ limit, stamp.instant = .ok limit) :
    (createAssignment tenant d (some e.clock)).Alters env e
      fun t u => some t = tenant ∧ some u = d.user := by
  refine alters_of_requireTenant ?_
  rcases hins : e.store.insertAssignment? (e.ids.next .assignment) tenant d e.clock with
    _ | ⟨s, row⟩
  · refine alters_of_error (.assignmentExists d.user d.role d.scope)
      { e with ids := e.ids.advance .assignment } ?_ rfl rfl
    simp [hins]
  · obtain ⟨ht, hu, hchanges⟩ := Store.changes_insertAssignment? hins hrole
    obtain ⟨answer, hanswer⟩ :=
      outcome_limit env ⟨s, e.ids.advance .assignment, e.clock, e.outbox⟩ hexpiry
    refine alters_of_ok { row.withStatus .active with expiresAt := answer }
      ⟨s, e.ids.advance .assignment, e.clock, e.outbox⟩ ?_ rfl
      (hchanges.mono fun t u h => ?_)
    · simp [hins, hanswer]
    · exact ⟨by rw [h.1, ht], by rw [h.2, hu]⟩

/-- Revoking concerns the holder of the assignment, and has an answer if there is one. -/
theorem revokeStatus_alters (id : Given) :
    (setStatus tenant id (some AssignmentStatus.revoked.text) actor).Alters env e
      fun t u => ∃ row, e.store.assignmentRow? tenant id = some row ∧ t = row.tenant ∧
        u = row.userId := by
  refine alters_of_requireTenant ?_
  rcases hrow : e.store.assignmentRow? tenant id with _ | row
  · refine alters_of_ok none e ?_ rfl
      ((Store.Changes.refl e.store e.clock).mono fun _ _ => False.elim)
    simp [hrow]
  rcases hset : e.store.setStatus? row (some AssignmentStatus.revoked.text) actor e.clock with
    _ | ⟨s, row'⟩
  · refine alters_of_error .constraint e ?_ rfl rfl
    simp [hrow, hset]
  · obtain ⟨hrow', hrecord, hs⟩ := Store.setStatus?_revoked hset
    have hcontinues := AssignmentRow.continues_of_status hrow'
    refine alters_of_ok (some (row'.withStatus .revoked)) { e with store := s } ?_
      rfl ?_
    · simp [hrow, hset, hrecord]
    · rw [hs]
      refine (Store.changes_deactivate hcontinues ?_).mono fun t u h => ⟨row, rfl, h⟩
      rw [AssignmentRow.isActive, hrow']
      rfl

theorem setStatus_answers {id status : Given} {row : AssignmentRow}
    (hrow : e.store.assignmentRow? tenant id = some row) {e' : Engine} {a? : Option Assignment}
    (h : (setStatus tenant id status actor).outcome env e = (.ok a?, e')) : a?.isSome = true := by
  rw [setStatus, outcome_bind] at h
  obtain ⟨_, e₁, hg, h⟩ := andThen_eq_ok_iff.1 h
  rw [outcome_requireTenant, Prod.mk.injEq] at hg
  obtain ⟨-, rfl⟩ := hg
  rw [outcome_bind, outcome_store, andThen_ok] at h
  simp only [hrow, outcome_bind, outcome_now, andThen_ok] at h
  obtain ⟨⟨s, row'⟩, e₂, -, h⟩ := andThen_eq_ok_iff.1 h
  simp only [outcome_bind, outcome_write, andThen_ok] at h
  obtain ⟨answer, e₃, -, h⟩ := andThen_eq_ok_iff.1 h
  cases h
  rfl

end AccessStore

end Entitlements
