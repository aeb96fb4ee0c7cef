import Entitlements.Proofs.Administration.Staleness
import Entitlements.Proofs.Engine.InMargin
import Entitlements.Proofs.Generation.Requests

/-!
What one call can do to the tables that rights are read from. Whatever the environment, and however
it ends, a call makes one write at most there, and that write is one of ten; the rest of what it
does is in the margin. `Effect` lists the writes together with the guards that have let them
through, so that a property of all runs needs one case for each write, and no call has to be opened
again.
-/

namespace Entitlements

open Time Call

/-! ### Guards -/

namespace Store

/-- Is each of these patterns accepted, or are they a list of a policy as it stands? -/
def AcceptsPatterns (s : Store) (patterns : List String) : Prop :=
  (∀ text ∈ patterns, checkPattern (.str text) = .ok text) ∨
    ∃ r ∈ s.policies, r.policy.allow = patterns ∨ r.policy.deny = patterns

/-- Are these the keys of policies that are there, each listed once, or the keys of a role as it
stands? -/
def AcceptsKeys (s : Store) (tenant : Given) (keys : List String) : Prop :=
  (keys.Nodup ∧ ∀ key ∈ keys, (s.policyRow? tenant (some key)).isSome = true) ∨
    ∃ r ∈ s.roles, some r.tenant = tenant ∧ r.role.policyKeys = keys

/-- May the policy under a key be changed or removed? Not if it is one of the platform. -/
def LeavesPolicyOpen (s : Store) (tenant key : Given) : Prop :=
  ∀ row, s.policyRow? tenant key = some row → row.policy.isSystem = false

def LeavesRoleOpen (s : Store) (tenant key : Given) : Prop :=
  ∀ row, s.roleRow? tenant key = some row → row.role.isSystem = false

variable {s : Store} {tenant key : Given}

theorem leavesPolicyOpen_of_policy? {p : Policy} (h : s.policy? tenant key = some p)
    (hp : ¬p.isSystem = true) : s.LeavesPolicyOpen tenant key := by
  intro row hrow
  rw [policy?, hrow] at h
  cases h
  exact Bool.eq_false_iff.2 hp

theorem leavesRoleOpen_of_role? {r : Role} (h : s.role? tenant key = some r)
    (hr : ¬r.isSystem = true) : s.LeavesRoleOpen tenant key := by
  intro row hrow
  rw [role?, hrow] at h
  cases h
  exact Bool.eq_false_iff.2 hr

/-- Where nothing is found, nothing is in the way. -/
theorem leavesPolicyOpen_of_not_isSome (h : ¬(s.policy? tenant key).isSome = true) :
    s.LeavesPolicyOpen tenant key := by
  intro row hrow
  rw [policy?, hrow] at h
  exact (h rfl).elim

theorem leavesRoleOpen_of_not_isSome (h : ¬(s.role? tenant key).isSome = true) :
    s.LeavesRoleOpen tenant key := by
  intro row hrow
  rw [role?, hrow] at h
  exact (h rfl).elim

end Store

/-! ### Effects -/

/-- The writes of one call to the tables of rights. `passes` holds of the times by which expiry may
be recorded. -/
inductive Engine.Effect (passes : Instant → Prop) (e : Engine) : Engine → Prop
  | registers {s : Store} : s.policies = e.store.policies → s.roles = e.store.roles →
      s.assignments = e.store.assignments → Effect passes e { e with store := s }
  | spends (kind : IdKind) : Effect passes e { e with ids := e.ids.advance kind }
  | addsPolicy {tenant actor : Given} {d : PolicyDraft} {s : Store} {policy : Policy} :
      e.store.AcceptsPatterns d.allow → e.store.AcceptsPatterns d.deny →
      e.store.insertPolicy? (e.ids.next .policy) tenant d actor e.clock = some (s, policy) →
      Effect passes e { e with store := s, ids := e.ids.advance .policy }
  | changesPolicy {row : PolicyRow} {actor : Given} {d : PolicyDraft} {s : Store}
      {policy : Policy} : row.policy.isSystem = false →
      e.store.AcceptsPatterns d.allow → e.store.AcceptsPatterns d.deny →
      e.store.updatePolicy? row d actor e.clock = some (s, policy) →
      Effect passes e { e with store := s }
  | removesPolicy {tenant key : Given} : e.store.LeavesPolicyOpen tenant key →
      e.store.rolesUsing tenant key = [] →
      Effect passes e { e with store := e.store.removePolicy tenant key }
  | addsRole {tenant actor : Given} {d : RoleDraft} {s : Store} {role : Role} :
      e.store.AcceptsKeys tenant d.policyKeys →
      e.store.insertRole? (e.ids.next .role) tenant d actor e.clock = some (s, role) →
      Effect passes e { e with store := s, ids := e.ids.advance .role }
  | changesRole {row : RoleRow} {actor : Given} {d : RoleDraft} {s : Store} {role : Role} :
      row.role.isSystem = false → e.store.AcceptsKeys (some row.tenant) d.policyKeys →
      e.store.updateRole? row d actor e.clock = some (s, role) →
      Effect passes e { e with store := s }
  | removesRole {tenant key : Given} : e.store.LeavesRoleOpen tenant key →
      e.store.countLive tenant key e.clock = 0 →
      Effect passes e { e with store := e.store.removeRole tenant key }
  | grants {tenant : Given} {d : AssignmentDraft} {scope : String} {s : Store}
      {row : AssignmentRow} :
      (e.store.roleRow? tenant d.role).isSome = true →
      checkScope (.ofText? d.scope) = .ok scope →
      e.store.insertAssignment? (e.ids.next .assignment) tenant d e.clock = some (s, row) →
      Effect passes e { e with store := s, ids := e.ids.advance .assignment }
  | revokes {tenant id actor : Given} {r row : AssignmentRow} {s : Store} :
      e.store.assignmentRow? tenant id = some r → r.isActive = true →
      e.store.setStatus? r (some AssignmentStatus.revoked.text) actor e.clock = some (s, row) →
      Effect passes e { e with store := s }
  | settles (selected : AssignmentRow → Bool) {time : Instant} : passes time →
      Effect passes e { e with store := e.store.expireWhere selected time }

/-- Is an engine what one effect leads to, the margin apart? -/
def Engine.HasEffect (passes : Instant → Prop) (e e' : Engine) : Prop :=
  ∃ e₁ m, Engine.Effect passes e e₁ ∧ e' = e₁.withMargin m

namespace Engine

variable {passes : Instant → Prop} {env : Environment} {e e' : Engine}

theorem Effect.hasEffect (h : Effect passes e e') : e.HasEffect passes e' :=
  ⟨e', e'.margin, h, rfl⟩

namespace HasEffect

theorem refl (e : Engine) : e.HasEffect passes e := (Effect.registers rfl rfl rfl).hasEffect

theorem withMargin (h : e.HasEffect passes e') (m : Margin) :
    e.HasEffect passes (e'.withMargin m) := by
  obtain ⟨e₁, -, heffect, rfl⟩ := h
  exact ⟨e₁, m, heffect, rfl⟩

theorem of_inMargin {x : Call α} (hx : StaysInMargin x) : e.HasEffect passes (x.after env e) := by
  obtain ⟨m, hm⟩ := hx env e
  rw [hm]
  exact (refl e).withMargin m

/-- What stays in the margin may follow. -/
theorem bind {x : Call α} {f : α → Call β} (hx : e.HasEffect passes (x.after env e))
    (hf : ∀ a, StaysInMargin (f a)) : e.HasEffect passes ((x >>= f).after env e) := by
  refine after_bind_of_after (P := e.HasEffect passes) hx fun a e₁ h => ?_
  obtain ⟨m, hm⟩ := hf a env e₁
  rw [hm]
  exact h.withMargin m

/-- A call that asks for a tenant first. -/
theorem requireTenant {tenant : Given} {f : Unit → Call α}
    (h : e.HasEffect passes ((f ()).after env e)) :
    e.HasEffect passes ((requireTenant tenant >>= f).after env e) :=
  after_bind_of_outcome (outcome_requireTenant env e tenant) (refl e) fun _ _ => h

end HasEffect

end Engine

open Engine (Effect HasEffect)

/-! ### Writes -/

namespace AccessStore

variable {passes : Instant → Prop} (env : Environment) (e : Engine) (tenant actor : Given)

theorem savePolicy_hasEffect {d : PolicyDraft} (hopen : e.store.LeavesPolicyOpen tenant d.key)
    (hallow : e.store.AcceptsPatterns d.allow) (hdeny : e.store.AcceptsPatterns d.deny) :
    e.HasEffect passes ((savePolicy tenant d actor).after env e) := by
  refine .requireTenant ?_
  rw [after_bind_of_ok (outcome_store env e), after_bind_of_ok (outcome_now env e)]
  rcases hrow : e.store.policyRow? tenant d.key with _ | row
  · dsimp only
    rw [after_bind_of_ok (outcome_freshId env e .policy)]
    refine after_bind_of_outcome (outcome_orFail env _ _ _) (Effect.spends .policy).hasEffect
      fun saved hsaved => ?_
    exact (Effect.addsPolicy hallow hdeny (eq_some_of_elim hsaved)).hasEffect
  · dsimp only
    refine after_bind_of_outcome (outcome_orFail env e _ _) (.refl e) fun saved hsaved => ?_
    exact (Effect.changesPolicy (hopen row hrow) hallow hdeny (eq_some_of_elim hsaved)).hasEffect

theorem saveRole_hasEffect {d : RoleDraft} (hopen : e.store.LeavesRoleOpen tenant d.key)
    (hkeys : e.store.AcceptsKeys tenant d.policyKeys) :
    e.HasEffect passes ((saveRole tenant d actor).after env e) := by
  refine .requireTenant ?_
  rw [after_bind_of_ok (outcome_store env e), after_bind_of_ok (outcome_now env e)]
  rcases hrow : e.store.roleRow? tenant d.key with _ | row
  · dsimp only
    rw [after_bind_of_ok (outcome_freshId env e .role)]
    refine after_bind_of_outcome (outcome_orFail env _ _ _) (Effect.spends .role).hasEffect
      fun saved hsaved => ?_
    exact (Effect.addsRole hkeys (eq_some_of_elim hsaved)).hasEffect
  · dsimp only
    rw [← (Store.of_roleRow? hrow).2.1] at hkeys
    refine after_bind_of_outcome (outcome_orFail env e _ _) (.refl e) fun saved hsaved => ?_
    exact (Effect.changesRole (hopen row hrow) hkeys (eq_some_of_elim hsaved)).hasEffect

/-- A grant uses up an identifier, whether or not the tables take the row. What is answered once the
row is written does not matter to them. -/
theorem after_createAssignment (d : AssignmentDraft) (now : Instant) :
    (createAssignment tenant d (some now)).after env e = e ∨
      (createAssignment tenant d (some now)).after env e =
        { e with ids := e.ids.advance .assignment } ∨
      ∃ s row, e.store.insertAssignment? (e.ids.next .assignment) tenant d now = some (s, row) ∧
        (createAssignment tenant d (some now)).after env e =
          { e with store := s, ids := e.ids.advance .assignment } := by
  rcases hg : env.settings.checkTenant tenant with failure | _
  · exact .inl (by simp [after, createAssignment, hg])
  rcases hins : e.store.insertAssignment? (e.ids.next .assignment) tenant d now with _ | ⟨s, row⟩
  · exact .inr (.inl (by simp [after, createAssignment, hg, hins]))
  · refine .inr (.inr ⟨s, row, rfl, ?_⟩)
    rcases hexp : d.expiresAt with _ | stamp
    · simp [after, createAssignment, hg, hins, hexp]
    · rcases hlimit : stamp.instant with failure | limit <;>
        simp [after, createAssignment, hg, hins, hexp, hlimit]

theorem createAssignment_hasEffect {d : AssignmentDraft} {scope : String}
    (hrole : (e.store.roleRow? tenant d.role).isSome = true)
    (hscope : checkScope (.ofText? d.scope) = .ok scope) :
    e.HasEffect passes ((createAssignment tenant d (some e.clock)).after env e) := by
  rcases after_createAssignment env e tenant d e.clock with
    hsame | hspent | ⟨s, row, hins, hgranted⟩
  · rw [hsame]
    exact .refl e
  · rw [hspent]
    exact (Effect.spends .assignment).hasEffect
  · rw [hgranted]
    exact (Effect.grants hrole hscope hins).hasEffect

theorem revokeStatus_hasEffect {id : Given}
    (hactive : ∀ r, e.store.assignmentRow? tenant id = some r → r.isActive = true) :
    e.HasEffect passes
      ((setStatus tenant id (some AssignmentStatus.revoked.text) actor).after env e) := by
  refine .requireTenant ?_
  rw [after_bind_of_ok (outcome_store env e)]
  rcases hrow : e.store.assignmentRow? tenant id with _ | r
  · exact .refl e
  · dsimp only
    rw [after_bind_of_ok (outcome_now env e)]
    refine after_bind_of_outcome (outcome_orFail env e _ _) (.refl e) fun saved hsaved => ?_
    rw [after_bind_of_ok (outcome_write env e _)]
    have heffect : e.HasEffect passes { e with store := saved.1 } :=
      (Effect.revokes hrow (hactive r hrow) (eq_some_of_elim hsaved)).hasEffect
    obtain ⟨m, hm⟩ := (StaysInMargin.ofExcept saved.2.record).bind
      (fun record => StaysInMargin.pure (some record)) env { e with store := saved.1 }
    rw [hm]
    exact heffect.withMargin m

end AccessStore

/-! ### What look-ups answer -/

theorem AssignmentRow.isActive_of_record {r : AssignmentRow} {a : Assignment}
    (h : r.record = .ok a) (hactive : a.status = .active) : r.isActive = true := by
  simp only [record, AssignmentStatus.parse] at h
  rcases hstatus : AssignmentStatus.ofText? r.status with _ | status
  · rw [hstatus] at h
    cases h
  · rw [hstatus] at h
    cases h
    change status = .active at hactive
    rw [hactive] at hstatus
    unfold AssignmentStatus.ofText? at hstatus
    split at hstatus
    · next htext => simp [isActive, htext, AssignmentStatus.text]
    all_goals cases hstatus

theorem checkPattern_of_ok {given : Json} {text : String} (h : checkPattern given = .ok text) :
    checkPattern (.str text) = .ok text := by
  unfold checkPattern at h
  split at h
  · split at h
    · cases h
    · next hshape =>
      cases h
      simp [checkPattern, hshape]
  · cases h

theorem checkPattern_of_mem {given : List Json} {patterns : List String}
    (h : checkPatterns given = .ok patterns) :
    ∀ text ∈ patterns, checkPattern (.str text) = .ok text := by
  induction given generalizing patterns with
  | nil =>
    cases h
    simp
  | cons first rest ih =>
    obtain ⟨pattern, hpattern, h⟩ := bind_eq_ok_iff.1 h
    obtain ⟨more, hmore, h⟩ := bind_eq_ok_iff.1 h
    cases h
    exact List.forall_mem_cons.2 ⟨checkPattern_of_ok hpattern, ih hmore⟩

namespace Administration

variable {s : Store} {tenant : Given}

theorem acceptsPatterns_of_patterns {given : Json} {found : List String}
    (h : patterns given = .ok found) : s.AcceptsPatterns found := by
  obtain ⟨members, -, h⟩ := bind_eq_ok_iff.1 h
  exact .inl (checkPattern_of_mem h)

theorem acceptsPatterns_of_replacing {given : Json} {current found : List String}
    (hcurrent : s.AcceptsPatterns current) (h : replacing given current patterns = .ok found) :
    s.AcceptsPatterns found := by
  unfold replacing at h
  split at h
  · cases h
    exact hcurrent
  · exact acceptsPatterns_of_patterns h

theorem acceptsPatterns_of_newPolicyDraft {p : NewPolicy} {d : PolicyDraft}
    (h : newPolicyDraft p = .ok d) : s.AcceptsPatterns d.allow ∧ s.AcceptsPatterns d.deny := by
  obtain ⟨allow, hallow, h⟩ := bind_eq_ok_iff.1 h
  obtain ⟨deny, hdeny, h⟩ := bind_eq_ok_iff.1 h
  obtain ⟨risk, -, h⟩ := bind_eq_ok_iff.1 h
  obtain ⟨conditions, -, h⟩ := bind_eq_ok_iff.1 h
  cases h
  exact ⟨acceptsPatterns_of_patterns hallow, acceptsPatterns_of_patterns hdeny⟩

theorem acceptsPatterns_of_changedPolicyDraft {key : Given} {c : PolicyChange} {current : Policy}
    (hcurrent : s.policy? tenant key = some current) {d : PolicyDraft}
    (h : changedPolicyDraft c current = .ok d) :
    s.AcceptsPatterns d.allow ∧ s.AcceptsPatterns d.deny := by
  obtain ⟨row, hrow, rfl⟩ := Option.map_eq_some_iff.1 hcurrent
  have hmem := (Store.of_policyRow? hrow).1
  obtain ⟨allow, hallow, h⟩ := bind_eq_ok_iff.1 h
  obtain ⟨deny, hdeny, h⟩ := bind_eq_ok_iff.1 h
  obtain ⟨risk, -, h⟩ := bind_eq_ok_iff.1 h
  obtain ⟨conditions, -, h⟩ := bind_eq_ok_iff.1 h
  cases h
  exact ⟨acceptsPatterns_of_replacing (.inr ⟨row, hmem, .inl rfl⟩) hallow,
    acceptsPatterns_of_replacing (.inr ⟨row, hmem, .inr rfl⟩) hdeny⟩

/-- Keys that are looked up one by one are found as they were asked for. -/
theorem asked_eq_of_mapM_lookedUp {env : Environment} {asked : List Given} {found : List String}
    (h : asked.mapM (fun key =>
      (·.key) <$> lookedUp env tenant (.policyNotFound key) (s.policy? tenant key)) =
        Except.ok found) : asked = found.map some := by
  induction asked generalizing found with
  | nil =>
    cases h
    rfl
  | cons key asked ih =>
    rw [List.mapM_cons] at h
    obtain ⟨first, hfirst, h⟩ := bind_eq_ok_iff.1 h
    obtain ⟨rest, hrest, h⟩ := bind_eq_ok_iff.1 h
    cases h
    rcases hp : lookedUp env tenant (.policyNotFound key) (s.policy? tenant key) with _ | p
    · rw [hp] at hfirst
      cases hfirst
    · rw [hp] at hfirst
      cases hfirst
      rw [ih hrest, List.map_cons, key_of_policy? (of_lookedUp hp).2]

/-- The keys that a role is to list were each asked for once, and are there. -/
theorem acceptsKeys_of_requirePolicies {env : Environment} {e : Engine} {keys : Json}
    {found : List String}
    (h : (do
      let keys ← do (← membersOf keys).mapM keyOf
      (distinct keys).mapM fun key =>
        (·.key) <$> lookedUp env tenant (.policyNotFound key) (e.store.policy? tenant key)) =
          Except.ok found) : e.store.AcceptsKeys tenant found := by
  refine .inl ⟨?_, found_of_requirePolicies h⟩
  obtain ⟨members, -, h⟩ := bind_eq_ok_iff.1 h
  obtain ⟨given, -, h⟩ := bind_eq_ok_iff.1 h
  have hdistinct := nodup_distinct given
  rw [asked_eq_of_mapM_lookedUp h] at hdistinct
  exact hdistinct.of_map some

/-! ### Calls -/

variable {passes : Instant → Prop} (env : Environment) (e : Engine) (tenant key actor : Given)

/-- A write with its follow-up. -/
theorem hasEffect_followedUp {x : Call α} (hx : e.HasEffect passes (x.after env e))
    (event : α → Event) (stale : Stale) (reason : String) (answer : α → β) :
    e.HasEffect passes
      ((do let a ← x; followUp (event a) stale reason actor; return answer a).after env e) :=
  hx.bind fun a => (followUp_inMargin (event a) stale reason actor).bind fun _ => .pure _

theorem createPolicy_hasEffect (p : NewPolicy) :
    e.HasEffect passes ((createPolicy tenant p actor).after env e) := by
  refine after_bind_of_outcome (AccessStore.outcome_policy? tenant p.key env e) (.refl e)
    fun found hfound => ?_
  obtain ⟨-, rfl⟩ := eq_ok_of_map hfound
  refine after_of_guard (.refl e) fun hnone => ?_
  refine after_bind_of_outcome (outcome_ofExcept env e _) (.refl e) fun draft hdraft => ?_
  obtain ⟨hallow, hdeny⟩ := acceptsPatterns_of_newPolicyDraft hdraft
  have hopen : e.store.LeavesPolicyOpen tenant draft.key := by
    rw [key_of_newPolicyDraft hdraft]
    exact Store.leavesPolicyOpen_of_not_isSome hnone
  exact hasEffect_followedUp env e actor
    (AccessStore.savePolicy_hasEffect env e tenant actor hopen hallow hdeny) _ _ _ id

theorem updatePolicy_hasEffect (c : PolicyChange) :
    e.HasEffect passes ((updatePolicy tenant key c actor).after env e) := by
  refine after_bind_of_outcome (outcome_policy tenant key env e) (.refl e)
    fun current hcurrent => ?_
  obtain ⟨-, hcurrent⟩ := of_lookedUp hcurrent
  refine after_of_guard (.refl e) fun hsystem => ?_
  refine after_bind_of_outcome (outcome_ofExcept env e _) (.refl e) fun draft hdraft => ?_
  obtain ⟨hallow, hdeny⟩ := acceptsPatterns_of_changedPolicyDraft hcurrent hdraft
  have hopen : e.store.LeavesPolicyOpen tenant draft.key := by
    rw [key_of_changedPolicyDraft hdraft, key_of_policy? hcurrent]
    exact Store.leavesPolicyOpen_of_policy? hcurrent hsystem
  exact hasEffect_followedUp env e actor
    (AccessStore.savePolicy_hasEffect env e tenant actor hopen hallow hdeny) _ _ _ id

theorem deletePolicy_hasEffect :
    e.HasEffect passes ((deletePolicy tenant key actor).after env e) := by
  refine after_bind_of_outcome (outcome_policy tenant key env e) (.refl e)
    fun current hcurrent => ?_
  refine after_of_guard (.refl e) fun hsystem => ?_
  have hopen := Store.leavesPolicyOpen_of_policy? (of_lookedUp hcurrent).2 hsystem
  refine after_bind_of_outcome (AccessStore.outcome_rolesUsing tenant key env e) (.refl e)
    fun roles hroles => ?_
  obtain ⟨-, rfl⟩ := eq_ok_of_map hroles
  refine after_of_guard (.refl e) fun hfree => ?_
  have hnone : e.store.rolesUsing tenant key = [] := by simpa using hfree
  have hremoved : e.HasEffect passes ((AccessStore.removePolicy tenant key).after env e) :=
    .requireTenant (Effect.removesPolicy hopen hnone).hasEffect
  exact hremoved.bind fun _ => followUp_inMargin _ _ _ _

theorem createRole_hasEffect (r : NewRole) :
    e.HasEffect passes ((createRole tenant r actor).after env e) := by
  refine after_bind_of_outcome (AccessStore.outcome_role? tenant r.key env e) (.refl e)
    fun found hfound => ?_
  obtain ⟨-, rfl⟩ := eq_ok_of_map hfound
  refine after_of_guard (.refl e) fun hnone => ?_
  refine after_bind_of_outcome (outcome_requirePolicies tenant env e _) (.refl e)
    fun policyKeys hkeys => ?_
  refine after_bind_of_outcome (outcome_ofExcept env e _) (.refl e) fun risk _ => ?_
  refine after_bind_of_outcome (outcome_ofExcept env e _) (.refl e) fun tags _ => ?_
  exact hasEffect_followedUp env e actor
    (AccessStore.saveRole_hasEffect env e tenant actor (Store.leavesRoleOpen_of_not_isSome hnone)
      (acceptsKeys_of_requirePolicies hkeys)) _ _ _ id

theorem updateRole_hasEffect (c : RoleChange) :
    e.HasEffect passes ((updateRole tenant key c actor).after env e) := by
  refine after_bind_of_outcome (outcome_role tenant key env e) (.refl e) fun current hcurrent => ?_
  obtain ⟨-, hcurrent⟩ := of_lookedUp hcurrent
  refine after_of_guard (.refl e) fun hsystem => ?_
  have hopen : e.store.LeavesRoleOpen tenant (some current.key) := by
    rw [key_of_role? hcurrent]
    exact Store.leavesRoleOpen_of_role? hcurrent hsystem
  have hsave (policyKeys : List String) (hkeys : e.store.AcceptsKeys tenant policyKeys) :
      e.HasEffect passes
        ((do
          let risk ← ofExcept (replacing c.risk current.risk (RiskLevel.parse · .low))
          let tags ← ofExcept (replacing c.tags current.tags tags)
          let saved ← AccessStore.saveRole tenant
            { key := some current.key, policyKeys, risk
              displayName := some (c.displayName.getD current.displayName)
              description := c.description.getD current.description, tags
              isSystem := current.isSystem } actor
          followUp
            (roleEvent .roleUpdated tenant key "UPDATE" actor [("fields", .ofTexts c.fields)])
            .tenant ("Role " ++ key.mention ++ " updated") actor
          return saved).after env e) := by
    refine after_bind_of_outcome (outcome_ofExcept env e _) (.refl e) fun risk _ => ?_
    refine after_bind_of_outcome (outcome_ofExcept env e _) (.refl e) fun tags _ => ?_
    exact hasEffect_followedUp env e actor
      (AccessStore.saveRole_hasEffect env e tenant actor hopen hkeys) _ _ _ id
  dsimp only
  split
  · -- The keys stay, and are those of a role that is in the table.
    refine after_bind_of_outcome (outcome_pure env e _) (.refl e) fun policyKeys hkeys => ?_
    cases hkeys
    obtain ⟨row, hrow, rfl⟩ := Option.map_eq_some_iff.1 hcurrent
    obtain ⟨hmem, htenant, -⟩ := Store.of_roleRow? hrow
    exact hsave _ (.inr ⟨row, hmem, htenant, rfl⟩)
  · refine after_bind_of_outcome (outcome_requirePolicies tenant env e _) (.refl e)
      fun policyKeys hkeys => ?_
    exact hsave _ (acceptsKeys_of_requirePolicies hkeys)

theorem deleteRole_hasEffect : e.HasEffect passes ((deleteRole tenant key actor).after env e) := by
  refine after_bind_of_outcome (outcome_role tenant key env e) (.refl e) fun current hcurrent => ?_
  refine after_of_guard (.refl e) fun hsystem => ?_
  have hopen := Store.leavesRoleOpen_of_role? (of_lookedUp hcurrent).2 hsystem
  refine after_bind_of_outcome (AccessStore.outcome_countLive tenant key env e) (.refl e)
    fun active hactive => ?_
  obtain ⟨-, rfl⟩ := eq_ok_of_map hactive
  refine after_of_guard (.refl e) fun hfree => ?_
  have hremoved : e.HasEffect passes ((AccessStore.removeRole tenant key).after env e) :=
    .requireTenant (Effect.removesRole hopen (Decidable.not_not.1 hfree)).hasEffect
  exact hremoved.bind fun _ => followUp_inMargin _ _ _ _

theorem assignRole_hasEffect (d : AssignmentDraft) :
    e.HasEffect passes ((assignRole tenant d).after env e) := by
  refine after_bind_of_outcome (outcome_ofExcept env e _) (.refl e) fun scope hscope => ?_
  rw [after_bind_of_ok (outcome_now env e)]
  refine after_bind_of_outcome (outcome_ofExcept env e _) (.refl e) fun _ _ => ?_
  refine after_bind_of_outcome (outcome_role tenant d.role env e) (.refl e) fun found hfound => ?_
  obtain ⟨-, hrole⟩ := of_lookedUp hfound
  have hthere := Store.isSome_roleRow? hrole
  have hwrite : e.HasEffect passes
      ((AccessStore.createAssignment tenant d (some e.clock)).after env e) :=
    AccessStore.createAssignment_hasEffect env e tenant hthere hscope
  have hcreate := hasEffect_followedUp env e d.grantedBy hwrite
    (fun assignment => assignmentEvent .roleAssigned tenant (some assignment.id) "CREATE"
      d.grantedBy d.user d.role d.scope d.reason)
    (.user d.user) ("Role " ++ d.role.mention ++ " assigned") id
  rw [after_bind_of_ok (outcome_read env e)]
  dsimp only
  split
  · refine after_bind_of_outcome
      (AccessStore.outcome_liveAssignment? tenant env e d.user d.role d.scope) (.refl e)
      fun live _ => ?_
    exact after_of_guard (.refl e) fun _ => hcreate
  · exact hcreate

/-- The row that is looked up is shown with its state, so it is only revoked if it is active. -/
theorem isActive_of_assignment_answer {id : Given} {current : Assignment}
    (h : (env.settings.checkTenant tenant).bind (fun _ =>
      (e.store.assignmentRow? tenant id).mapM AssignmentRow.record) = .ok (some current))
    (hactive : current.status = .active) :
    ∀ r, e.store.assignmentRow? tenant id = some r → r.isActive = true := by
  intro r hr
  obtain ⟨_, -, h⟩ := bind_eq_ok_iff.1 h
  rw [hr, Option.mapM_some] at h
  obtain ⟨record, hrecord, h⟩ := bind_eq_ok_iff.1 h
  cases h
  exact AssignmentRow.isActive_of_record hrecord hactive

theorem revoke_hasEffect (id reason : Given) :
    e.HasEffect passes ((revoke tenant id actor reason).after env e) := by
  refine after_bind_of_outcome (AccessStore.outcome_assignment? tenant id env e) (.refl e)
    fun found hfound => ?_
  refine after_bind_of_outcome (outcome_orFail env e _ _) (.refl e) fun current hcurrent => ?_
  rw [eq_some_of_elim hcurrent] at hfound
  dsimp only
  split
  · exact .refl e
  next hactive =>
  have hrow := isActive_of_assignment_answer env e tenant hfound (Decidable.not_not.1 hactive)
  have hrest (revoked? : Option Assignment) : StaysInMargin (do
      let revoked ← orFail (.assignmentNotFound id) revoked?
      followUp
        (assignmentEvent .roleRevoked tenant id "REVOKE" actor (some current.userId)
          (some current.roleKey) (some current.scope) reason)
        (.user (some current.userId)) ("Role " ++ current.roleKey ++ " revoked") actor
      return revoked) :=
    (StaysInMargin.orFail _ _).bind fun _ => (followUp_inMargin _ _ _ _).bind fun _ => .pure _
  rw [after_bind_of_ok (outcome_read env e)]
  split
  · -- Another writer was faster, so nothing is written.
    exact HasEffect.of_inMargin ((StaysInMargin.pure none).bind hrest)
  · exact (AccessStore.revokeStatus_hasEffect env e tenant actor hrow).bind hrest

end Administration

/-! ### The other calls -/

theorem AccessStore.expireAssignments_hasEffect {passes : Instant → Prop} (env : Environment)
    (e : Engine) (tenant : Given) {now : Instant} (hnow : passes now) :
    e.HasEffect passes ((expireAssignments tenant now).after env e) := by
  refine .requireTenant ?_
  exact (Effect.settles _ hnow).hasEffect

namespace Maintenance

variable {passes : Instant → Prop} (env : Environment) (e : Engine)

theorem expireAssignments_hasEffect (tenant : Given) {present : Option Stamp}
    (hpresent : passes (present.elim e.clock (·.reading))) :
    e.HasEffect passes ((expireAssignments tenant present).after env e) := by
  rw [expireAssignments, after_bind_of_ok (outcome_timeOf env e present)]
  exact AccessStore.expireAssignments_hasEffect env e tenant hpresent

theorem run_hasEffect (hnow : passes e.clock) (task tenant : Given) (days : Option Int) :
    e.HasEffect passes ((run task tenant days).after env e) := by
  unfold run
  split
  · exact .refl e
  · exact .of_inMargin (pruneExpired_inMargin none)
  · exact .of_inMargin (pruneInvalidated_inMargin days none)
  · split
    · exact expireAssignments_hasEffect env e tenant hnow
    · exact .refl e

end Maintenance

/-- Additions to the directory leave the tables of rights alone. -/
theorem Directory.add_hasEffect {passes : Instant → Prop} (env : Environment) (e : Engine)
    {insert? : Store → Option Store}
    (h : ∀ s s', insert? s = some s' →
      s'.policies = s.policies ∧ s'.roles = s.roles ∧ s'.assignments = s.assignments) :
    e.HasEffect passes ((add insert?).after env e) := by
  rw [add, after_bind_of_ok (outcome_store env e)]
  refine after_bind_of_outcome (outcome_orFail env e _ _) (.refl e) fun s hs => ?_
  obtain ⟨hp, hr, ha⟩ := h e.store s (eq_some_of_elim hs)
  exact (Effect.registers hp hr ha).hasEffect

namespace Operation

variable {passes : Instant → Prop}

/-- May the expiry of assignments be recorded by the time that a call goes by? -/
def PassesBy (passes : Instant → Prop) (e : Engine) : Operation → Prop
  | expireAssignments _ present => passes (present.elim e.clock (·.reading))
  | runTask .. => passes e.clock
  | _ => True

/-- Any call but one that moves the clock has one effect. -/
theorem hasEffect (env : Environment) (e : Engine) (op : Operation)
    (hclock : ∀ setTo micros, op ≠ moveClock setTo micros) (hpasses : op.PassesBy passes e) :
    e.HasEffect passes (op.call.after env e) := by
  cases op with
  | createPolicy tenant policy actor =>
    rw [call, after_discard]
    exact Administration.createPolicy_hasEffect env e tenant actor policy
  | updatePolicy tenant key change actor =>
    rw [call, after_discard]
    exact Administration.updatePolicy_hasEffect env e tenant key actor change
  | deletePolicy tenant key actor =>
    exact Administration.deletePolicy_hasEffect env e tenant key actor
  | createRole tenant role actor =>
    rw [call, after_discard]
    exact Administration.createRole_hasEffect env e tenant actor role
  | updateRole tenant key change actor =>
    rw [call, after_discard]
    exact Administration.updateRole_hasEffect env e tenant key actor change
  | deleteRole tenant key actor => exact Administration.deleteRole_hasEffect env e tenant key actor
  | assignRole tenant draft =>
    rw [call, after_discard]
    exact Administration.assignRole_hasEffect env e tenant draft
  | revoke tenant id actor reason =>
    rw [call, after_discard]
    exact Administration.revoke_hasEffect env e tenant actor id reason
  | generate tenant user scope useCache lifetime =>
    exact .of_inMargin (.discard (Generation.generate_inMargin tenant user _))
  | refresh tenant user scope reason =>
    exact .of_inMargin (.discard (Generation.refresh_inMargin tenant user scope reason))
  | permits tenant user key scope =>
    exact .of_inMargin (.discard ((Generation.generate_inMargin tenant user _).bind
      fun _ => .pure _))
  | featureAccess tenant user feature scope =>
    exact .of_inMargin (.discard ((Generation.generate_inMargin tenant user _).bind
      fun _ => .pure _))
  | invalidate tenant user reason scope actor =>
    exact .of_inMargin (.discard (Generation.invalidate_inMargin tenant user reason scope actor))
  | invalidateTenant tenant reason actor =>
    exact .of_inMargin (.discard (Generation.invalidateTenant_inMargin tenant reason actor))
  | pruneExpired present =>
    exact .of_inMargin (.discard (Maintenance.pruneExpired_inMargin present))
  | pruneInvalidated days present =>
    exact .of_inMargin (.discard (Maintenance.pruneInvalidated_inMargin days present))
  | expireAssignments tenant present =>
    rw [call, after_discard]
    exact Maintenance.expireAssignments_hasEffect env e tenant hpasses
  | runTask task tenant days =>
    rw [call, after_discard]
    exact Maintenance.run_hasEffect env e hpasses task tenant days
  | addUser tenant id email customerId =>
    refine Directory.add_hasEffect env e fun s s' h => ?_
    simp only [Store.insertUser?, Option.bind_eq_bind, Option.bind_eq_some_iff] at h
    obtain ⟨_, -, _, -, _, -, _, -, h⟩ := h
    cases h
    exact ⟨rfl, rfl, rfl⟩
  | addCustomer tenant id name =>
    refine Directory.add_hasEffect env e fun s s' h => ?_
    simp only [Store.insertCustomer?, Option.bind_eq_bind, Option.bind_eq_some_iff] at h
    obtain ⟨_, -, _, -, _, -, _, -, h⟩ := h
    cases h
    exact ⟨rfl, rfl, rfl⟩
  | addGroup tenant id key name =>
    refine Directory.add_hasEffect env e fun s s' h => ?_
    simp only [Store.insertGroup?, Option.bind_eq_bind, Option.bind_eq_some_iff] at h
    obtain ⟨_, -, _, -, _, -, _, -, _, -, h⟩ := h
    cases h
    exact ⟨rfl, rfl, rfl⟩
  | addMember tenant id group user assignedAt expiresAt =>
    refine Directory.add_hasEffect env e fun s s' h => ?_
    simp only [Store.insertMember?, Option.bind_eq_bind, Option.bind_eq_some_iff] at h
    obtain ⟨_, -, _, -, _, -, _, -, _, -, _, -, h⟩ := h
    cases h
    exact ⟨rfl, rfl, rfl⟩
  | moveClock setTo micros => exact (hclock setTo micros rfl).elim

end Operation

end Entitlements
