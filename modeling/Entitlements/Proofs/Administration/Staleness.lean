import Entitlements.Proofs.Administration.FollowUp
import Entitlements.Proofs.Engine.Writing

/-!
What administration leaves in the cache. A step `MarksStale` if every bundle it leaves unmarked was
there before, and the grants of its user are what they were. Each of the calls does, succeed or
fail: a refused call has changed nothing, and what a call has changed concerns nobody but those
whose bundles its follow-up marks. Creating a policy or a role marks nothing, and need not, as long
as references are good.
-/

namespace Entitlements

open Time Call

/-- Has a step marked all the bundles it has made stale? -/
structure Engine.MarksStale (e e' : Engine) : Prop where
  clock : e'.clock = e.clock
  users : ∀ t u, (e.store.user? t u).isSome = true → (e'.store.user? t u).isSome = true
  linked : e.store.Linked e.clock → e'.store.Linked e.clock
  kept : ∀ a ∈ e.store.assignments, ∃ b ∈ e'.store.assignments,
    b.tenant = a.tenant ∧ b.userId = a.userId ∧ b.expiresAt = a.expiresAt
  cache : e.store.Linked e.clock → ∀ r ∈ e'.store.cache, r.invalidatedAt = none →
    r ∈ e.store.cache ∧ ∀ selected,
      e'.store.grantsWhere (some r.tenant) (some r.userId) selected e.clock =
        e.store.grantsWhere (some r.tenant) (some r.userId) selected e.clock

namespace Engine.MarksStale

variable {e e' e'' : Engine}

theorem refl (e : Engine) : e.MarksStale e where
  clock := rfl
  users _ _ h := h
  linked h := h
  kept a ha := ⟨a, ha, rfl, rfl, rfl⟩
  cache _ _ hr _ := ⟨hr, fun _ => rfl⟩

/-- A change together with marks on all that it concerns. -/
theorem of_changes {stale : String → String → Prop} (hclock : e'.clock = e.clock)
    (hchanges : e.store.Changes e'.store e.clock stale)
    (hmarks : e'.Marks e'' fun r => ¬stale r.tenant r.userId) : e.MarksStale e'' where
  clock := hmarks.clock.trans hclock
  users t u hu := by
    rw [Store.user?, hmarks.users]
    exact hchanges.users t u hu
  linked hl := (hchanges.linked hl).of_tables hmarks.policies hmarks.roles hmarks.assignments
  kept a ha := by
    rw [hmarks.assignments]
    exact hchanges.kept a ha
  cache hl r hr hopen := by
    obtain ⟨hr', hspared⟩ := hmarks.cache r hr hopen
    rw [hchanges.cache] at hr'
    refine ⟨hr', fun selected => ?_⟩
    rw [← hchanges.grants hl r.tenant r.userId hspared selected]
    exact Store.grantsWhere_of_tables hmarks.policies hmarks.roles hmarks.assignments selected

/-- Marking alone makes nothing stale. -/
theorem of_marks {kept : CacheRow → Prop} (h : e.Marks e' kept) : e.MarksStale e' :=
  of_changes rfl (Store.Changes.refl e.store e.clock) (h.mono fun _ _ => id)

/-- A change that concerns nobody needs no marks. -/
theorem of_invisible (hclock : e'.clock = e.clock)
    (h : e.store.Changes e'.store e.clock fun _ _ => False) : e.MarksStale e' :=
  of_changes hclock h ((Engine.Marks.refl e').mono fun _ _ => id)

/-- A write, and then marks on all that it concerns; nothing happens if the write fails. -/
theorem of_alters {env : Environment} {stale : String → String → Prop} {x : Call α}
    {f : α → Call β} (hx : x.Alters env e stale)
    (hf : ∀ a e₁, x.outcome env e = (.ok a, e₁) →
      e₁.Marks ((f a).after env e₁) fun r => ¬stale r.tenant r.userId) :
    e.MarksStale ((x >>= f).after env e) := by
  obtain ⟨hclock, hchanges, hfailed⟩ := hx
  rw [after, outcome_bind]
  rw [after] at hclock hchanges hfailed
  rcases hr : x.outcome env e with ⟨failure | a, e₁⟩
  · rw [hr] at hclock hfailed
    have hstore : e₁.store = e.store := hfailed failure rfl
    have hsame : e.store.Changes e₁.store e.clock fun _ _ => False := by
      rw [hstore]
      exact Store.Changes.refl e.store e.clock
    exact of_invisible hclock hsame
  · rw [hr] at hclock hchanges
    exact of_changes hclock hchanges (hf a e₁ hr)

end Engine.MarksStale

namespace Administration

/-! ### What look-ups answer -/

section

variable {env : Environment} {e : Engine} {tenant key : Given}

/-- A policy is found under its own key. -/
theorem key_of_policy? {s : Store} {p : Policy} (h : s.policy? tenant key = some p) :
    some p.key = key := by
  obtain ⟨row, hrow, rfl⟩ := Option.map_eq_some_iff.1 h
  exact (Store.of_policyRow? hrow).2.2

/-- The keys that were looked up are there. -/
theorem found_of_requirePolicies {keys : Json} {found : List String}
    (h : (do
      let keys ← do (← membersOf keys).mapM keyOf
      (distinct keys).mapM fun key =>
        (·.key) <$> lookedUp env tenant (.policyNotFound key) (e.store.policy? tenant key)) =
          Except.ok found) :
    ∀ key ∈ found, (e.store.policyRow? tenant (some key)).isSome = true := by
  intro key hkey
  obtain ⟨members, -, h⟩ := bind_eq_ok_iff.1 h
  obtain ⟨given, -, h⟩ := bind_eq_ok_iff.1 h
  obtain ⟨asked, -, hasked⟩ := exists_of_mem_mapM h hkey
  rcases hp : lookedUp env tenant (.policyNotFound asked) (e.store.policy? tenant asked) with _ | p
  · rw [hp] at hasked
    cases hasked
  · rw [hp] at hasked
    cases hasked
    obtain ⟨-, hfound⟩ := of_lookedUp hp
    rw [key_of_policy? hfound]
    exact Store.isSome_policyRow? hfound

theorem key_of_role? {s : Store} {r : Role} (h : s.role? tenant key = some r) :
    some r.key = key := by
  obtain ⟨row, hrow, rfl⟩ := Option.map_eq_some_iff.1 h
  exact (Store.of_roleRow? hrow).2.2

theorem key_of_newPolicyDraft {p : NewPolicy} {d : PolicyDraft}
    (h : newPolicyDraft p = .ok d) : d.key = p.key := by
  obtain ⟨allow, -, h⟩ := bind_eq_ok_iff.1 h
  obtain ⟨deny, -, h⟩ := bind_eq_ok_iff.1 h
  obtain ⟨risk, -, h⟩ := bind_eq_ok_iff.1 h
  obtain ⟨conditions, -, h⟩ := bind_eq_ok_iff.1 h
  cases h
  rfl

theorem key_of_changedPolicyDraft {c : PolicyChange} {current : Policy} {d : PolicyDraft}
    (h : changedPolicyDraft c current = .ok d) : d.key = some current.key := by
  obtain ⟨allow, -, h⟩ := bind_eq_ok_iff.1 h
  obtain ⟨deny, -, h⟩ := bind_eq_ok_iff.1 h
  obtain ⟨risk, -, h⟩ := bind_eq_ok_iff.1 h
  obtain ⟨conditions, -, h⟩ := bind_eq_ok_iff.1 h
  cases h
  rfl

/-- A limit that was found to lie ahead is an instant. -/
theorem instant_of_checkExpiry {expiresAt : Option Stamp} {now : Instant}
    (h : checkExpiry expiresAt now = .ok ()) :
    ∀ stamp, expiresAt = some stamp → ∃ limit, stamp.instant = .ok limit := by
  rintro stamp rfl
  obtain ⟨limit, hlimit, -⟩ := bind_eq_ok_iff.1 h
  exact ⟨limit, hlimit⟩

/-- An assignment that was looked up shows the user of its row. -/
theorem of_assignment_answer {id : Given} {current : Assignment}
    (h : (env.settings.checkTenant tenant).bind (fun _ =>
      (e.store.assignmentRow? tenant id).mapM AssignmentRow.record) = .ok (some current)) :
    env.settings.checkTenant tenant = .ok () ∧ ∃ row,
      e.store.assignmentRow? tenant id = some row ∧ current.userId = row.userId := by
  obtain ⟨_, hg, h⟩ := bind_eq_ok_iff.1 h
  refine ⟨hg, ?_⟩
  rcases hrow : e.store.assignmentRow? tenant id with _ | row
  · rw [hrow] at h
    cases h
  · refine ⟨row, rfl, ?_⟩
    rw [hrow, Option.mapM_some] at h
    obtain ⟨record, hrecord, h⟩ := bind_eq_ok_iff.1 h
    cases h
    rw [AssignmentRow.record] at hrecord
    rcases hstatus : AssignmentStatus.parse row.status with failure | status
    · rw [hstatus] at hrecord
      cases hrecord
    · rw [hstatus] at hrecord
      cases hrecord
      rfl

end

/-! ### Policies -/

section

variable {env : Environment} (hb : env.hasBundles = true) (hc : env.canInvalidate = true)

include hb hc

/-- A write with its follow-up. -/
theorem marksStale_of_alters {e : Engine} {tenant : Given}
    (hg : env.settings.checkTenant tenant = .ok ()) {stale : Stale} {x : Call α}
    (hx : x.Alters env e (stale.Covers tenant)) {event : α → Event}
    (hevent : ∀ a, (event a).tenant = tenant) (reason : String) (actor : Given)
    (answer : α → β) :
    e.MarksStale
      ((do let a ← x; followUp (event a) stale reason actor; return answer a).after env e) := by
  refine .of_alters hx fun a e _ => ?_
  have hg' : env.settings.checkTenant (event a).tenant = .ok () := by rw [hevent a, hg]
  have hmarks := followUp_marks (e := e) hb hc (event a) hg' stale reason actor
  rw [hevent a] at hmarks
  exact hmarks.bind fun _ e => .refl e

variable (e : Engine) (tenant key actor : Given)

theorem createPolicy_marksStale (p : NewPolicy) :
    e.MarksStale ((createPolicy tenant p actor).after env e) := by
  refine after_bind_of_outcome (AccessStore.outcome_policy? tenant p.key env e) (.refl e)
    fun found hfound => ?_
  obtain ⟨hg, rfl⟩ := eq_ok_of_map hfound
  refine after_of_guard (.refl e) fun hnew => ?_
  refine after_bind_of_outcome (outcome_ofExcept env e _) (.refl e) fun draft hdraft => ?_
  refine marksStale_of_alters hb hc hg ?_ (fun _ => rfl) _ _ id
  -- Nothing is marked, which is right because the key was not there.
  refine (AccessStore.savePolicy_alters env e tenant actor draft).mono fun t _ h => hnew ?_
  rw [Store.policy?, Option.isSome_map, ← key_of_newPolicyDraft hdraft]
  exact h.2

theorem updatePolicy_marksStale (c : PolicyChange) :
    e.MarksStale ((updatePolicy tenant key c actor).after env e) := by
  refine after_bind_of_outcome (outcome_policy tenant key env e) (.refl e)
    fun current hcurrent => ?_
  obtain ⟨hg, -⟩ := of_lookedUp hcurrent
  refine after_of_guard (.refl e) fun _ => ?_
  refine after_bind_of_outcome (outcome_ofExcept env e _) (.refl e) fun draft _ => ?_
  refine marksStale_of_alters hb hc hg ?_ (fun _ => rfl) _ _ id
  exact (AccessStore.savePolicy_alters env e tenant actor draft).mono fun _ _ h => h.1

theorem deletePolicy_marksStale :
    e.MarksStale ((deletePolicy tenant key actor).after env e) := by
  refine after_bind_of_outcome (outcome_policy tenant key env e) (.refl e)
    fun current hcurrent => ?_
  obtain ⟨hg, -⟩ := of_lookedUp hcurrent
  refine after_of_guard (.refl e) fun _ => ?_
  refine after_bind_of_outcome (AccessStore.outcome_rolesUsing tenant key env e) (.refl e)
    fun roles hroles => ?_
  obtain ⟨-, rfl⟩ := eq_ok_of_map hroles
  refine after_of_guard (.refl e) fun hfree => ?_
  have hnone : e.store.rolesUsing tenant key = [] := by simpa using hfree
  refine .of_alters (AccessStore.removePolicy_alters env e tenant hnone) fun _ e _ => ?_
  exact followUp_marks hb hc _ hg .tenant _ actor

/-! ### Roles -/

theorem createRole_marksStale (r : NewRole) :
    e.MarksStale ((createRole tenant r actor).after env e) := by
  refine after_bind_of_outcome (AccessStore.outcome_role? tenant r.key env e) (.refl e)
    fun found hfound => ?_
  obtain ⟨hg, rfl⟩ := eq_ok_of_map hfound
  refine after_of_guard (.refl e) fun hnew => ?_
  refine after_bind_of_outcome (outcome_requirePolicies tenant env e _) (.refl e)
    fun policyKeys hkeys => ?_
  refine after_bind_of_outcome (outcome_ofExcept env e _) (.refl e) fun risk _ => ?_
  refine after_bind_of_outcome (outcome_ofExcept env e _) (.refl e) fun tags _ => ?_
  refine marksStale_of_alters hb hc hg ?_ (fun _ => rfl) _ _ id
  refine (AccessStore.saveRole_alters env e tenant actor ?_).mono fun t _ h => hnew ?_
  · exact fun _ => found_of_requirePolicies hkeys
  · rw [Store.role?, Option.isSome_map]
    exact h.2

theorem updateRole_marksStale (c : RoleChange) :
    e.MarksStale ((updateRole tenant key c actor).after env e) := by
  refine after_bind_of_outcome (outcome_role tenant key env e) (.refl e) fun current hcurrent => ?_
  obtain ⟨hg, hcurrent⟩ := of_lookedUp hcurrent
  refine after_of_guard (.refl e) fun _ => ?_
  have hsave (policyKeys : List String) (hkeys : e.store.Linked e.clock → ∀ key ∈ policyKeys,
      (e.store.policyRow? tenant (some key)).isSome = true) :
      e.MarksStale
        ((do
          let risk ← ofExcept (replacing c.risk current.risk (RiskLevel.parse · .low))
          let tags ← ofExcept (replacing c.tags current.tags tags)
          let saved ← AccessStore.saveRole tenant
            { key := some current.key, policyKeys, risk
              displayName := some (c.displayName.getD current.displayName)
              description := c.description.getD current.description, tags
              isSystem := current.isSystem } actor
          followUp
            (roleEvent .roleUpdated tenant key "UPDATE" actor [("fields", .ofTexts c.fields)])
            .tenant ("Role " ++ key.mention ++ " updated") actor
          return saved).after env e) := by
    refine after_bind_of_outcome (outcome_ofExcept env e _) (.refl e) fun risk _ => ?_
    refine after_bind_of_outcome (outcome_ofExcept env e _) (.refl e) fun tags _ => ?_
    refine marksStale_of_alters hb hc hg ?_ (fun _ => rfl) _ _ id
    exact (AccessStore.saveRole_alters env e tenant actor hkeys).mono fun _ _ h => h.1
  dsimp only
  split
  · -- The keys stay, and are good because the role that was found is one of the table's.
    refine after_bind_of_outcome (outcome_pure env e _) (.refl e) fun policyKeys hkeys => ?_
    cases hkeys
    exact hsave _ fun hl key hkey => hl.policy_of_role hcurrent hkey
  · refine after_bind_of_outcome (outcome_requirePolicies tenant env e _) (.refl e)
      fun policyKeys hkeys => ?_
    exact hsave _ fun _ => found_of_requirePolicies hkeys

theorem deleteRole_marksStale :
    e.MarksStale ((deleteRole tenant key actor).after env e) := by
  refine after_bind_of_outcome (outcome_role tenant key env e) (.refl e) fun current hcurrent => ?_
  obtain ⟨hg, -⟩ := of_lookedUp hcurrent
  refine after_of_guard (.refl e) fun _ => ?_
  refine after_bind_of_outcome (AccessStore.outcome_countLive tenant key env e) (.refl e)
    fun active hactive => ?_
  obtain ⟨-, rfl⟩ := eq_ok_of_map hactive
  refine after_of_guard (.refl e) fun hfree => ?_
  have hnone : e.store.countLive tenant key e.clock = 0 := Decidable.not_not.1 hfree
  refine .of_alters (AccessStore.removeRole_alters env e tenant hnone) fun _ e _ => ?_
  exact followUp_marks hb hc _ hg .tenant _ actor

/-! ### Assignments -/

theorem assignRole_marksStale (d : AssignmentDraft) :
    e.MarksStale ((assignRole tenant d).after env e) := by
  refine after_bind_of_outcome (outcome_ofExcept env e _) (.refl e) fun _ _ => ?_
  rw [after_bind_of_ok (outcome_now env e)]
  refine after_bind_of_outcome (outcome_ofExcept env e _) (.refl e) fun _ hahead => ?_
  refine after_bind_of_outcome (outcome_role tenant d.role env e) (.refl e) fun found hfound => ?_
  obtain ⟨hg, hrole⟩ := of_lookedUp hfound
  have hcreate : e.MarksStale
      ((do
        let assignment ← AccessStore.createAssignment tenant d (some e.clock)
        followUp
          (assignmentEvent .roleAssigned tenant (some assignment.id) "CREATE" d.grantedBy d.user
            d.role d.scope d.reason)
          (.user d.user) ("Role " ++ d.role.mention ++ " assigned") d.grantedBy
        return assignment).after env e) := by
    refine marksStale_of_alters hb hc hg ?_ (fun _ => rfl) _ _ id
    exact AccessStore.createAssignment_alters env e tenant (Store.isSome_roleRow? hrole)
      (instant_of_checkExpiry hahead)
  rw [after_bind_of_ok (outcome_read env e)]
  dsimp only
  split
  · refine after_bind_of_outcome
      (AccessStore.outcome_liveAssignment? tenant env e d.user d.role d.scope) (.refl e)
      fun live _ => ?_
    exact after_of_guard (.refl e) fun _ => hcreate
  · exact hcreate

theorem revoke_marksStale (id reason : Given) :
    e.MarksStale ((revoke tenant id actor reason).after env e) := by
  refine after_bind_of_outcome (AccessStore.outcome_assignment? tenant id env e) (.refl e)
    fun found hfound => ?_
  refine after_bind_of_outcome (outcome_orFail env e _ _) (.refl e) fun current hcurrent => ?_
  rw [eq_some_of_elim hcurrent] at hfound
  obtain ⟨hg, row, hrow, huser⟩ := of_assignment_answer hfound
  dsimp only
  split
  · exact .refl e
  rw [after_bind_of_ok (outcome_read env e)]
  split
  · -- Another writer was faster, so there is nothing left to revoke.
    exact .refl e
  · refine .of_alters (AccessStore.revokeStatus_alters env e tenant actor id) fun answer e₁ h => ?_
    have hsome := AccessStore.setStatus_answers env e tenant actor hrow h
    -- The row that was looked up was also the one that was written, so the call goes on.
    obtain ⟨revoked, rfl⟩ := Option.isSome_iff_exists.1 hsome
    have hmarks := followUp_marks (e := e₁) hb hc
      (assignmentEvent .roleRevoked tenant id "REVOKE" actor (some current.userId)
        (some current.roleKey) (some current.scope) reason) hg
      (.user (some current.userId)) ("Role " ++ current.roleKey ++ " revoked") actor
    have hanswered := hmarks.bind (f := fun _ => pure revoked) fun _ e => .refl e
    rw [after_bind_of_ok (outcome_orFail env e₁ _ _)]
    refine hanswered.mono fun r hspared ⟨row', hrow', ht, hu⟩ => hspared ?_
    rw [hrow] at hrow'
    cases hrow'
    refine ⟨?_, ?_⟩
    · rw [ht]
      exact (Store.of_assignmentRow? hrow).2.2
    · rw [hu, huser]

end

end Administration

end Entitlements
