import Entitlements.Proofs.Engine.Outcome
import Entitlements.Proofs.Store.Reach
import Entitlements.Evaluation

/-!
What a decision says. An evaluation writes nothing and fails only where the tenant guard does, so it
comes to the verdict of the store at the time of the clock. That verdict is settled by which pairs
of a role and a policy are in reach: denying is global, what is named is what decided, and the order
in which anything is stored has no influence on whether access is given.
-/

namespace Entitlements

open Time Call

/-! ### Outcomes -/

@[simp] theorem Evaluation.outcome_evaluate (tenant user permission scope : Given)
    (env : Environment) (e : Engine) :
    (evaluate tenant user permission scope).outcome env e =
      ((env.settings.checkTenant tenant).map fun _ =>
        ⟨e.store.verdict tenant user permission scope e.clock, e.clock⟩, e) := by
  simp only [evaluate, outcome_bind, outcome_requireTenant]
  cases env.settings.checkTenant tenant <;> simp [Except.map]

/-- Past the tenant guard an evaluation answers, and leaves everything as it was. -/
theorem Evaluation.outcome_evaluate_of_checked {env : Environment} {tenant : Given}
    (ht : env.settings.checkTenant tenant = .ok ()) (user permission scope : Given) (e : Engine) :
    (evaluate tenant user permission scope).outcome env e =
      (.ok ⟨e.store.verdict tenant user permission scope e.clock, e.clock⟩, e) := by
  rw [outcome_evaluate, ht]
  rfl

theorem Settings.checkTenant_some (settings : Settings) {tenant : String} (h : tenant ≠ "") :
    settings.checkTenant (some tenant) = .ok () := by
  simp [checkTenant, Given.nonempty?, h]

/-! ### Stores that grant the same -/

/-- Do two rows give the same role to the same user in the same way? -/
structure AssignmentRow.Agrees (a b : AssignmentRow) : Prop where
  tenant : a.tenant = b.tenant
  user : a.userId = b.userId
  role : a.roleKey = b.roleKey
  scope : a.scope = b.scope
  status : a.status = b.status
  expiresAt : a.expiresAt = b.expiresAt

theorem AssignmentRow.Agrees.inForce {a b : AssignmentRow} (h : a.Agrees b) {tenant user : Given}
    {now : Instant} (ha : a.InForce tenant user now) : b.InForce tenant user now where
  tenant := h.tenant ▸ ha.tenant
  user := h.user ▸ ha.user
  active := h.status ▸ ha.active
  ahead := h.expiresAt ▸ ha.ahead

/-- Do two stores hold the same rights of a tenant, up to the order of the assignments, of the
policy keys of each role and of the patterns of each policy, and up to repetitions of them? When and
under which identifier an assignment was made, which is what they are ordered by, may differ. -/
structure Store.SameRights (s s' : Store) (tenant : Given) : Prop where
  forth : ∀ a ∈ s.assignments, ∃ b ∈ s'.assignments, a.Agrees b
  back : ∀ b ∈ s'.assignments, ∃ a ∈ s.assignments, b.Agrees a
  roles : ∀ key, Option.Rel (fun r r' => ∀ k, k ∈ r.policyKeys ↔ k ∈ r'.policyKeys)
    (s.role? tenant key) (s'.role? tenant key)
  policies : ∀ key, Option.Rel
    (fun p p' => (∀ k, k ∈ p.allow ↔ k ∈ p'.allow) ∧ ∀ k, k ∈ p.deny ↔ k ∈ p'.deny)
    (s.policy? tenant key) (s'.policy? tenant key)

namespace Store

variable {s s' : Store} {tenant user scope : Given} {now : Instant}

theorem SameRights.symm (h : s.SameRights s' tenant) : s'.SameRights s tenant where
  forth := h.back
  back := h.forth
  roles key := by
    have hkey := h.roles key
    revert hkey
    rcases s.role? tenant key with _ | r <;> rcases s'.role? tenant key with _ | r' <;>
      simp +contextual
  policies key := by
    have hkey := h.policies key
    revert hkey
    rcases s.policy? tenant key with _ | r <;> rcases s'.policy? tenant key with _ | r' <;>
      simp +contextual

/-- Whatever is in reach in one store has a counterpart with the same patterns in the other. -/
theorem SameRights.reaches (h : s.SameRights s' tenant) {role : Role} {policy : Policy}
    (hr : s.Reaches tenant user scope now role policy) :
    ∃ role' policy', s'.Reaches tenant user scope now role' policy' ∧
      (∀ k, k ∈ policy.allow ↔ k ∈ policy'.allow) ∧
        ∀ k, k ∈ policy.deny ↔ k ∈ policy'.deny := by
  obtain ⟨a, ha, hforce, hcov, hrole, key, hkey, hpolicy⟩ := hr
  obtain ⟨b, hb, hab⟩ := h.forth a ha
  -- The counterpart of a role or policy that is there is there.
  have hroles := h.roles (some a.roleKey)
  rw [hrole] at hroles
  have hpolicies := h.policies (some key)
  rw [hpolicy] at hpolicies
  rcases hrole' : s'.role? tenant (some a.roleKey) with _ | role'
  · rw [hrole'] at hroles
    cases hroles
  · rcases hpolicy' : s'.policy? tenant (some key) with _ | policy'
    · rw [hpolicy'] at hpolicies
      cases hpolicies
    · rw [hrole'] at hroles
      rw [hpolicy'] at hpolicies
      obtain ⟨hkeys⟩ := hroles
      obtain ⟨hallow, hdeny⟩ := hpolicies
      refine ⟨role', policy', ⟨b, hb, hab.inForce hforce, ?_, ?_, key, ?_, hpolicy'⟩, hallow,
        hdeny⟩
      · rw [← hab.scope]
        exact hcov
      · rw [← hab.role]
        exact hrole'
      · exact (hkeys key).1 hkey

theorem SameRights.denies (h : s.SameRights s' tenant) {permission : Given}
    (hd : s.Denies tenant user scope now permission) :
    s'.Denies tenant user scope now permission := by
  obtain ⟨role, policy, hr, pattern, hmem, hm⟩ := hd
  obtain ⟨role', policy', hr', -, hdeny⟩ := h.reaches hr
  exact ⟨role', policy', hr', pattern, (hdeny pattern).1 hmem, hm⟩

theorem SameRights.allows (h : s.SameRights s' tenant) {permission : Given}
    (ha : s.Allows tenant user scope now permission) :
    s'.Allows tenant user scope now permission := by
  obtain ⟨role, policy, hr, pattern, hmem, hm⟩ := ha
  obtain ⟨role', policy', hr', hallow, -⟩ := h.reaches hr
  exact ⟨role', policy', hr', pattern, (hallow pattern).1 hmem, hm⟩

theorem SameRights.isAllowed_verdict (h : s.SameRights s' tenant) (permission : Given) :
    (s.verdict tenant user permission scope now).isAllowed =
      (s'.verdict tenant user permission scope now).isAllowed := by
  have hdenies : s.Denies tenant user scope now permission ↔
      s'.Denies tenant user scope now permission := ⟨h.denies, h.symm.denies⟩
  have hallows : s.Allows tenant user scope now permission ↔
      s'.Allows tenant user scope now permission := ⟨h.allows, h.symm.allows⟩
  rw [Bool.eq_iff_iff, isAllowed_verdict_iff, isAllowed_verdict_iff, hdenies, hallows]

end Store

/-! ### Reasons -/

/-- A text that starts with another letter is not the reason for a missing assignment. -/
theorem ne_noAssignments_of_head? {start rest : String} (c : Char)
    (hp : start.toList.head? = some c) (hc : c ≠ 'n') :
    start ++ rest ≠ "no active role assignments" := by
  intro h
  have hfirst : (start ++ rest).toList.head? = some 'n' := by
    rw [h]
    decide
  rw [String.toList_append, List.head?_append, hp] at hfirst
  cases hfirst
  exact hc rfl

/-- The words for a missing assignment stand for nothing else. -/
theorem Verdict.reason_eq_iff {v : Verdict} :
    v.reason = "no active role assignments" ↔ v = .noAssignments := by
  constructor
  · intro h
    cases v with
    | noAssignments => rfl
    | noMatch =>
      have hne : ("no matching permission found" : String) ≠ "no active role assignments" := by simp
      exact absurd h hne
    | denied role policy => exact absurd h (ne_noAssignments_of_head? 'd' (by decide) (by decide))
    | allowed role policy => exact absurd h (ne_noAssignments_of_head? 'a' (by decide) (by decide))
  · rintro rfl
    rfl

theorem Store.verdict_eq_noAssignments_iff {s : Store} {tenant user permission scope : Given}
    {now : Instant} :
    s.verdict tenant user permission scope now = .noAssignments ↔
      ¬∃ a ∈ s.assignments, a.InForce tenant user now := by
  rw [← liveAssignmentsOf_isEmpty_iff, verdict]
  split
  · next hempty => simp [hempty]
  · next hsome => simp [hsome, Verdict.ofGrants_ne_noAssignments]

/-! ### Denying is global -/

/-- Access is given exactly when some policy in reach allows the permission and none denies it; a
denial and a permission name a pair in reach that decided; the reason tells whether there was any
assignment at all; and stores with the same rights in any order agree about the access. -/
theorem Evaluation.deny_is_global (env : Environment) (e : Engine) {tenant : String}
    (ht : tenant ≠ "") (user permission scope : Given) :
    ∃ v, (evaluate (some tenant) user permission scope).outcome env e = (.ok ⟨v, e.clock⟩, e) ∧
      (v.isAllowed = true ↔
        ¬e.store.Denies (some tenant) user scope e.clock permission ∧
          e.store.Allows (some tenant) user scope e.clock permission) ∧
      (e.store.Denies (some tenant) user scope e.clock permission →
        ∃ role policy, e.store.Reaches (some tenant) user scope e.clock role policy ∧
          (∃ pattern ∈ policy.deny, Pattern.isMatchGiven permission pattern = true) ∧
          v = .denied role.key policy.key) ∧
      (v.isAllowed = true →
        ∃ role policy, e.store.Reaches (some tenant) user scope e.clock role policy ∧
          (∃ pattern ∈ policy.allow, Pattern.isMatchGiven permission pattern = true) ∧
          v = .allowed role.key policy.key) ∧
      (v.reason = "no active role assignments" ↔
        ¬∃ a ∈ e.store.assignments, a.InForce (some tenant) user e.clock) ∧
      ∀ e' : Engine, e'.clock = e.clock → e.store.SameRights e'.store (some tenant) →
        ∃ v', (evaluate (some tenant) user permission scope).outcome env e' =
            (.ok ⟨v', e'.clock⟩, e') ∧ v'.isAllowed = v.isAllowed := by
  refine ⟨e.store.verdict (some tenant) user permission scope e.clock, ?_,
    Store.isAllowed_verdict_iff, Store.verdict_of_denies, Store.verdict_of_isAllowed, ?_, ?_⟩
  · rw [outcome_evaluate, Settings.checkTenant_some _ ht]
    rfl
  · rw [Verdict.reason_eq_iff, Store.verdict_eq_noAssignments_iff]
  · -- Which store is asked does not matter, since reachability does not see order.
    intro e' hclock hsame
    refine ⟨e'.store.verdict (some tenant) user permission scope e'.clock, ?_, ?_⟩
    · rw [outcome_evaluate, Settings.checkTenant_some _ ht]
      rfl
    · rw [hclock]
      exact (hsame.isAllowed_verdict permission).symm

/-- A policy that allows some patterns and denies others, and nothing else. -/
def Policy.plain (key : String) (allow deny : List String) : Policy :=
  { id := key, key, allow, deny, risk := .low, conditions := none, displayName := key
    description := "", isSystem := false }

def Role.plain (key : String) (policyKeys : List String) : Role :=
  { id := key, key, policyKeys, risk := .low, displayName := key, description := "", tags := []
    isSystem := false }

/-- An assignment without an end, made at the beginning of time. -/
def AssignmentRow.plain (tenant id userId roleKey scope : String) : AssignmentRow :=
  { tenant, id, userId, roleKey, scope, status := AssignmentStatus.active.text
    grantedBy := "system", grantedAt := ⟨0⟩, expiresAt := none, reason := none, updatedBy := none
    updatedAt := ⟨0⟩ }

/-- A user whose first role allows the export of reports and whose last one denies it. -/
def Store.opposed : Store :=
  { Store.empty with
    policies := [
      ⟨"acme", .plain "exports" ["reports.export.execute"] [], none, none, ⟨0⟩⟩,
      ⟨"acme", .plain "lockdown" [] ["reports.*.*"], none, none, ⟨0⟩⟩]
    roles := [
      ⟨"acme", .plain "editor" ["exports"], none, none, ⟨0⟩⟩,
      ⟨"acme", .plain "auditor" ["exports", "lockdown"], none, none, ⟨0⟩⟩]
    assignments := [
      .plain "acme" "ra-0001" "alice" "editor" "tenant:*",
      .plain "acme" "ra-0002" "alice" "auditor" "customer:7"] }

theorem Store.opposed_denies (now : Instant) :
    Store.opposed.Denies (some "acme") (some "alice") (some "customer:7") now
      (some "reports.export.execute") := by
  refine ⟨.plain "auditor" ["exports", "lockdown"], .plain "lockdown" [] ["reports.*.*"], ?_,
    "reports.*.*", List.mem_singleton_self _, by decide⟩
  refine ⟨.plain "acme" "ra-0002" "alice" "auditor" "customer:7", ?_, ?_, rfl, rfl, "lockdown",
    ?_, rfl⟩
  · exact List.mem_cons_of_mem _ (List.mem_singleton_self _)
  · exact ⟨rfl, rfl, rfl, nofun⟩
  · exact List.mem_cons_of_mem _ (List.mem_singleton_self _)

theorem Evaluation.last_deny_beats_first_allow :
    "acme" ≠ "" ∧ ∃ role policy,
      (evaluate (some "acme") (some "alice") (some "reports.export.execute")
          (some "customer:7")).outcome Environment.plain
          { Engine.start ⟨0⟩ false with store := Store.opposed } =
        (.ok ⟨.denied role policy, ⟨0⟩⟩,
          { Engine.start ⟨0⟩ false with store := Store.opposed }) := by
  have hne : "acme" ≠ "" := by decide
  obtain ⟨v, hv, -, hdenied, -⟩ := deny_is_global Environment.plain
    { Engine.start ⟨0⟩ false with store := Store.opposed } hne (some "alice")
    (some "reports.export.execute") (some "customer:7")
  obtain ⟨role, policy, -, -, rfl⟩ := hdenied (Store.opposed_denies ⟨0⟩)
  exact ⟨hne, role.key, policy.key, hv⟩

end Entitlements
