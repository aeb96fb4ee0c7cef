import Entitlements.Proofs.Access.Verdict
import Entitlements.Store.Access

/-!
Which rights reach a user. The tables are walked in an order, row by row, but what is reached is a
matter of which rows there are: an assignment in force leads to its role, if there is one, and the
role to those of its policies that are there. `Reaches` says this for one role and one policy, and
the grants that the walk collects are exactly the ways in which it holds.

So everything that is decided by searching the grants can be said, and proved, by reachability
alone, and two stores that agree up to the order of their rows decide alike.
-/

namespace Entitlements

open Time

/-! ### Assignments in force -/

/-- Does an assignment give a user of a tenant rights at a time, wherever it applies? -/
structure AssignmentRow.InForce (a : AssignmentRow) (tenant user : Given) (now : Instant) :
    Prop where
  tenant : some a.tenant = tenant
  user : some a.userId = user
  active : a.status = AssignmentStatus.active.text
  ahead : ∀ t, a.expiresAt = some t → now < t

theorem AssignmentRow.isLive_iff {a : AssignmentRow} {now : Instant} :
    a.isLive now = true ↔
      a.status = AssignmentStatus.active.text ∧ ∀ t, a.expiresAt = some t → now < t := by
  simp [isLive, isActive, isAhead_iff]

namespace Store

variable {s s' : Store} {tenant user scope : Given} {now : Instant}

theorem mem_assignmentsOf {a : AssignmentRow} :
    a ∈ s.assignmentsOf tenant user ↔
      a ∈ s.assignments ∧ some a.tenant = tenant ∧ some a.userId = user := by
  simp [assignmentsOf]

theorem mem_liveAssignmentsOf {a : AssignmentRow} :
    a ∈ s.liveAssignmentsOf tenant user now ↔ a ∈ s.assignments ∧ a.InForce tenant user now := by
  rw [liveAssignmentsOf, List.mem_filter, mem_assignmentsOf, AssignmentRow.isLive_iff]
  constructor
  · rintro ⟨⟨ha, ht, hu⟩, hactive, hahead⟩
    exact ⟨ha, ht, hu, hactive, hahead⟩
  · rintro ⟨ha, ht, hu, hactive, hahead⟩
    exact ⟨⟨ha, ht, hu⟩, hactive, hahead⟩

theorem liveAssignmentsOf_isEmpty_iff :
    (s.liveAssignmentsOf tenant user now).isEmpty = true ↔
      ¬∃ a ∈ s.assignments, a.InForce tenant user now := by
  rw [List.isEmpty_iff, List.eq_nil_iff_forall_not_mem]
  simp only [mem_liveAssignmentsOf, not_exists]

/-! ### Reachability -/

/-- Is there an assignment in force at a scope with this role, and is this a policy of the role? -/
def Reaches (s : Store) (tenant user scope : Given) (now : Instant) (role : Role)
    (policy : Policy) : Prop :=
  ∃ a ∈ s.assignments, a.InForce tenant user now ∧ Scope.coversGiven a.scope scope = true ∧
    s.role? tenant (some a.roleKey) = some role ∧
    ∃ key ∈ role.policyKeys, s.policy? tenant (some key) = some policy

theorem mem_grantsOf {a : AssignmentRow} {g : Grant} :
    g ∈ s.grantsOf tenant a ↔
      g.assignment = a.withStatus .active ∧ s.role? tenant (some a.roleKey) = some g.role ∧
        ∃ key ∈ g.role.policyKeys, s.policy? tenant (some key) = some g.policy := by
  unfold grantsOf
  split
  · next hnone => simp [hnone]
  · next role hrole =>
    simp only [List.mem_filterMap, Option.map_eq_some_iff, hrole, Option.some.injEq]
    constructor
    · rintro ⟨key, hkey, policy, hpolicy, rfl⟩
      exact ⟨rfl, rfl, key, hkey, hpolicy⟩
    · rintro ⟨hassignment, rfl, key, hkey, hpolicy⟩
      exact ⟨key, hkey, g.policy, hpolicy, by rw [← hassignment]⟩

theorem mem_grantsWhere {selected : AssignmentRow → Bool} {g : Grant} :
    g ∈ s.grantsWhere tenant user selected now ↔
      ∃ a ∈ s.assignments, a.InForce tenant user now ∧ selected a = true ∧
        g ∈ s.grantsOf tenant a := by
  simp only [grantsWhere, List.mem_flatMap, List.mem_filter, mem_liveAssignmentsOf, and_assoc]

/-- Something holds of the role and policy of a grant exactly when it holds of a pair in reach. -/
theorem exists_grantsAt_iff {p : Role → Policy → Prop} :
    (∃ g ∈ s.grantsAt tenant user scope now, p g.role g.policy) ↔
      ∃ role policy, s.Reaches tenant user scope now role policy ∧ p role policy := by
  simp only [grantsAt, mem_grantsWhere]
  constructor
  · rintro ⟨g, ⟨a, ha, hforce, hcov, hg⟩, hp⟩
    obtain ⟨-, hrole, key, hkey, hpolicy⟩ := mem_grantsOf.1 hg
    exact ⟨g.role, g.policy, ⟨a, ha, hforce, hcov, hrole, key, hkey, hpolicy⟩, hp⟩
  · rintro ⟨role, policy, ⟨a, ha, hforce, hcov, hrole, key, hkey, hpolicy⟩, hp⟩
    refine ⟨⟨a.withStatus .active, role, policy⟩, ⟨a, ha, hforce, hcov, ?_⟩, hp⟩
    exact mem_grantsOf.2 ⟨rfl, hrole, key, hkey, hpolicy⟩

/-- Beyond the wildcard, enumeration and evaluation look at the same grants. -/
theorem grantsFor_eq_grantsAt {scope : String} (h : scope ≠ "*") :
    s.grantsFor tenant user (some scope) now = s.grantsAt tenant user (some scope) now := by
  have hsel : AssignmentRow.reaches (some scope) =
      fun a => Scope.coversGiven a.scope (some scope) := by
    funext a
    simp [AssignmentRow.reaches, h]
  rw [grantsFor, grantsAt, hsel]

/-! ### Verdicts by reachability -/

/-- Is a permission matched by the deny list of a policy in reach? -/
def Denies (s : Store) (tenant user scope : Given) (now : Instant) (permission : Given) : Prop :=
  ∃ role policy, s.Reaches tenant user scope now role policy ∧
    ∃ pattern ∈ policy.deny, Pattern.isMatchGiven permission pattern = true

/-- Is a permission matched by the allow list of a policy in reach? -/
def Allows (s : Store) (tenant user scope : Given) (now : Instant) (permission : Given) : Prop :=
  ∃ role policy, s.Reaches tenant user scope now role policy ∧
    ∃ pattern ∈ policy.allow, Pattern.isMatchGiven permission pattern = true

variable {permission : Given}

theorem exists_grantsAt_denies_iff :
    (∃ g ∈ s.grantsAt tenant user scope now, g.denies permission = true) ↔
      s.Denies tenant user scope now permission := by
  simp only [Grant.denies_iff]
  exact exists_grantsAt_iff
    (p := fun _ policy => ∃ d ∈ policy.deny, Pattern.isMatchGiven permission d = true)

theorem exists_grantsAt_allows_iff :
    (∃ g ∈ s.grantsAt tenant user scope now, g.allows permission = true) ↔
      s.Allows tenant user scope now permission := by
  simp only [Grant.allows_iff]
  exact exists_grantsAt_iff
    (p := fun _ policy => ∃ d ∈ policy.allow, Pattern.isMatchGiven permission d = true)

/-- Without an assignment in force there are no grants, so the early answer is the searched one as
far as access goes. -/
theorem isAllowed_verdict :
    (s.verdict tenant user permission scope now).isAllowed =
      (Verdict.ofGrants (s.grantsAt tenant user scope now) permission).isAllowed := by
  unfold verdict
  split
  · next hempty =>
    have hnone : s.grantsAt tenant user scope now = [] := by
      rw [grantsAt, grantsWhere, List.isEmpty_iff.1 hempty]
      rfl
    rw [hnone]
    rfl
  · rfl

theorem isAllowed_verdict_iff :
    (s.verdict tenant user permission scope now).isAllowed = true ↔
      ¬s.Denies tenant user scope now permission ∧
        s.Allows tenant user scope now permission := by
  rw [isAllowed_verdict, Verdict.isAllowed_ofGrants, exists_grantsAt_allows_iff,
    ← exists_grantsAt_denies_iff]
  simp

theorem verdict_of_ne_noAssignments
    (h : s.verdict tenant user permission scope now ≠ .noAssignments) :
    s.verdict tenant user permission scope now =
      Verdict.ofGrants (s.grantsAt tenant user scope now) permission := by
  unfold verdict at h ⊢
  split
  · next hempty => simp [hempty] at h
  · rfl

/-- The verdict on what is denied names a pair in reach that denies it. -/
theorem verdict_of_denies (h : s.Denies tenant user scope now permission) :
    ∃ role policy, s.Reaches tenant user scope now role policy ∧
      (∃ pattern ∈ policy.deny, Pattern.isMatchGiven permission pattern = true) ∧
      s.verdict tenant user permission scope now = .denied role.key policy.key := by
  obtain ⟨g, hg, hden⟩ := exists_grantsAt_denies_iff.2 h
  obtain ⟨roleKey, policyKey, hv⟩ := Verdict.exists_ofGrants_eq_denied hg hden
  obtain ⟨g', hg', hden', rfl, rfl⟩ := Verdict.ofGrants_eq_denied hv
  have hne : (s.liveAssignmentsOf tenant user now).isEmpty = false := by
    obtain ⟨a, ha, hforce, -⟩ := mem_grantsWhere.1 hg
    cases hempty : (s.liveAssignmentsOf tenant user now).isEmpty
    · rfl
    · exact absurd ⟨a, ha, hforce⟩ (liveAssignmentsOf_isEmpty_iff.1 hempty)
  obtain ⟨role, policy, hreach, hmatch, hr, hp⟩ := exists_grantsAt_iff
    (p := fun role policy => (∃ d ∈ policy.deny, Pattern.isMatchGiven permission d = true) ∧
      g'.role.key = role.key ∧ g'.policy.key = policy.key)
    |>.1 ⟨g', hg', Grant.denies_iff.1 hden', rfl, rfl⟩
  refine ⟨role, policy, hreach, hmatch, ?_⟩
  rw [verdict, hne, ← hr, ← hp, ← hv]
  rfl

/-- The verdict that gives access names a pair in reach that allows it. -/
theorem verdict_of_isAllowed
    (h : (s.verdict tenant user permission scope now).isAllowed = true) :
    ∃ role policy, s.Reaches tenant user scope now role policy ∧
      (∃ pattern ∈ policy.allow, Pattern.isMatchGiven permission pattern = true) ∧
      s.verdict tenant user permission scope now = .allowed role.key policy.key := by
  obtain ⟨roleKey, policyKey, hv⟩ := Verdict.isAllowed_iff.1 h
  have hof : s.verdict tenant user permission scope now =
      Verdict.ofGrants (s.grantsAt tenant user scope now) permission :=
    verdict_of_ne_noAssignments (by simp [hv])
  obtain ⟨g, hg, hallow, hr, hp⟩ := Verdict.ofGrants_eq_allowed (hof.symm.trans hv)
  obtain ⟨role, policy, hreach, hmatch, hr', hp'⟩ := exists_grantsAt_iff
    (p := fun role policy => (∃ d ∈ policy.allow, Pattern.isMatchGiven permission d = true) ∧
      g.role.key = role.key ∧ g.policy.key = policy.key)
    |>.1 ⟨g, hg, Grant.allows_iff.1 hallow, rfl, rfl⟩
  exact ⟨role, policy, hreach, hmatch, by rw [hv, ← hr', ← hp', hr, hp]⟩

end Store

end Entitlements
