import Entitlements.Administration.Assignments
import Entitlements.Proofs.Access.Enumeration
import Entitlements.Proofs.Evaluation.Decision
import Entitlements.Proofs.Generation.Caching
import Entitlements.Proofs.Permission.DomainSpelling

/-!
What a check of the domain view answers. The view reads an allowed entry as a domain key whichever
way it is spelled, while a deny pattern is held against the text of the entry as it stands. So a
check answers yes exactly when some spelling of the key is listed in reach and not itself denied,
and a denial of the canonical spelling does not count against a listing of another one. An
evaluation of the canonical spelling denies what such a check permits.
-/

namespace Entitlements

open Time Call

variable {grants : List Grant} {key : DomainKey}

/-- The view permits a key when a spelling of it is listed and not denied. -/
theorem DomainTree.permits_effectivePermissions_iff :
    permits (ofPermissions (effectivePermissions grants)) key = true ↔
      key.IsValid ∧ ∃ spelling ∈ key.spellings, (∃ g ∈ grants, spelling ∈ g.policy.allow) ∧
        ∀ g ∈ grants, g.denies (some spelling) = false := by
  rw [permits_ofPermissions]
  constructor
  · rintro ⟨e, he, ha, hkey⟩
    obtain ⟨hvalid, hspelled⟩ := DomainKey.ofPermission?_eq_some_iff.1 hkey
    exact ⟨hvalid, e.permission, hspelled, (allowed_iff he).1 ha⟩
  · rintro ⟨hvalid, spelling, hspelled, ⟨g, hg, hlisted⟩, hnone⟩
    obtain ⟨e, he, rfl⟩ := exists_entry_of_mem_allow hg hlisted
    exact ⟨e, he, (allowed_iff he).2 ⟨⟨g, hg, hlisted⟩, hnone⟩,
      DomainKey.ofPermission?_eq_some_iff.2 ⟨hvalid, hspelled⟩⟩

namespace Store

/-- Is a text listed, as it stands, in the allow list of a policy in reach? -/
def Lists (s : Store) (tenant user scope : Given) (now : Instant) (text : String) : Prop :=
  ∃ role policy, s.Reaches tenant user scope now role policy ∧ text ∈ policy.allow

/-- Is some spelling of a key listed in reach that no deny pattern in reach matches? -/
def OpenSpelling (s : Store) (tenant user scope : Given) (now : Instant) (key : DomainKey)
    (spelling : String) : Prop :=
  spelling ∈ key.spellings ∧ s.Lists tenant user scope now spelling ∧
    ¬s.Denies tenant user scope now (some spelling)

variable {s : Store} {tenant user : Given} {scope : String} {now : Instant}

theorem exists_grantsAt_lists_iff {text : String} :
    (∃ g ∈ s.grantsAt tenant user (some scope) now, text ∈ g.policy.allow) ↔
      s.Lists tenant user (some scope) now text :=
  exists_grantsAt_iff (p := fun _ policy => text ∈ policy.allow)

theorem permits_iff_openSpelling (hscope : scope ≠ "*") :
    DomainTree.permits (DomainTree.ofPermissions
        (effectivePermissions (s.grantsFor tenant user (some scope) now))) key = true ↔
      key.IsValid ∧ ∃ spelling, s.OpenSpelling tenant user (some scope) now key spelling := by
  rw [grantsFor_eq_grantsAt hscope, DomainTree.permits_effectivePermissions_iff]
  simp only [exists_grantsAt_lists_iff, OpenSpelling, ← exists_grantsAt_denies_iff]
  simp

end Store

namespace Generation

variable {env : Environment} {e : Engine} {tenant user : Given} {scope : String}

/-- Without an entry to hit, a check answers by the rights of the moment. -/
theorem permits_answer (hf : env.features.IsMap) (hnow : e.clock.inRange = true)
    (ht : env.settings.checkTenant tenant = .ok ()) (hne : scope ≠ "")
    (huser : (e.store.user? tenant user).isSome = true)
    (hmiss : e.store.cacheHit? tenant user (some scope) e.clock = none)
    {limits : Int × Instant}
    (hspan : spanFor env (.atScope (some scope)) e.clock = .ok limits) :
    ((permits tenant user key (some scope)).outcome env e).1 =
      .ok (DomainTree.permits (DomainTree.ofPermissions
        (effectivePermissions (e.store.grantsFor tenant user (some scope) e.clock))) key) := by
  obtain ⟨ttlSeconds, expiresAt⟩ := limits
  obtain ⟨profile, hfresh⟩ := exists_fresh ht huser hspan
  obtain ⟨t, u, rfl, rfl⟩ := exists_names_of_fresh hfresh
  have hscopeFor : scopeFor env (.atScope (some scope)) = scope := scopeFor_of_scope rfl hne
  rw [← hscopeFor] at hmiss
  have hgenerated := outcome_generate_miss (o := .atScope (some scope)) rfl ht hmiss
  rw [outcome_compileAndCache hf hnow hfresh] at hgenerated
  simp only [permits, outcome_bind, hgenerated, andThen_ok, outcome_pure]
  simp only [Bundle.permits, bundleOf, Bundle.withChecksum, Bundle.ofGrants, hscopeFor]
  rfl

end Generation

theorem Store.exists_verdict_denied_iff {s : Store} {tenant user permission scope : Given}
    {now : Instant} :
    (∃ role policy, s.verdict tenant user permission scope now = .denied role policy) ↔
      s.Denies tenant user scope now permission := by
  constructor
  · rintro ⟨role, policy, hv⟩
    have hof : s.verdict tenant user permission scope now =
        Verdict.ofGrants (s.grantsAt tenant user scope now) permission :=
      verdict_of_ne_noAssignments (by simp [hv])
    obtain ⟨g, hg, hden, -⟩ := Verdict.ofGrants_eq_denied (hof.symm.trans hv)
    exact exists_grantsAt_denies_iff.1 ⟨g, hg, hden⟩
  · intro h
    obtain ⟨role, policy, -, -, hv⟩ := verdict_of_denies h
    exact ⟨role.key, policy.key, hv⟩

/-- When a check answers yes, and when it does so although the key is denied: exactly when another
spelling of the key than the canonical one is listed in reach and itself denied by nothing. -/
theorem Generation.permits_denied_key_iff (env : Environment) (e : Engine) (tenant user : Given)
    (scope : String) (key : DomainKey) (hf : env.features.IsMap)
    (hnow : e.clock.inRange = true) (ht : env.settings.checkTenant tenant = .ok ())
    (hscope : scope ≠ "*") (hne : scope ≠ "")
    (huser : (e.store.user? tenant user).isSome = true)
    (hmiss : e.store.cacheHit? tenant user (some scope) e.clock = none)
    {limits : Int × Instant}
    (hspan : spanFor env (.atScope (some scope)) e.clock = .ok limits) :
    ∃ answer d, ((permits tenant user key (some scope)).outcome env e).1 = .ok answer ∧
      (Evaluation.evaluate tenant user (some key.encode) (some scope)).outcome env e =
        (.ok d, e) ∧
      (answer = true ↔ key.IsValid ∧
        ∃ spelling, e.store.OpenSpelling tenant user (some scope) e.clock key spelling) ∧
      (answer = true ∧ (∃ role policy, d.verdict = .denied role policy) ↔
        key.IsValid ∧ e.store.Denies tenant user (some scope) e.clock (some key.encode) ∧
          ∃ spelling, spelling ≠ key.encode ∧
            e.store.OpenSpelling tenant user (some scope) e.clock key spelling) := by
  refine ⟨_, ⟨e.store.verdict tenant user (some key.encode) (some scope) e.clock, e.clock⟩,
    permits_answer hf hnow ht hne huser hmiss hspan, ?_, Store.permits_iff_openSpelling hscope, ?_⟩
  · rw [Evaluation.outcome_evaluate, ht]
    rfl
  · rw [Store.permits_iff_openSpelling hscope, Store.exists_verdict_denied_iff]
    constructor
    · -- A spelling that nothing denies cannot be the one that is denied.
      rintro ⟨⟨hvalid, spelling, hopen⟩, hdenied⟩
      refine ⟨hvalid, hdenied, spelling, ?_, hopen⟩
      rintro rfl
      exact hopen.2.2 hdenied
    · rintro ⟨hvalid, hdenied, spelling, -, hopen⟩
      exact ⟨⟨hvalid, spelling, hopen⟩, hdenied⟩

/-- Calls that give a user a policy which denies a key and allows its older spelling. -/
def Administration.grantOlderSpelling : Call Unit := do
  Directory.addUser (some "acme") (some "alice") (some "alice@example.com") none
  let _ ← createPolicy (some "acme")
    { key := some "fans", displayName := some "Fans", allow := .ofTexts ["hvac.fan.roof.start"]
      deny := .ofTexts ["hvac.fan.roof:start"], risk := .null, conditions := .null
      description := none, isSystem := false } (some "admin")
  let _ ← createRole (some "acme")
    { key := some "operator", displayName := some "Operator", policyKeys := .ofTexts ["fans"]
      risk := .null, description := none, tags := .arr [], isSystem := false } (some "admin")
  let _ ← assignRole (some "acme")
    { user := some "alice", role := some "operator", scope := some "tenant:*"
      grantedBy := some "admin", expiresAt := none, reason := none }

def Engine.olderSpelling : Engine :=
  Administration.grantOlderSpelling.after Environment.plain (Engine.start ⟨0⟩ false)

/-- The only pair in reach after these calls. -/
theorem Engine.olderSpelling_reaches :
    olderSpelling.store.Reaches (some "acme") (some "alice") (some "tenant:*") ⟨0⟩
      { Role.plain "operator" ["fans"] with id := "rl-0001", displayName := "Operator" }
      { Policy.plain "fans" ["hvac.fan.roof.start"] ["hvac.fan.roof:start"] with
        id := "po-0001", displayName := "Fans" } := by
  refine ⟨{ AssignmentRow.plain "acme" "ra-0001" "alice" "operator" "tenant:*" with
    grantedBy := "admin", updatedBy := some "admin" }, List.mem_singleton_self _, ?_, by decide,
    rfl, "fans", List.mem_singleton_self _, rfl⟩
  exact ⟨rfl, rfl, rfl, nofun⟩

theorem Engine.deny_of_olderSpelling_reaches {scope : Given} {now : Instant} {role : Role}
    {policy : Policy}
    (h : olderSpelling.store.Reaches (some "acme") (some "alice") scope now role policy) :
    policy.deny = ["hvac.fan.roof:start"] := by
  obtain ⟨a, ha, -, -, hrole, key, hkey, hpolicy⟩ := h
  obtain rfl : a = { AssignmentRow.plain "acme" "ra-0001" "alice" "operator" "tenant:*" with
    grantedBy := "admin", updatedBy := some "admin" } := List.mem_singleton.1 ha
  have hkeys : role.policyKeys = ["fans"] := (congrArg Role.policyKeys (Option.some.inj hrole)).symm
  rw [hkeys, List.mem_singleton] at hkey
  rw [hkey] at hpolicy
  exact (congrArg Policy.deny (Option.some.inj hpolicy)).symm

theorem Generation.older_spelling_permits_denied_key :
    (Administration.grantOlderSpelling.outcome Environment.plain (Engine.start ⟨0⟩ false)).1 =
        .ok () ∧
      ∃ d, ((permits (some "acme") (some "alice") ⟨"hvac", "fan", "roof", "start"⟩
          (some "tenant:*")).outcome Environment.plain Engine.olderSpelling).1 = .ok true ∧
        (Evaluation.evaluate (some "acme") (some "alice") (some "hvac.fan.roof:start")
            (some "tenant:*")).outcome Environment.plain Engine.olderSpelling =
          (.ok d, Engine.olderSpelling) ∧
        ∃ role policy, d.verdict = .denied role policy := by
  have hspan : spanFor Environment.plain (.atScope (some "tenant:*"))
      Engine.olderSpelling.clock = .ok (300, ⟨300000000⟩) := rfl
  obtain ⟨answer, d, hpermits, hevaluate, -, hiff⟩ :=
    permits_denied_key_iff Environment.plain Engine.olderSpelling (some "acme") (some "alice")
      "tenant:*" ⟨"hvac", "fan", "roof", "start"⟩ FeatureTable.isMap_builtIn (by decide) rfl
      (by decide) (by decide) rfl rfl hspan
  have hdenies : Engine.olderSpelling.store.Denies (some "acme") (some "alice")
      (some "tenant:*") ⟨0⟩ (some "hvac.fan.roof:start") :=
    ⟨_, _, Engine.olderSpelling_reaches, _, List.mem_singleton_self _, Pattern.isMatch_self _⟩
  have hopen : Engine.olderSpelling.store.OpenSpelling (some "acme") (some "alice")
      (some "tenant:*") ⟨0⟩ ⟨"hvac", "fan", "roof", "start"⟩ "hvac.fan.roof.start" := by
    refine ⟨by decide, ⟨_, _, Engine.olderSpelling_reaches, List.mem_singleton_self _⟩, ?_⟩
    rintro ⟨role, policy, hreach, pattern, hmem, hm⟩
    rw [Engine.deny_of_olderSpelling_reaches hreach, List.mem_singleton] at hmem
    rw [hmem] at hm
    exact absurd hm (by decide)
  obtain ⟨rfl, hdenied⟩ := hiff.2 ⟨by decide, hdenies, _, by decide, hopen⟩
  exact ⟨rfl, d, hpermits, hevaluate, hdenied⟩

end Entitlements
