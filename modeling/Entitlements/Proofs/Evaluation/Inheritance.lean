import Entitlements.Proofs.Evaluation.Decision
import Entitlements.Proofs.Permission.ScopeOrder

/-!
What narrowing a request does to the answer. Since covering is transitive, whatever reaches a scope
reaches every scope below it. Denials are therefore inherited downwards: no narrower request gets
around one. Permissions are inherited as well, except where something that only reaches the narrower
scope denies them.
-/

namespace Entitlements

open Time Call

namespace Store

variable {s : Store} {tenant user permission : Given} {now : Instant} {wide narrow : String}

/-! ### Grants -/

theorem grantsAt_subset (h : Scope.covers wide narrow = true) :
    s.grantsAt tenant user (some wide) now ⊆ s.grantsAt tenant user (some narrow) now := by
  intro g hg
  obtain ⟨a, ha, hforce, hcov, hgrant⟩ := mem_grantsWhere.1 hg
  exact mem_grantsWhere.2 ⟨a, ha, hforce, Scope.covers_trans hcov h, hgrant⟩

/-! ### Verdicts -/

theorem exists_denies_of_verdict_eq_denied {scope : Given} {role policy : String}
    (h : s.verdict tenant user permission scope now = .denied role policy) :
    ∃ g ∈ s.grantsAt tenant user scope now, g.denies permission = true := by
  have hof : s.verdict tenant user permission scope now =
      Verdict.ofGrants (s.grantsAt tenant user scope now) permission :=
    verdict_of_ne_noAssignments (by simp [h])
  obtain ⟨g, hg, hden, -⟩ := Verdict.ofGrants_eq_denied (hof.symm.trans h)
  exact ⟨g, hg, hden⟩

/-- A denial is met again at every narrower scope. -/
theorem verdict_denied_of_covers (h : Scope.covers wide narrow = true) {role policy : String}
    (hdenied : s.verdict tenant user permission (some wide) now = .denied role policy) :
    ∃ role' policy',
      s.verdict tenant user permission (some narrow) now = .denied role' policy' := by
  obtain ⟨g, hg, hden⟩ := exists_denies_of_verdict_eq_denied hdenied
  obtain ⟨role', policy', -, -, hverdict⟩ :=
    verdict_of_denies (exists_grantsAt_denies_iff.1 ⟨g, grantsAt_subset h hg, hden⟩)
  exact ⟨role'.key, policy'.key, hverdict⟩

/-- What is allowed stays allowed at a narrower scope exactly if all that denies it there was in
reach before, where nothing did. -/
theorem verdict_isAllowed_iff_of_covers (h : Scope.covers wide narrow = true)
    (hallowed : (s.verdict tenant user permission (some wide) now).isAllowed = true) :
    (s.verdict tenant user permission (some narrow) now).isAllowed = true ↔
      ∀ g ∈ s.grantsAt tenant user (some narrow) now, g.denies permission = true →
        g ∈ s.grantsAt tenant user (some wide) now := by
  rw [isAllowed_verdict, Verdict.isAllowed_ofGrants] at hallowed ⊢
  obtain ⟨hnone, g, hg, hallows⟩ := hallowed
  constructor
  · rintro ⟨hnone', -⟩ d hd hden
    rw [hnone' d hd] at hden
    cases hden
  · intro hreach
    refine ⟨fun d hd => ?_, g, grantsAt_subset h hg, hallows⟩
    cases hden : d.denies permission
    · rfl
    · rw [hnone d (hreach d hd hden)] at hden
      cases hden

end Store

/-! ### Narrower requests -/

/-- Covering is a partial order on all texts with the tenant-wide scope on top, and along it grants
and denials are inherited downwards, while a permission is inherited unless something that is in
reach only further down denies it. -/
theorem Evaluation.narrower_scopes_inherit :
    (∀ r, Scope.covers r r = true) ∧
    (∀ r s t, Scope.covers r s = true → Scope.covers s t = true → Scope.covers r t = true) ∧
    (∀ r s, Scope.covers r s = true → Scope.covers s r = true → r = s) ∧
    (∀ r, Scope.covers Scope.tenantWide r = true) ∧
    ∀ (env : Environment) (e : Engine) (tenant : String) (user permission : Given)
      (wide narrow : String), tenant ≠ "" → Scope.covers wide narrow = true →
      (∀ g ∈ e.store.grantsAt (some tenant) user (some wide) e.clock,
        g ∈ e.store.grantsAt (some tenant) user (some narrow) e.clock) ∧
      ∃ d d' : Decision,
        (evaluate (some tenant) user permission (some wide)).outcome env e = (.ok d, e) ∧
        (evaluate (some tenant) user permission (some narrow)).outcome env e = (.ok d', e) ∧
        (∀ role policy, d.verdict = .denied role policy →
          ∃ role' policy', d'.verdict = .denied role' policy') ∧
        (d.verdict.isAllowed = true →
          (d'.verdict.isAllowed = true ↔
            ¬∃ g ∈ e.store.grantsAt (some tenant) user (some narrow) e.clock,
              g.denies permission = true ∧
                g ∉ e.store.grantsAt (some tenant) user (some wide) e.clock)) := by
  refine ⟨Scope.covers_self, fun _ _ _ => Scope.covers_trans, fun _ _ => Scope.covers_antisymm,
    Scope.tenantWide_covers, ?_⟩
  intro env e tenant user permission wide narrow ht h
  have heval (scope : String) :
      (evaluate (some tenant) user permission (some scope)).outcome env e =
        (.ok ⟨e.store.verdict (some tenant) user permission (some scope) e.clock, e.clock⟩, e) := by
    rw [outcome_evaluate, Settings.checkTenant_some _ ht]
    rfl
  refine ⟨fun g hg => Store.grantsAt_subset h hg, _, _, heval wide, heval narrow, ?_, ?_⟩
  · intro role policy hdenied
    exact Store.verdict_denied_of_covers h hdenied
  · intro hallowed
    rw [Store.verdict_isAllowed_iff_of_covers h hallowed]
    simp only [not_exists, not_and, Classical.not_not]

/-- At the scope of all customers the lockdown is not in reach. -/
theorem Store.opposed_not_denies (now : Instant) :
    ¬Store.opposed.Denies (some "acme") (some "alice") (some "customer:*") now
      (some "reports.export.execute") := by
  rintro ⟨role, policy, ⟨a, ha, -, hcov, hrole, key, hkey, hpolicy⟩, pattern, hpattern, -⟩
  obtain rfl | rfl : a = .plain "acme" "ra-0001" "alice" "editor" "tenant:*" ∨
      a = .plain "acme" "ra-0002" "alice" "auditor" "customer:7" := by
    simpa [Store.opposed] using ha
  · obtain rfl : Role.plain "editor" ["exports"] = role := Option.some.inj hrole
    obtain rfl : key = "exports" := List.mem_singleton.1 hkey
    obtain rfl : Policy.plain "exports" ["reports.export.execute"] [] = policy :=
      Option.some.inj hpolicy
    cases hpattern
  · cases hcov

theorem Store.opposed_allows (now : Instant) :
    Store.opposed.Allows (some "acme") (some "alice") (some "customer:*") now
      (some "reports.export.execute") := by
  refine ⟨.plain "editor" ["exports"], .plain "exports" ["reports.export.execute"] [], ?_,
    "reports.export.execute", List.mem_singleton_self _, by decide⟩
  exact ⟨.plain "acme" "ra-0001" "alice" "editor" "tenant:*", List.mem_cons_self,
    ⟨rfl, rfl, rfl, nofun⟩, rfl, rfl, "exports", List.mem_singleton_self _, rfl⟩

/-- Alice may export reports of all customers at once, but not those of the seventh. -/
theorem Evaluation.opposed_refuses_narrower :
    "acme" ≠ "" ∧ Scope.covers "customer:*" "customer:7" = true ∧
      ∃ d d' : Decision, d.verdict.isAllowed = true ∧ d'.verdict.isAllowed = false ∧
        (evaluate (some "acme") (some "alice") (some "reports.export.execute")
            (some "customer:*")).outcome Environment.plain
            { Engine.start ⟨0⟩ false with store := Store.opposed } =
          (.ok d, { Engine.start ⟨0⟩ false with store := Store.opposed }) ∧
        (evaluate (some "acme") (some "alice") (some "reports.export.execute")
            (some "customer:7")).outcome Environment.plain
            { Engine.start ⟨0⟩ false with store := Store.opposed } =
          (.ok d', { Engine.start ⟨0⟩ false with store := Store.opposed }) := by
  have hne : "acme" ≠ "" := by decide
  have hcov : Scope.covers "customer:*" "customer:7" = true := by decide
  obtain ⟨-, d, d', hd, hd', -, hallowed⟩ := narrower_scopes_inherit.2.2.2.2 Environment.plain
    { Engine.start ⟨0⟩ false with store := Store.opposed } "acme" (some "alice")
    (some "reports.export.execute") "customer:*" "customer:7" hne hcov
  have hwide : d.verdict.isAllowed = true := by
    have hanswer := hd
    rw [outcome_evaluate] at hanswer
    rw [← Except.ok.inj (congrArg Prod.fst hanswer)]
    exact Store.isAllowed_verdict_iff.2 ⟨Store.opposed_not_denies ⟨0⟩, Store.opposed_allows ⟨0⟩⟩
  refine ⟨hne, hcov, d, d', hwide, ?_, hd, hd'⟩
  rw [← Bool.not_eq_true, hallowed hwide, Classical.not_not]
  obtain ⟨g, hg, hden⟩ := Store.exists_grantsAt_denies_iff.2 (Store.opposed_denies ⟨0⟩)
  exact ⟨g, hg, hden, fun hin => Store.opposed_not_denies ⟨0⟩
    (Store.exists_grantsAt_denies_iff.1 ⟨g, hin, hden⟩)⟩

end Entitlements
