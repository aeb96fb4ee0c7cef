import Entitlements.Proofs.Access.Enumeration
import Entitlements.Proofs.Evaluation.Decision
import Entitlements.Proofs.Generation.Fresh

/-!
Three ways to ask for the same rights. A caller may evaluate one permission, enumerate the effective
permissions and match against them, or hold a bundle and match against its flat lists. The last two
are made from the grants at the same scope that the first one searches, so all of them agree on
every permission, whether or not any list mentions it.

The one scope where they part is the wildcard alone, at which an enumeration lists what the user has
anywhere, while an evaluation takes it for a scope like any other.
-/

namespace Entitlements

open Time Call Generation

/-! ### Flat lists -/

/-- Do flat lists give access to a permission? -/
def FlatPermissions.Decide (flat : FlatPermissions) (permission : String) : Prop :=
  (∃ pattern ∈ flat.allowed, Pattern.isMatch permission pattern = true) ∧
    ∀ pattern ∈ flat.denied, Pattern.isMatch permission pattern = false

/-- A bundle lists as allowed what an allow list holds and no deny list matches. -/
theorem FlatPermissions.mem_allowed_iff {grants : List Grant} {text : String} :
    text ∈ (ofPermissions (effectivePermissions grants)).allowed ↔
      (∃ g ∈ grants, text ∈ g.policy.allow) ∧ ∀ g ∈ grants, g.denies (some text) = false := by
  simp only [ofPermissions, List.mem_map, List.mem_filter]
  constructor
  · rintro ⟨entry, ⟨hentry, hallowed⟩, rfl⟩
    exact (allowed_iff hentry).1 hallowed
  · rintro ⟨⟨g, hg, hlisted⟩, hnone⟩
    obtain ⟨entry, hentry, rfl⟩ := exists_entry_of_mem_allow hg hlisted
    exact ⟨entry, ⟨hentry, (allowed_iff hentry).2 ⟨⟨g, hg, hlisted⟩, hnone⟩⟩, rfl⟩

theorem FlatPermissions.mem_denied_iff {grants : List Grant} {text : String} :
    text ∈ (ofPermissions (effectivePermissions grants)).denied ↔
      ∃ g ∈ grants, text ∈ g.policy.deny := by
  simp only [ofPermissions, List.mem_map, List.mem_filter]
  constructor
  · rintro ⟨entry, ⟨hentry, hdenied⟩, rfl⟩
    exact (explicitlyDenied_iff hentry).1 hdenied
  · rintro ⟨g, hg, hlisted⟩
    obtain ⟨entry, hentry, rfl⟩ := exists_entry_of_mem_deny hg hlisted
    exact ⟨entry, ⟨hentry, (explicitlyDenied_iff hentry).2 ⟨g, hg, hlisted⟩⟩, rfl⟩

/-- Nothing is listed as allowed and as denied. -/
theorem FlatPermissions.not_mem_denied_of_mem_allowed {grants : List Grant} {text : String}
    (h : text ∈ (ofPermissions (effectivePermissions grants)).allowed) :
    text ∉ (ofPermissions (effectivePermissions grants)).denied := by
  intro hdenied
  obtain ⟨g, hg, hlisted⟩ := mem_denied_iff.1 hdenied
  have hden := denies_of_mem_deny hlisted
  rw [(mem_allowed_iff.1 h).2 g hg] at hden
  cases hden

theorem FlatPermissions.decide_ofPermissions_iff {entries : List EffectivePermission}
    {permission : String} :
    (ofPermissions entries).Decide permission ↔
      EffectivePermission.Decide entries permission := by
  simp only [ofPermissions, Decide, EffectivePermission.Decide, List.mem_map, List.mem_filter]
  constructor
  · rintro ⟨⟨_, ⟨e, ⟨he, ha⟩, rfl⟩, hm⟩, hnone⟩
    exact ⟨⟨e, he, ha, hm⟩, fun d hd hden => hnone _ ⟨d, ⟨hd, hden⟩, rfl⟩⟩
  · rintro ⟨⟨e, he, ha, hm⟩, hnone⟩
    refine ⟨⟨_, ⟨e, ⟨he, ha⟩, rfl⟩, hm⟩, ?_⟩
    rintro _ ⟨d, ⟨hd, hden⟩, rfl⟩
    exact hnone d hd hden

theorem Generation.decide_bundleOf_iff {env : Environment} {e : Engine} {tenant user : Given}
    {o : BundleOptions} {profile : Profile} {ttlSeconds : Int} {expiresAt : Instant}
    (hflat : o.withFlat = true) {permission : String} :
    (bundleOf env e tenant user o profile ttlSeconds expiresAt).permissions.Decide permission ↔
      EffectivePermission.Decide
        (effectivePermissions (e.store.grantsFor tenant user (some (scopeFor env o)) e.clock))
        permission := by
  rw [← FlatPermissions.decide_ofPermissions_iff]
  simp [bundleOf, Bundle.withChecksum, Bundle.ofGrants, hflat]

/-! ### Agreement -/

theorem Store.isAllowed_verdict_eq {s : Store} {tenant user permission : Given} {scope : String}
    {now : Instant} (hscope : scope ≠ "*") :
    (s.verdict tenant user permission (some scope) now).isAllowed =
      (Verdict.ofGrants (s.grantsFor tenant user (some scope) now) permission).isAllowed := by
  rw [isAllowed_verdict, grantsFor_eq_grantsAt hscope]

/-- The entries of an enumeration decide as evaluation does, each entry's own flag included, and so
do the flat lists of every bundle that is made at the same moment without the cache. -/
theorem Evaluation.entries_decide_as_evaluate (env : Environment) (e : Engine)
    (tenant user : Given) {scope : String} (hscope : scope ≠ "*")
    (ht : env.settings.checkTenant tenant = .ok ()) :
    ∃ entries, (effective tenant user (some scope)).outcome env e = (.ok entries, e) ∧
      (∀ permission : String, ∃ d,
        (evaluate tenant user (some permission) (some scope)).outcome env e = (.ok d, e) ∧
          (d.verdict.isAllowed = true ↔ EffectivePermission.Decide entries permission) ∧
          ∀ entry ∈ entries, entry.permission = permission →
            entry.allowed = d.verdict.isAllowed) ∧
      ∀ o : BundleOptions, o.scope = some scope → scope ≠ "" → o.useCache = false →
        o.withFlat = true → (e.store.user? tenant user).isSome = true →
        ∀ limits, spanFor env o e.clock = .ok limits →
          ∃ b, (generate tenant user o).outcome env e = (.ok b, e) ∧
            ∀ permission : String, ∃ d,
              (evaluate tenant user (some permission) (some scope)).outcome env e = (.ok d, e) ∧
                (d.verdict.isAllowed = true ↔ b.permissions.Decide permission) := by
  have heval (permission : String) :
      (evaluate tenant user (some permission) (some scope)).outcome env e =
        (.ok ⟨e.store.verdict tenant user (some permission) (some scope) e.clock, e.clock⟩, e) := by
    rw [outcome_evaluate, ht]
    rfl
  have hdecide (permission : String) :
      (e.store.verdict tenant user (some permission) (some scope) e.clock).isAllowed = true ↔
        EffectivePermission.Decide
          (effectivePermissions (e.store.grantsFor tenant user (some scope) e.clock))
          permission := by
    rw [Store.isAllowed_verdict_eq hscope, decide_effectivePermissions_iff]
  refine ⟨effectivePermissions (e.store.grantsFor tenant user (some scope) e.clock), ?_, ?_, ?_⟩
  · rw [outcome_effective, ht]
    rfl
  · intro permission
    refine ⟨_, heval permission, hdecide permission, ?_⟩
    rintro entry hentry rfl
    rw [allowed_eq_isAllowed hentry, Store.isAllowed_verdict_eq hscope]
  · -- Past the cache a bundle is compiled from the same grants.
    rintro o ho hne hcache hflat huser ⟨ttlSeconds, expiresAt⟩ hspan
    obtain ⟨profile, hfresh⟩ := exists_fresh ht huser hspan
    refine ⟨bundleOf env e tenant user o profile ttlSeconds expiresAt, ?_, fun permission => ?_⟩
    · rw [outcome_generate_uncached _ _ _ _ _ hcache, hfresh]
    · refine ⟨_, heval permission, ?_⟩
      rw [decide_bundleOf_iff hflat, scopeFor_of_scope ho hne]
      exact hdecide permission

theorem Evaluation.opposed_entries_refuse :
    "customer:7" ≠ "*" ∧ Environment.plain.settings.checkTenant (some "acme") = .ok () ∧
      ∃ entries, (effective (some "acme") (some "alice") (some "customer:7")).outcome
          Environment.plain { Engine.start ⟨0⟩ false with store := Store.opposed } =
            (.ok entries, { Engine.start ⟨0⟩ false with store := Store.opposed }) ∧
        ¬EffectivePermission.Decide entries "reports.export.execute" := by
  have hscope : "customer:7" ≠ "*" := by decide
  have ht : Environment.plain.settings.checkTenant (some "acme") = .ok () := rfl
  obtain ⟨entries, hentries, hagree, -⟩ := entries_decide_as_evaluate Environment.plain
    { Engine.start ⟨0⟩ false with store := Store.opposed } (some "acme") (some "alice") hscope ht
  obtain ⟨d, hd, hiff, -⟩ := hagree "reports.export.execute"
  refine ⟨hscope, ht, entries, hentries, fun hdecide => ?_⟩
  rw [outcome_evaluate, ht] at hd
  obtain rfl : (⟨Store.opposed.verdict (some "acme") (some "alice")
      (some "reports.export.execute") (some "customer:7") ⟨0⟩, ⟨0⟩⟩ : Decision) = d :=
    Except.ok.inj (congrArg Prod.fst hd)
  exact (Store.isAllowed_verdict_iff.1 (hiff.2 hdecide)).1 (Store.opposed_denies ⟨0⟩)

end Entitlements
