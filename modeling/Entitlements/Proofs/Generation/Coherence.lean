import Entitlements.Maintenance
import Entitlements.Proofs.Administration.Staleness
import Entitlements.Proofs.Generation.Caching
import Entitlements.Proofs.Store.CacheTable

/-!
What makes a cache coherent. A cached bundle shows the rights its user had when it was compiled, and
the rights of a user are the grants that reach the scope. So an unmarked row is coherent if its
views are those of the grants of today, or if an assignment of the user has expired since. That is
kept by every step that marks what it makes stale, by compiling, and by time passing: as long as
nothing expires, time is not seen.
-/

namespace Entitlements

open Time Call

/-! ### Views -/

/-- What a bundle shows of rights, whoever has them and however it was made. -/
structure Views where
  domainPolicies : DomainTree
  featurePolicies : Keyed FeaturePolicy
  permissions : FlatPermissions

def Bundle.views (b : Bundle) : Views := ⟨b.domainPolicies, b.featurePolicies, b.permissions⟩

/-- All views of some grants. -/
def Views.ofGrants (table : FeatureTable) (grants : List Grant) : Views :=
  let entries := effectivePermissions grants
  let flat := FlatPermissions.ofPermissions entries
  ⟨DomainTree.ofPermissions entries, table.policies flat, flat⟩

/-- What options keep of the views. -/
def Views.shown (v : Views) (o : BundleOptions) : Views where
  domainPolicies := if o.withDomains then v.domainPolicies else []
  featurePolicies := if o.withFeatures then v.featurePolicies else []
  permissions := if o.withFlat then v.permissions else FlatPermissions.none

/-- Options that leave no view out. -/
def BundleOptions.full (scope : Given) (useCache : Bool) (lifetime : Option Lifetime) :
    BundleOptions :=
  { scope, useCache, lifetime, withDomains := true, withFeatures := true, withFlat := true }

namespace Generation

variable {env : Environment} {e : Engine} {tenant user scope : Given} {useCache : Bool}
  {lifetime : Option Lifetime} {o : BundleOptions} {b : Bundle}

/-- All views that a user has at the scope that options mean. -/
def rights (env : Environment) (e : Engine) (tenant user : Given) (o : BundleOptions) : Views :=
  Views.ofGrants env.features
    (e.store.grantsFor tenant user (some (scopeFor env o)) e.clock)

/-- A bundle shows of the rights at its scope what its options keep. -/
theorem shown_of_fresh (h : fresh env e tenant user o = .ok b) :
    b.metadata.scope = scopeFor env o ∧ b.metadata.generatedAt = .utc e.clock ∧
      b.views = (rights env e tenant user o).shown o := by
  obtain ⟨-, profile, -, ttlSeconds, expiresAt, -, rfl⟩ := fresh_eq_ok_iff.1 h
  exact ⟨rfl, rfl, rfl⟩

/-- A bundle that leaves no view out shows the grants at its scope. -/
theorem views_of_fresh
    (h : fresh env e tenant user (.full scope useCache lifetime) = .ok b) :
    b.metadata.scope = scope.nonempty?.getD env.settings.defaultScope ∧
      b.metadata.generatedAt = .utc e.clock ∧
      b.views = Views.ofGrants env.features
        (e.store.grantsFor tenant user (some b.metadata.scope) e.clock) := by
  obtain ⟨hscope, hgenerated, hviews⟩ := shown_of_fresh h
  rw [hscope]
  exact ⟨rfl, hgenerated, hviews⟩

/-- Generating leaves the engine alone, or caches what it has compiled. -/
theorem after_generate (hf : env.features.IsMap) (hnow : e.clock.inRange = true)
    (tenant user : Given) (o : BundleOptions) :
    (generate tenant user o).after env e = e ∨
      ∃ t u b, tenant = some t ∧ user = some u ∧ fresh env e tenant user o = .ok b ∧
        (generate tenant user o).after env e = cached e (rowOf t u b) := by
  cases huse : o.useCache with
  | false =>
    rw [after_eq_of_outcome (outcome_generate_uncached tenant user o env e huse)]
    exact .inl rfl
  | true =>
    rcases hg : env.settings.checkTenant tenant with failure | _
    · left
      simp [after, generate, huse, BundleCache.get?, hg]
    rcases hhit : e.store.cacheHit? tenant user (some (scopeFor env o)) e.clock with _ | row
    · have hmiss := outcome_generate_miss huse hg hhit
      rcases hfresh : fresh env e tenant user o with failure | b
      · left
        rw [after, hmiss]
        simp [compileAndCache, hfresh]
      · right
        obtain ⟨t, u, rfl, rfl⟩ := exists_names_of_fresh hfresh
        refine ⟨t, u, b, rfl, rfl, rfl, ?_⟩
        rw [after, hmiss, outcome_compileAndCache hf hnow hfresh]
    · left
      rw [after_eq_of_outcome (outcome_generate_hit huse hg hhit)]

end Generation

theorem CacheRow.exists_entry {r : CacheRow} {b : Bundle} (h : Bundle.read r.bundle = .valid b) :
    ∃ entry, r.entry = .ok entry ∧ entry.bundle = b := by
  unfold entry
  rw [h]
  exact ⟨_, rfl, rfl⟩

/-- The scope of a bundle is one that asking for it leads to. -/
theorem Given.getD_nonempty?_getD (scope : Given) (fallback : String) :
    (Given.nonempty? (some (scope.nonempty?.getD fallback))).getD fallback =
      scope.nonempty?.getD fallback := by
  cases scope with
  | none => by_cases h : fallback = "" <;> simp [Given.nonempty?, Option.filter, h]
  | some scope =>
    by_cases h : scope = ""
    · by_cases h' : fallback = "" <;> simp [Given.nonempty?, Option.filter, h, h']
    · simp [Given.nonempty?, Option.filter, h]

/-! ### Coherence -/

/-- Does a row hold a bundle with the views that its user has, unless an expiry has come since? -/
structure Engine.CoherentRow (settings : Settings) (table : FeatureTable) (e : Engine)
    (r : CacheRow) : Prop where
  tenant : settings.checkTenant (some r.tenant) = .ok ()
  user : (e.store.user? (some r.tenant) (some r.userId)).isSome = true
  scope : (Given.nonempty? (some r.scope)).getD settings.defaultScope = r.scope
  generatedAt : r.generatedAt ≤ e.clock
  bundle : ∃ b, Bundle.read r.bundle = .valid b ∧
    (¬e.store.LapsesBetween r.tenant r.userId r.generatedAt e.clock →
      b.views = Views.ofGrants table
        (e.store.grantsFor (some r.tenant) (some r.userId) (some r.scope) e.clock))

/-- Are all unmarked rows coherent, and does no reference dangle? -/
structure Engine.Coherent (settings : Settings) (table : FeatureTable) (e : Engine) : Prop where
  inRange : e.clock.inRange = true
  linked : e.store.Linked e.clock
  rows : ∀ r ∈ e.store.cache, r.invalidatedAt = none → e.CoherentRow settings table r

namespace Engine

variable {settings : Settings} {table : FeatureTable} {e e' : Engine} {r : CacheRow}

theorem coherent_empty (clock : Instant) (scheme : IdScheme) (h : clock.inRange = true) :
    (empty clock scheme).Coherent settings table where
  inRange := h
  linked := Store.linked_empty clock
  rows r hr := by cases hr

/-! ### Steps that mark what they make stale -/

theorem lapses_of_marksStale (h : e.MarksStale e') {tenant user : String}
    {earlier now : Instant} (hl : e.store.LapsesBetween tenant user earlier now) :
    e'.store.LapsesBetween tenant user earlier now := by
  obtain ⟨a, ha, ht, hu, t, hexp, hbetween⟩ := hl
  obtain ⟨b, hb, ht', hu', hexp'⟩ := h.kept a ha
  exact ⟨b, hb, ht'.trans ht, hu'.trans hu, t, hexp'.trans hexp, hbetween⟩

theorem Coherent.of_marksStale (hc : e.Coherent settings table) (h : e.MarksStale e') :
    e'.Coherent settings table where
  inRange := by rw [h.clock, hc.inRange]
  linked := by
    rw [h.clock]
    exact h.linked hc.linked
  rows r hr hopen := by
    obtain ⟨hr, hgrants⟩ := h.cache hc.linked r hr hopen
    obtain ⟨htenant, huser, hscope, hpast, b, hread, hviews⟩ := hc.rows r hr hopen
    refine ⟨htenant, h.users _ _ huser, hscope, by rw [h.clock]; exact hpast, b, hread, ?_⟩
    intro hlapse
    -- Expiries are kept, so none that is not there now can have excused the row before.
    rw [h.clock] at hlapse ⊢
    rw [Store.grantsFor, hgrants]
    exact hviews fun hl => hlapse (lapses_of_marksStale h hl)

/-! ### Compiling -/

theorem coherentRow_rowOf {env : Environment} (hf : env.features.IsMap)
    (hnow : e.clock.inRange = true) {t u : String} {scope : Given} {useCache : Bool}
    {lifetime : Option Lifetime} {b : Bundle}
    (h : Generation.fresh env e (some t) (some u) (.full scope useCache lifetime) = .ok b) :
    e.CoherentRow env.settings env.features (Generation.rowOf t u b) := by
  obtain ⟨hscope, hgenerated, hviews⟩ := Generation.views_of_fresh h
  obtain ⟨htenant, profile, hprofile, -⟩ := Generation.fresh_eq_ok_iff.1 h
  have hread := Bundle.read_toJson (Generation.isWritable_of_fresh hf hnow h)
  refine ⟨htenant, ?_, ?_, ?_, b, hread, fun _ => hviews⟩
  · rw [← Store.isSome_profile? _ _ _ e.clock, Generation.rowOf, hprofile]
    rfl
  · rw [Generation.rowOf, hscope]
    exact Given.getD_nonempty?_getD scope _
  · rw [Generation.rowOf, hgenerated]
    exact Int.le_refl e.clock.micros

theorem Coherent.cached {row : CacheRow} (hc : e.Coherent settings table)
    (hrow : e.CoherentRow settings table row) :
    (Generation.cached e row).Coherent settings table where
  inRange := hc.inRange
  linked := Store.Linked.of_tables (s := e.store) rfl rfl rfl hc.linked
  rows r hr hopen := by
    have hold : e.CoherentRow settings table r := by
      rcases Store.mem_putCacheRow hr with rfl | hr
      · exact hrow
      · exact hc.rows r hr hopen
    exact ⟨hold.tenant, hold.user, hold.scope, hold.generatedAt, hold.bundle⟩

theorem Coherent.generate {env : Environment} (hf : env.features.IsMap)
    (hc : e.Coherent env.settings env.features) (tenant user scope : Given) (useCache : Bool)
    (lifetime : Option Lifetime) :
    ((Generation.generate tenant user (.full scope useCache lifetime)).after env e).Coherent
      env.settings env.features := by
  rcases Generation.after_generate hf hc.inRange tenant user (.full scope useCache lifetime) with
    hsame | ⟨t, u, b, rfl, rfl, hfresh, hcached⟩
  · rw [hsame]
    exact hc
  · rw [hcached]
    exact hc.cached (coherentRow_rowOf hf hc.inRange hfresh)

/-- Marking a row before it is compiled anew is of no account. -/
theorem Coherent.refresh {env : Environment} (hf : env.features.IsMap)
    (hc : e.Coherent env.settings env.features) (tenant user scope reason : Given) :
    ((Generation.refresh tenant user scope reason).after env e).Coherent env.settings
      env.features := by
  rw [Generation.refresh, after_bind_of_ok (Generation.outcome_scopeOf _ env e)]
  refine after_bind_of_after ?_ fun _ e' hc' => hc'.generate hf tenant user _ true none
  exact hc.of_marksStale
    (.of_marks (BundleCache.invalidateScope_only_marks env e tenant user _ reason))

/-! ### Time -/

theorem Coherent.later (hc : e.Coherent settings table) {time : Instant}
    (hrange : time.inRange = true) (hle : e.clock ≤ time) :
    { e with clock := time }.Coherent settings table where
  inRange := hrange
  linked := hc.linked.later hle
  rows r hr hopen := by
    obtain ⟨htenant, huser, hscope, hpast, b, hread, hviews⟩ := hc.rows r hr hopen
    refine ⟨htenant, huser, hscope, Int.le_trans hpast hle, b, hread, fun hlapse => ?_⟩
    -- Nothing had expired up to the old time, so the row was right then.
    have hbefore : ¬e.store.LapsesBetween r.tenant r.userId r.generatedAt e.clock := by
      rintro ⟨a, ha, ht, hu, t, hexp, hafter, hby⟩
      exact hlapse ⟨a, ha, ht, hu, t, hexp, hafter, Int.le_trans hby hle⟩
    -- Nothing has expired since either, so the grants are what they were.
    have hsince : ¬e.store.LapsesBetween r.tenant r.userId e.clock time := by
      rintro ⟨a, ha, ht, hu, t, hexp, hafter, hby⟩
      exact hlapse ⟨a, ha, ht, hu, t, hexp, Int.lt_of_le_of_lt hpast hafter, hby⟩
    rw [hviews hbefore, Store.grantsFor, Store.grantsFor,
      Store.grantsWhere_of_not_lapses hle hsince]

end Engine

end Entitlements
