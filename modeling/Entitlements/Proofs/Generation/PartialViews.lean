import Entitlements.Proofs.Generation.DomainCheck
import Entitlements.Proofs.Generation.Provenance

/-!
What a cached bundle shows to a caller who asks for other views. The cache goes by tenant, user and
scope; the views that a caller leaves out are no part of the key. So the answer from the cache shows
the views that were kept by whoever had the bundle compiled, and a check of a view which that caller
has left out answers no, whatever rights there are. As long as the tables and the time are those of
the compilation, this is all that sets it apart from an answer past the cache.
-/

namespace Entitlements

open Time Call

/-! ### Tables that bundles are compiled from -/

/-- Are the tables of rights and the directory the same? -/
structure Store.SameSources (s s' : Store) : Prop where
  users : s'.users = s.users
  customers : s'.customers = s.customers
  groups : s'.groups = s.groups
  members : s'.members = s.members
  policies : s'.policies = s.policies
  roles : s'.roles = s.roles
  assignments : s'.assignments = s.assignments

/-- What is compiled at one time from the same tables is the same. -/
theorem Generation.fresh_of_sameSources {env : Environment} {e e' : Engine}
    (h : e.store.SameSources e'.store) (hclock : e.clock = e'.clock) (tenant user : Given)
    (o : BundleOptions) :
    fresh env e' tenant user o = fresh env e tenant user o := by
  obtain ⟨⟨_, _, _, _, _, _, _, _, _, _⟩, _, _, _⟩ := e
  obtain ⟨⟨_, _, _, _, _, _, _, _, _, _⟩, _, _, _⟩ := e'
  obtain ⟨rfl, rfl, rfl, rfl, rfl, rfl, rfl⟩ := h
  cases hclock
  rfl

/-! ### Checks -/

section

variable {b : Bundle} {v : Views} {o : BundleOptions}

theorem Bundle.permits_of_shown (h : b.views = v.shown o) (key : DomainKey) :
    b.permits key = (o.withDomains && DomainTree.permits v.domainPolicies key) := by
  have hdomains : b.domainPolicies = if o.withDomains then v.domainPolicies else [] :=
    congrArg Views.domainPolicies h
  rw [permits, hdomains]
  cases o.withDomains <;> rfl

theorem Bundle.featureAccess_of_shown (h : b.views = v.shown o) (feature : String) :
    b.featureAccess feature =
      if o.withFeatures then (v.featurePolicies.get? feature).elim .notGranted (·.access)
      else .notGranted := by
  have hfeatures : b.featurePolicies = if o.withFeatures then v.featurePolicies else [] :=
    congrArg Views.featurePolicies h
  rw [featureAccess, hfeatures]
  cases o.withFeatures
  · rfl
  · simp only [↓reduceIte]
    cases v.featurePolicies.get? feature <;> rfl

end

namespace Generation

variable {env : Environment} {e e' : Engine} {tenant user scope : Given} {b : Bundle}

/-- A check answers by the bundle that there is for its scope. -/
theorem outcome_permits
    (h : (generate tenant user (.atScope scope)).outcome env e = (.ok b, e')) (key : DomainKey) :
    (permits tenant user key scope).outcome env e = (.ok (b.permits key), e') := by
  rw [permits, outcome_bind, h]
  rfl

theorem outcome_featureAccess
    (h : (generate tenant user (.atScope scope)).outcome env e = (.ok b, e')) (feature : String) :
    (featureAccess tenant user feature scope).outcome env e =
      (.ok (b.featureAccess feature), e') := by
  rw [featureAccess, outcome_bind, h]
  rfl

end Generation

/-! ### Hits -/

/-- A bundle that is a hit answers as it was compiled, for whoever had it compiled first: it shows
of the rights what that caller has kept, while an answer past the cache shows what this caller
keeps. So the two show the same exactly if both callers keep the same of the rights, and a check of
a view that the first caller has left out refuses whatever there is. -/
theorem Generation.hit_shows_first_views (env : Environment) (hf : env.features.IsMap)
    {clock : Instant} (hclock : clock.inRange = true) {scheme : IdScheme} {e : Engine}
    (hrun : Course (Serves env) (Engine.empty clock scheme) e) {tenant user : Given}
    {o : BundleOptions} (huse : o.useCache = true) {row : CacheRow}
    (hhit : e.store.cacheHit? tenant user (some (scopeFor env o)) e.clock = some row) :
    Nonempty (Origin env (Serves env) (Engine.empty clock scheme) e row) ∧
      ∀ x : Origin env (Serves env) (Engine.empty clock scheme) e row,
        scopeFor env x.options = scopeFor env o ∧
        (generate tenant user o).outcome env e = (.ok x.bundle, e) ∧
        (x.stored.store.SameSources e.store → x.stored.clock = e.clock →
          x.bundle.views = (rights env e tenant user o).shown x.options ∧
          (∀ limits, spanFor env o e.clock = .ok limits →
            ∃ b, (generate tenant user { o with useCache := false }).outcome env e = (.ok b, e) ∧
              b.views = (rights env e tenant user o).shown o) ∧
          (∀ key, (permits tenant user key o.scope).outcome env e =
            (.ok (x.options.withDomains &&
              DomainTree.permits (rights env e tenant user o).domainPolicies key), e)) ∧
          ∀ feature, (featureAccess tenant user feature o.scope).outcome env e =
            (.ok (if x.options.withFeatures then
                ((rights env e tenant user o).featurePolicies.get? feature).elim .notGranted
                  (·.access)
              else .notGranted), e)) := by
  obtain ⟨hmem, ⟨rfl, rfl, hscope⟩, hopen, -⟩ := Store.of_cacheHit? hhit
  have horigin := (exists_origin hf (fun _ _ _ h => h) rfl hclock hrun).2 row hmem hopen
  refine ⟨horigin, fun x => ?_⟩
  have hsame : scopeFor env x.options = scopeFor env o := by
    rw [← x.scope_eq]
    exact Option.some.inj hscope
  have hg := (fresh_eq_ok_iff.1 x.holds.fresh).1
  have hanswer : (generate (some row.tenant) (some row.userId) o).outcome env e =
      (.ok x.bundle, e) := by
    rw [outcome_generate_hit huse hg hhit, x.holds.entry]
  -- A check asks at the same scope, so it finds the same row.
  have hchecked : (generate (some row.tenant) (some row.userId) (.atScope o.scope)).outcome env e =
      (.ok x.bundle, e) := by
    rw [outcome_generate_hit (o := .atScope o.scope) rfl hg hhit, x.holds.entry]
  refine ⟨hsame, hanswer, fun hsources htime => ?_⟩
  have hfresh := x.fresh_stored
  rw [← fresh_of_sameSources hsources htime] at hfresh
  have hviews : x.bundle.views =
      (rights env e (some row.tenant) (some row.userId) o).shown x.options := by
    rw [(shown_of_fresh hfresh).2.2, rights, hsame]
    rfl
  refine ⟨hviews, ?_, fun key => ?_, fun feature => ?_⟩
  · rintro ⟨ttlSeconds, expiresAt⟩ hspan
    obtain ⟨-, profile, hprofile, -⟩ := fresh_eq_ok_iff.1 hfresh
    have hnew := fresh_eq_ok (o := { o with useCache := false }) hg hprofile hspan
    refine ⟨_, ?_, (shown_of_fresh hnew).2.2⟩
    rw [outcome_generate_uncached _ _ _ env e rfl, hnew]
  · rw [outcome_permits hchecked, Bundle.permits_of_shown hviews]
  · rw [outcome_featureAccess hchecked, Bundle.featureAccess_of_shown hviews]

/-! ### A caller who leaves a view out -/

/-- Where no policy denies anything, nothing is denied. -/
theorem Store.not_denies_of_policies {s : Store} (h : ∀ row ∈ s.policies, row.record.deny = [])
    {tenant user scope : Given} {now : Instant} {permission : Given} :
    ¬s.Denies tenant user scope now permission := by
  rintro ⟨role, policy, ⟨a, -, -, -, -, key, -, hpolicy⟩, pattern, hmem, -⟩
  obtain ⟨row, hrow, rfl⟩ := Option.map_eq_some_iff.1 hpolicy
  rw [h row (of_policyRow? hrow).1] at hmem
  cases hmem

/-- Options that leave the domain view out. -/
def BundleOptions.withoutDomains (scope : Given) : BundleOptions :=
  { atScope scope with withDomains := false }

namespace Engine

/-- The only pair in reach of the user who may start fans. -/
theorem fansAllowed_reaches :
    fansAllowed.store.Reaches (some "acme") (some "alice") (some "tenant:*") ⟨0⟩
      { Role.plain "operator" ["fans"] with id := "rl-0001", displayName := "Operator" }
      { Policy.plain "fans" ["hvac.fan.roof:start"] [] with
        id := "po-0001", displayName := "Fans" } := by
  refine ⟨{ AssignmentRow.plain "acme" "ra-0001" "alice" "operator" "tenant:*" with
    grantedBy := "admin", updatedBy := some "admin" }, List.mem_singleton_self _, ?_, by decide,
    rfl, "fans", List.mem_singleton_self _, rfl⟩
  exact ⟨rfl, rfl, rfl, nofun⟩

/-- The user has the domain key, as long as the tables are the same. -/
theorem permits_of_fansAllowed {e : Engine} (hstore : fansAllowed.store.SameSources e.store)
    (hclock : e.clock = ⟨0⟩) {o : BundleOptions} (ho : o.scope = some "tenant:*") :
    DomainTree.permits
      (Generation.rights Environment.plain e (some "acme") (some "alice") o).domainPolicies
      ⟨"hvac", "fan", "roof", "start"⟩ = true := by
  have hscope : Generation.scopeFor Environment.plain o = "tenant:*" :=
    Generation.scopeFor_of_scope ho (by decide)
  have hgrants : e.store.grantsFor (some "acme") (some "alice") (some "tenant:*") e.clock =
      fansAllowed.store.grantsFor (some "acme") (some "alice") (some "tenant:*") ⟨0⟩ := by
    rw [hclock]
    exact Store.grantsWhere_of_tables hstore.policies hstore.roles hstore.assignments _
  rw [Generation.rights, hscope, hgrants]
  have hdeny : ∀ row ∈ fansAllowed.store.policies, row.record.deny = [] := by
    intro row hrow
    rw [List.mem_singleton.1 hrow]
    rfl
  refine (Store.permits_iff_openSpelling (by decide)).2 ⟨by decide, "hvac.fan.roof:start", ?_⟩
  exact ⟨by decide, ⟨_, _, fansAllowed_reaches, List.mem_singleton_self _⟩,
    Store.not_denies_of_policies hdeny⟩

end Engine

/-- The bundle of a caller who wants no domain view is a hit, and leads back to that caller. -/
theorem Generation.exists_partial_hit :
    ∃ e row, ∃ x : Origin Environment.plain (Serves Environment.plain)
        (Engine.empty ⟨0⟩ (.numbered false)) e row,
      x.options = .withoutDomains (some "tenant:*") ∧ x.stored = e ∧
        Course (Serves Environment.plain) (Engine.empty ⟨0⟩ (.numbered false)) e ∧
        e.store.cacheHit? (some "acme") (some "alice") (some "tenant:*") e.clock = some row ∧
        Engine.fansAllowed.store.SameSources e.store ∧ e.clock = ⟨0⟩ := by
  have hf := FeatureTable.isMap_builtIn
  have hnow : Engine.fansAllowed.clock.inRange = true := by decide
  have hmiss : Engine.fansAllowed.store.cacheHit? (some "acme") (some "alice")
      (some (scopeFor Environment.plain (.withoutDomains (some "tenant:*"))))
      Engine.fansAllowed.clock = none := rfl
  have huser : (Engine.fansAllowed.store.user? (some "acme") (some "alice")).isSome = true := rfl
  have hspan : spanFor Environment.plain (.withoutDomains (some "tenant:*"))
      Engine.fansAllowed.clock = .ok (300, ⟨300000000⟩) := rfl
  obtain ⟨profile, hfresh⟩ := exists_fresh rfl huser hspan
  have hbefore : Course (Serves Environment.plain) (Engine.start ⟨0⟩ false) Engine.fansAllowed :=
    Course.nil.operations fun op _ e => serves_operation _ e op
  have hserved := serves_generate Environment.plain Engine.fansAllowed (some "acme")
    (some "alice") (.withoutDomains (some "tenant:*"))
  have hafter := Request.after_of_miss hf hnow rfl hmiss hfresh
  refine ⟨_, _, Origin.ofMiss hf hnow rfl hmiss hfresh hbefore hserved, rfl, rfl,
    hbefore.step _ _ hserved, ?_, ?_, ?_⟩
  · rw [hafter]
    rfl
  · rw [hafter]
    exact ⟨rfl, rfl, rfl, rfl, rfl, rfl, rfl⟩
  · rw [hafter]
    rfl

/-- After a caller who wants no domain view, a check refuses what a bundle past the cache
permits. -/
theorem Generation.check_after_partial_bundle :
    ∃ e b, Course (Serves Environment.plain) (Engine.start ⟨0⟩ false) e ∧
      (generate (some "acme") (some "alice")
        { BundleOptions.atScope (some "tenant:*") with useCache := false }).outcome
          Environment.plain e = (.ok b, e) ∧
      b.permits ⟨"hvac", "fan", "roof", "start"⟩ = true ∧
      (permits (some "acme") (some "alice") ⟨"hvac", "fan", "roof", "start"⟩
        (some "tenant:*")).outcome Environment.plain e = (.ok false, e) := by
  obtain ⟨e, row, x, hoptions, hstored, hrun, hhit, hsources, hclock⟩ := exists_partial_hit
  obtain ⟨-, hall⟩ := hit_shows_first_views Environment.plain FeatureTable.isMap_builtIn rfl hrun
    (o := .atScope (some "tenant:*")) rfl hhit
  obtain ⟨-, -, hanswers⟩ := hall x
  rw [hstored, hoptions] at hanswers
  obtain ⟨-, huncached, hpermits, -⟩ := hanswers ⟨rfl, rfl, rfl, rfl, rfl, rfl, rfl⟩ rfl
  rw [hclock] at huncached
  obtain ⟨b, hb, hviews⟩ := huncached (300, ⟨300000000⟩) rfl
  refine ⟨e, b, hrun, hb, ?_, hpermits _⟩
  rw [Bundle.permits_of_shown hviews]
  exact Engine.permits_of_fansAllowed hsources hclock rfl

end Entitlements
