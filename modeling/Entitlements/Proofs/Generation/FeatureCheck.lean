import Entitlements.Proofs.Generation.DomainView
import Entitlements.Proofs.Json.Canonical

/-!
What the feature view of a bundle promises. A feature is decided by texts: it is granted when all
that it requires is listed as allowed, and denied when some of it is listed as denied. A text is
listed as allowed only where nothing denies it, so what a feature is granted for, an evaluation
allows as well; a feature that has to be granted can be relied on.

On the side of denials the texts are not enough. A deny pattern that is broader than what a feature
requires is listed as the pattern it is. Then the feature is not denied but falls back to its
default, and one whose default is to be granted stays open although an evaluation denies what it
requires.
-/

namespace Entitlements

open Time Call

/-! ### Looking up a feature -/

theorem Keyed.get?_foldl_set (value : α) (names : List String) (entries : Keyed α) (key : String) :
    get? (names.foldl (fun map name => map.set name value) entries) key =
      if key ∈ names then some value else get? entries key := by
  induction names generalizing entries with
  | nil => simp
  | cons name names ih =>
    rw [List.foldl_cons, ih, get?_set]
    by_cases h : key = name
    · simp [h]
    · simp [h]

namespace FeatureTable

variable {t : FeatureTable}

/-- What is always guaranteed comes first, and a definition counts for all else. -/
theorem get?_evaluate (h : t.IsMap) (allowed denied : List String) (feature : String) :
    Keyed.get? (t.evaluate allowed denied) feature =
      if feature ∈ t.alwaysGuaranteed then some .guaranteed
      else (t.features.get? feature).map (·.resolve allowed denied) := by
  have hperm := List.mergeSort_perm t.features fun a b => decide (a.1 ≤ b.1)
  have hsame := (Keyed.perm_iff_get? ((hperm.map Prod.fst).nodup_iff.2 h) h).1 hperm
  rw [evaluate, Keyed.get?_foldl_set, Keyed.get?_map (FeatureDefinition.resolve · allowed denied),
    hsame]

theorem get?_policies (h : t.IsMap) {feature : String} (hfeature : feature ∉ t.alwaysGuaranteed)
    {d : FeatureDefinition} (hd : t.features.get? feature = some d) (flat : FlatPermissions) :
    Keyed.get? (t.policies flat) feature =
      some ⟨d.resolve flat.allowed flat.denied, none, none⟩ := by
  rw [policies, Keyed.get?_map fun access => (⟨access, none, none⟩ : FeaturePolicy),
    get?_evaluate h, if_neg hfeature, hd]
  rfl

end FeatureTable

namespace FeatureDefinition

variable {d : FeatureDefinition} {allowed denied : List String}

theorem resolve_of_mem_denied (h : ∃ p ∈ d.required, p ∈ denied) :
    d.resolve allowed denied = .denied := by
  have hany : d.required.any denied.contains = true := by simpa using h
  rw [resolve, if_pos hany]

theorem resolve_of_not_mem_denied (h : ¬∃ p ∈ d.required, p ∈ denied) :
    d.resolve allowed denied = if ∀ p ∈ d.required, p ∈ allowed then .granted else d.default := by
  have hany : d.required.any denied.contains = false := by simpa using h
  rw [resolve, hany]
  simp

theorem mem_allowed_of_isAllowed_resolve (hdefault : d.default.isAllowed = false)
    (h : (d.resolve allowed denied).isAllowed = true) : ∀ p ∈ d.required, p ∈ allowed := by
  by_cases hlisted : ∃ p ∈ d.required, p ∈ denied
  · rw [resolve_of_mem_denied hlisted] at h
    cases h
  · rw [resolve_of_not_mem_denied hlisted] at h
    split at h
    · next hall => exact hall
    · rw [hdefault] at h
      cases h

end FeatureDefinition

/-! ### What deny lists hold -/

namespace Store

/-- Is a text listed, as it stands, in the deny list of a policy in reach? -/
def ListsDenied (s : Store) (tenant user scope : Given) (now : Instant) (text : String) : Prop :=
  ∃ role policy, s.Reaches tenant user scope now role policy ∧ text ∈ policy.deny

variable {s : Store} {tenant user : Given} {scope : String} {now : Instant} {text : String}

theorem mem_denied_iff (hscope : scope ≠ "*") :
    text ∈ (FlatPermissions.ofPermissions
        (effectivePermissions (s.grantsFor tenant user (some scope) now))).denied ↔
      s.ListsDenied tenant user (some scope) now text := by
  rw [FlatPermissions.mem_denied_iff, grantsFor_eq_grantsAt hscope]
  exact exists_grantsAt_iff (p := fun _ policy => text ∈ policy.deny)

/-- What is listed in reach, and denied by nothing there, an evaluation allows. -/
theorem isAllowed_verdict_of_lists (hlists : s.Lists tenant user (some scope) now text)
    (hdenies : ¬s.Denies tenant user (some scope) now (some text)) :
    (s.verdict tenant user (some text) (some scope) now).isAllowed = true := by
  obtain ⟨role, policy, hreach, hmem⟩ := hlists
  exact isAllowed_verdict_iff.2
    ⟨hdenies, role, policy, hreach, text, hmem, Pattern.isMatch_self text⟩

end Store

/-! ### Features of a bundle -/

namespace Generation

variable {env : Environment} {e : Engine} {tenant user : Given} {o : BundleOptions} {b : Bundle}
  {scope feature : String} {d : FeatureDefinition}

/-- Where no entry is a hit, generating answers with what is compiled now. -/
theorem exists_generated (hf : env.features.IsMap) (hnow : e.clock.inRange = true)
    (ht : env.settings.checkTenant tenant = .ok ())
    (huser : (e.store.user? tenant user).isSome = true)
    (hmiss : o.useCache = true →
      e.store.cacheHit? tenant user (some (scopeFor env o)) e.clock = none)
    {limits : Int × Instant} (hspan : spanFor env o e.clock = .ok limits) :
    ∃ b, fresh env e tenant user o = .ok b ∧
      ((generate tenant user o).outcome env e).1 = .ok b := by
  obtain ⟨ttlSeconds, expiresAt⟩ := limits
  obtain ⟨profile, hfresh⟩ := exists_fresh ht huser hspan
  refine ⟨_, hfresh, ?_⟩
  cases huse : o.useCache with
  | false => rw [outcome_generate_uncached tenant user o env e huse, hfresh]
  | true =>
    obtain ⟨t, u, rfl, rfl⟩ := exists_names_of_fresh hfresh
    rw [outcome_generate_miss huse ht (hmiss huse), outcome_compileAndCache hf hnow hfresh]

theorem featurePolicies_of_fresh (h : fresh env e tenant user o = .ok b) :
    b.featurePolicies =
      if o.withFeatures then (rights env e tenant user o).featurePolicies else [] :=
  congrArg Views.featurePolicies (shown_of_fresh h).2.2

/-- A bundle that leaves the features out grants none. -/
theorem featureAccess_of_fresh_without (hfeatures : o.withFeatures = false)
    (h : fresh env e tenant user o = .ok b) : b.featureAccess feature = .notGranted := by
  rw [Bundle.featureAccess, featurePolicies_of_fresh h, hfeatures]
  rfl

section

variable (hf : env.features.IsMap) (hd : env.features.features.get? feature = some d)
  (hfeature : feature ∉ env.features.alwaysGuaranteed) (hfeatures : o.withFeatures = true)
  (h : fresh env e tenant user o = .ok b)

include hf hd hfeature hfeatures h

/-- A feature is resolved by the flat lists of the rights, whether the bundle shows these or not. -/
theorem get?_featurePolicies_of_fresh :
    b.featurePolicies.get? feature =
      some ⟨d.resolve (rights env e tenant user o).permissions.allowed
        (rights env e tenant user o).permissions.denied, none, none⟩ := by
  rw [featurePolicies_of_fresh h, if_pos hfeatures]
  exact FeatureTable.get?_policies hf hfeature hd _

theorem featureAccess_of_fresh :
    b.featureAccess feature = d.resolve (rights env e tenant user o).permissions.allowed
      (rights env e tenant user o).permissions.denied := by
  rw [Bundle.featureAccess, get?_featurePolicies_of_fresh hf hd hfeature hfeatures h]

theorem featureAccess_of_listsDenied (hscope : scopeFor env o ≠ "*")
    (hlisted : ∃ p ∈ d.required,
      e.store.ListsDenied tenant user (some (scopeFor env o)) e.clock p) :
    b.featureAccess feature = .denied := by
  obtain ⟨p, hp, hlists⟩ := hlisted
  rw [featureAccess_of_fresh hf hd hfeature hfeatures h]
  exact FeatureDefinition.resolve_of_mem_denied ⟨p, hp, (Store.mem_denied_iff hscope).2 hlists⟩

/-- A denial that no deny list spells out leaves a feature its default. -/
theorem featureAccess_of_denies (hscope : scopeFor env o ≠ "*") {p : String}
    (hp : p ∈ d.required)
    (hdenies : e.store.Denies tenant user (some (scopeFor env o)) e.clock (some p))
    (hnone : ¬∃ q ∈ d.required,
      e.store.ListsDenied tenant user (some (scopeFor env o)) e.clock q) :
    b.featureAccess feature = d.default := by
  have hunlisted : ¬∃ q ∈ d.required, q ∈ (rights env e tenant user o).permissions.denied := by
    rintro ⟨q, hq, hmem⟩
    exact hnone ⟨q, hq, (Store.mem_denied_iff hscope).1 hmem⟩
  -- What is denied is not listed as allowed, so the feature is not granted either.
  have hshort : ¬∀ q ∈ d.required, q ∈ (rights env e tenant user o).permissions.allowed :=
    fun hall => ((Store.mem_allowed_iff hscope).1 (hall p hp)).2 hdenies
  rw [featureAccess_of_fresh hf hd hfeature hfeatures h,
    FeatureDefinition.resolve_of_not_mem_denied hunlisted, if_neg hshort]

end

end Generation

/-! ### A user with one permission -/

/-- A feature that has to be granted, and one that is open by default. -/
def FeatureTable.fansAndReports : FeatureTable where
  version := "1"
  features := [("fans", ⟨["hvac.fan.roof:start"], .notGranted⟩),
    ("reports", ⟨["reports.export.execute"], .granted⟩)]
  alwaysGuaranteed := []

def Environment.fansAndReports : Environment :=
  { Environment.plain with features := .fansAndReports }

namespace Engine

/-- Calls that let a user start fans, and deny all reports. -/
def allowFansOnly : List Operation :=
  [.addUser (some "acme") (some "alice") (some "alice@example.com") none,
    .createPolicy (some "acme")
      { key := some "fans", displayName := some "Fans", allow := .ofTexts ["hvac.fan.roof:start"]
        deny := .ofTexts ["reports.*.*"], risk := .null, conditions := .null, description := none
        isSystem := false } (some "admin"),
    .createRole (some "acme")
      { key := some "operator", displayName := some "Operator", policyKeys := .ofTexts ["fans"]
        risk := .null, description := none, tags := .arr [], isSystem := false } (some "admin"),
    .assignRole (some "acme")
      { user := some "alice", role := some "operator", scope := some "tenant:*"
        grantedBy := some "admin", expiresAt := none, reason := none }]

/-- The engine after these calls. -/
def fansOnly : Engine :=
  allowFansOnly.foldl (fun e op => op.call.after Environment.fansAndReports e) (start ⟨0⟩ false)

/-- The only pair in reach after these calls. -/
theorem fansOnly_reaches :
    fansOnly.store.Reaches (some "acme") (some "alice") (some "tenant:*") ⟨0⟩
      { Role.plain "operator" ["fans"] with id := "rl-0001", displayName := "Operator" }
      { Policy.plain "fans" ["hvac.fan.roof:start"] ["reports.*.*"] with
        id := "po-0001", displayName := "Fans" } := by
  refine ⟨{ AssignmentRow.plain "acme" "ra-0001" "alice" "operator" "tenant:*" with
    grantedBy := "admin", updatedBy := some "admin" }, List.mem_singleton_self _, ?_, by decide,
    rfl, "fans", List.mem_singleton_self _, rfl⟩
  exact ⟨rfl, rfl, rfl, nofun⟩

theorem deny_of_fansOnly_reaches {tenant user scope : Given} {now : Instant} {role : Role}
    {policy : Policy} (h : fansOnly.store.Reaches tenant user scope now role policy) :
    policy.deny = ["reports.*.*"] := by
  obtain ⟨a, -, -, -, -, key, -, hpolicy⟩ := h
  obtain ⟨row, hrow, rfl⟩ := Option.map_eq_some_iff.1 hpolicy
  rw [List.mem_singleton.1 (Store.of_policyRow? hrow).1]
  rfl

variable {tenant user scope : Given} {now : Instant} {text : String}

theorem fansOnly_not_listsDenied (h : text ≠ "reports.*.*") :
    ¬fansOnly.store.ListsDenied tenant user scope now text := by
  rintro ⟨role, policy, hreach, hlisted⟩
  rw [deny_of_fansOnly_reaches hreach] at hlisted
  exact h (List.mem_singleton.1 hlisted)

theorem fansOnly_not_denies (h : Pattern.isMatch text "reports.*.*" = false) :
    ¬fansOnly.store.Denies tenant user scope now (some text) := by
  rintro ⟨role, policy, hreach, pattern, hlisted, hm⟩
  rw [deny_of_fansOnly_reaches hreach] at hlisted
  rw [List.mem_singleton.1 hlisted] at hm
  exact absurd hm (by simp [Pattern.isMatchGiven, h])

end Engine

/-! ### Features that have to be granted -/

/-- Does a bundle open a feature only to who may do all that it requires, by evaluation, and deny it
where a deny list in reach holds any of that? A bundle may leave its features out. -/
structure Bundle.FollowsEvaluation (b : Bundle) (env : Environment) (e : Engine)
    (tenant user : Given) (scope feature : String) (d : FeatureDefinition) : Prop where
  allowed : (b.featureAccess feature).isAllowed = true → ∀ p ∈ d.required, ∃ decision,
    (Evaluation.evaluate tenant user (some p) (some scope)).outcome env e = (.ok decision, e) ∧
      decision.verdict.isAllowed = true
  denied : b.featurePolicies ≠ [] →
    (∃ p ∈ d.required, e.store.ListsDenied tenant user (some scope) e.clock p) →
      b.featureAccess feature = .denied

namespace Generation

theorem followsEvaluation_of_fresh {env : Environment} {e : Engine} {tenant user : Given}
    {o : BundleOptions} {b : Bundle} {scope feature : String} {d : FeatureDefinition}
    (hf : env.features.IsMap) (hscope : scope ≠ "*") (ho : scopeFor env o = scope)
    (hd : env.features.features.get? feature = some d)
    (hfeature : feature ∉ env.features.alwaysGuaranteed) (hdefault : d.default.isAllowed = false)
    (h : fresh env e tenant user o = .ok b) :
    b.FollowsEvaluation env e tenant user scope feature d := by
  subst ho
  have ht := (fresh_eq_ok_iff.1 h).1
  cases hfeatures : o.withFeatures with
  | false =>
    have hout : b.featurePolicies = [] := by
      rw [featurePolicies_of_fresh h, hfeatures]
      rfl
    refine ⟨fun hallowed => ?_, fun hne => absurd hout hne⟩
    rw [featureAccess_of_fresh_without hfeatures h] at hallowed
    cases hallowed
  | true =>
    refine ⟨fun hallowed p hp => ?_, fun _ => ?_⟩
    · rw [featureAccess_of_fresh hf hd hfeature hfeatures h] at hallowed
      have hmem := FeatureDefinition.mem_allowed_of_isAllowed_resolve hdefault hallowed p hp
      obtain ⟨hlists, hdenies⟩ := (Store.mem_allowed_iff hscope).1 hmem
      exact ⟨_, Evaluation.outcome_evaluate_of_checked ht _ _ _ _,
        Store.isAllowed_verdict_of_lists hlists hdenies⟩
    · exact featureAccess_of_listsDenied hf hd hfeature hfeatures h hscope

/-- A feature that is not open by default never escalates. Whatever table is in use, a bundle that
is compiled at a scope opens the feature only where an evaluation at that scope allows each
permission that it requires, and denies it where one of these is in a deny list in reach. What the
cache answers was compiled before, and held then. -/
theorem features_never_escalate (env : Environment) (hf : env.features.IsMap)
    (tenant user : Given) {scope feature : String} (hscope : scope ≠ "*") (hne : scope ≠ "")
    {d : FeatureDefinition} (hd : env.features.features.get? feature = some d)
    (hfeature : feature ∉ env.features.alwaysGuaranteed)
    (hdefault : d.default.isAllowed = false) :
    (∀ (e : Engine) (o : BundleOptions), o.scope = some scope → e.clock.inRange = true →
      env.settings.checkTenant tenant = .ok () → (e.store.user? tenant user).isSome = true →
      (o.useCache = true → e.store.cacheHit? tenant user (some scope) e.clock = none) →
      ∀ limits, spanFor env o e.clock = .ok limits →
        ∃ b, ((generate tenant user o).outcome env e).1 = .ok b ∧
          (o.withFeatures = true → b.featurePolicies ≠ []) ∧
          b.FollowsEvaluation env e tenant user scope feature d) ∧
    ∀ (clock : Instant) (scheme : IdScheme) (e : Engine) (o : BundleOptions) (b : Bundle),
      clock.inRange = true → Course (Serves env) (Engine.empty clock scheme) e →
      o.scope = some scope → ((generate tenant user o).outcome env e).1 = .ok b →
        ∃ e', Course (Serves env) (Engine.empty clock scheme) e' ∧
          (o.useCache = false → e' = e) ∧
          b.FollowsEvaluation env e' tenant user scope feature d := by
  constructor
  · intro e o ho hnow ht huser hmiss limits hspan
    have hat : scopeFor env o = scope := scopeFor_of_scope ho hne
    rw [← hat] at hmiss
    obtain ⟨b, hfresh, hanswer⟩ := exists_generated hf hnow ht huser hmiss hspan
    refine ⟨b, hanswer, fun hfeatures hempty => ?_,
      followsEvaluation_of_fresh hf hscope hat hd hfeature hdefault hfresh⟩
    have hlisted := get?_featurePolicies_of_fresh hf hd hfeature hfeatures hfresh
    rw [hempty] at hlisted
    cases hlisted
  · intro clock scheme e o b hclock hrun ho h
    obtain ⟨e', o', hrun', hfresh, hsame, hbypass⟩ := exists_fresh_of_generate hf hclock hrun h
    exact ⟨e', hrun', fun huse => (hbypass huse).1, followsEvaluation_of_fresh hf hscope
      (hsame.trans (scopeFor_of_scope ho hne)) hd hfeature hdefault hfresh⟩

theorem fans_are_open_by_evaluation :
    ∃ b d, ((generate (some "acme") (some "alice") (.atScope (some "tenant:*"))).outcome
        Environment.fansAndReports Engine.fansOnly).1 = .ok b ∧
      b.featureAccess "fans" = .granted ∧
      (Evaluation.evaluate (some "acme") (some "alice") (some "hvac.fan.roof:start")
          (some "tenant:*")).outcome Environment.fansAndReports Engine.fansOnly =
        (.ok d, Engine.fansOnly) ∧
      d.verdict.isAllowed = true := by
  have hf : Environment.fansAndReports.features.IsMap := by
    rw [FeatureTable.IsMap]
    decide
  have hd : Environment.fansAndReports.features.features.get? "fans" =
      some ⟨["hvac.fan.roof:start"], .notGranted⟩ := rfl
  have hspan : spanFor Environment.fansAndReports (.atScope (some "tenant:*"))
      Engine.fansOnly.clock = .ok (300, ⟨300000000⟩) := rfl
  obtain ⟨hcompiled, -⟩ := features_never_escalate Environment.fansAndReports hf (some "acme")
    (some "alice") (by decide : "tenant:*" ≠ "*") (by decide) hd List.not_mem_nil rfl
  obtain ⟨b, hanswer, -, hfollows⟩ := hcompiled Engine.fansOnly (.atScope (some "tenant:*")) rfl
    (by decide) rfl rfl (fun _ => rfl) _ hspan
  have huser : (Engine.fansOnly.store.user? (some "acme") (some "alice")).isSome = true := rfl
  obtain ⟨c, hfresh, hc⟩ := exists_generated (o := .atScope (some "tenant:*")) hf (by decide)
    (by rfl) huser (fun _ => rfl) hspan
  obtain rfl : c = b := Except.ok.inj (hc.symm.trans hanswer)
  have haccess : c.featureAccess "fans" = .granted := by
    rw [featureAccess_of_fresh hf hd List.not_mem_nil rfl hfresh,
      FeatureDefinition.resolve_of_not_mem_denied, if_pos]
    · intro p hp
      refine (Store.mem_allowed_iff (by decide)).2 ⟨⟨_, _, Engine.fansOnly_reaches, hp⟩, ?_⟩
      rw [List.mem_singleton.1 hp]
      exact Engine.fansOnly_not_denies (by decide)
    · rintro ⟨p, hp, hmem⟩
      rw [List.mem_singleton.1 hp] at hmem
      exact Engine.fansOnly_not_listsDenied (by decide) ((Store.mem_denied_iff (by decide)).1 hmem)
  obtain ⟨decision, hdecision, hallowed⟩ := hfollows.allowed (by rw [haccess]; rfl) _
    (List.mem_singleton_self _)
  exact ⟨c, decision, hanswer, haccess, hdecision, hallowed⟩

/-! ### Features that are open by default -/

/-- What a denied feature comes to. Where an evaluation denies something that a feature requires,
the feature is denied if a deny list in reach holds the text of anything it requires, and has its
default otherwise. So it is open exactly if it is open by default and every denial that meets it
comes from a broader pattern. -/
theorem denied_feature_is_open_iff (env : Environment) (hf : env.features.IsMap) (e : Engine)
    (hnow : e.clock.inRange = true) (tenant user : Given)
    (ht : env.settings.checkTenant tenant = .ok ())
    (huser : (e.store.user? tenant user).isSome = true) {scope feature : String}
    (hscope : scope ≠ "*") (hne : scope ≠ "") {d : FeatureDefinition}
    (hd : env.features.features.get? feature = some d)
    (hfeature : feature ∉ env.features.alwaysGuaranteed) {o : BundleOptions}
    (ho : o.scope = some scope) (hfeatures : o.withFeatures = true)
    (hmiss : o.useCache = true → e.store.cacheHit? tenant user (some scope) e.clock = none)
    {limits : Int × Instant} (hspan : spanFor env o e.clock = .ok limits) :
    ∃ b, ((generate tenant user o).outcome env e).1 = .ok b ∧
      ∀ p ∈ d.required, ∃ decision,
        (Evaluation.evaluate tenant user (some p) (some scope)).outcome env e =
          (.ok decision, e) ∧
        ((∃ role policy, decision.verdict = .denied role policy) →
          ((∃ q ∈ d.required, e.store.ListsDenied tenant user (some scope) e.clock q) →
            b.featureAccess feature = .denied) ∧
          ((¬∃ q ∈ d.required, e.store.ListsDenied tenant user (some scope) e.clock q) →
            b.featureAccess feature = d.default) ∧
          ((b.featureAccess feature).isAllowed = true ↔ d.default.isAllowed = true ∧
            ¬∃ q ∈ d.required, e.store.ListsDenied tenant user (some scope) e.clock q)) := by
  obtain rfl : scopeFor env o = scope := scopeFor_of_scope ho hne
  obtain ⟨b, hfresh, hanswer⟩ := exists_generated hf hnow ht huser hmiss hspan
  refine ⟨b, hanswer, fun p hp => ⟨_, Evaluation.outcome_evaluate_of_checked ht _ _ _ _, ?_⟩⟩
  intro hdenied
  have hlisted := featureAccess_of_listsDenied hf hd hfeature hfeatures hfresh hscope
  have hdefault := featureAccess_of_denies hf hd hfeature hfeatures hfresh hscope hp
    (Store.exists_verdict_denied_iff.1 hdenied)
  refine ⟨hlisted, hdefault, ?_⟩
  by_cases hany : ∃ q ∈ d.required,
      e.store.ListsDenied tenant user (some (scopeFor env o)) e.clock q
  · rw [hlisted hany]
    exact ⟨nofun, fun h => absurd hany h.2⟩
  · rw [hdefault hany]
    exact ⟨fun h => ⟨h, hany⟩, fun h => h.1⟩

/-- All reports are denied, and the feature that exports them is granted. -/
theorem reports_are_open_by_default :
    ∃ b d, ((generate (some "acme") (some "alice") (.atScope (some "tenant:*"))).outcome
        Environment.fansAndReports Engine.fansOnly).1 = .ok b ∧
      (Evaluation.evaluate (some "acme") (some "alice") (some "reports.export.execute")
          (some "tenant:*")).outcome Environment.fansAndReports Engine.fansOnly =
        (.ok d, Engine.fansOnly) ∧
      (∃ role policy, d.verdict = .denied role policy) ∧
      (b.featureAccess "reports").isAllowed = true := by
  have hf : Environment.fansAndReports.features.IsMap := by
    rw [FeatureTable.IsMap]
    decide
  have hd : Environment.fansAndReports.features.features.get? "reports" =
      some ⟨["reports.export.execute"], .granted⟩ := rfl
  have hspan : spanFor Environment.fansAndReports (.atScope (some "tenant:*"))
      Engine.fansOnly.clock = .ok (300, ⟨300000000⟩) := rfl
  obtain ⟨b, hanswer, hall⟩ := denied_feature_is_open_iff Environment.fansAndReports hf
    Engine.fansOnly (by decide) (some "acme") (some "alice") rfl rfl (by decide) (by decide) hd
    List.not_mem_nil (o := .atScope (some "tenant:*")) rfl rfl (fun _ => rfl) hspan
  obtain ⟨decision, hdecision, hiff⟩ := hall _ (List.mem_singleton_self _)
  have hdenied : ∃ role policy, decision.verdict = .denied role policy := by
    have hverdict := hdecision
    rw [Evaluation.outcome_evaluate_of_checked rfl] at hverdict
    rw [← Except.ok.inj (congrArg Prod.fst hverdict)]
    exact Store.exists_verdict_denied_iff.2 ⟨_, _, Engine.fansOnly_reaches, "reports.*.*",
      List.mem_singleton_self _, by decide⟩
  refine ⟨b, decision, hanswer, hdecision, hdenied, (hiff hdenied).2.2.2 ⟨rfl, ?_⟩⟩
  rintro ⟨q, hq, hlisted⟩
  rw [List.mem_singleton.1 hq] at hlisted
  exact Engine.fansOnly_not_listsDenied (by decide) hlisted

end Generation

end Entitlements
