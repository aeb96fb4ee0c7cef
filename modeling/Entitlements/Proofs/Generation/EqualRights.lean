import Entitlements.Proofs.Access.Credit
import Entitlements.Proofs.Administration.Staleness
import Entitlements.Proofs.Evaluation.Decision
import Entitlements.Proofs.Generation.Runs

/-!
Equal rights make equal bundles. What a bundle says of rights, its checksum and the sources it
names depend on two things in the tables: the profile of the user, and which policies are carried to
the user by which roles. Through how many assignments they are carried, since when and until when,
at which scopes, and in which order the tables list them, leaves no trace; nor does the time.
-/

namespace Entitlements

open Time Call Generation

/-! ### What is carried to a user -/

namespace Store

variable {s : Store} {tenant user scope : Given} {now : Instant} {roleKey : String}
  {policy : Policy}

/-- Is there an assignment in force, of those to enumerate at a scope, whose role has this key and
holds this policy? -/
def Carries (s : Store) (tenant user scope : Given) (now : Instant) (roleKey : String)
    (policy : Policy) : Prop :=
  ∃ a ∈ s.assignments, a.InForce tenant user now ∧ a.reaches scope = true ∧
    ∃ role, s.role? tenant (some a.roleKey) = some role ∧ role.key = roleKey ∧
      ∃ key ∈ role.policyKeys, s.policy? tenant (some key) = some policy

theorem carries_iff :
    s.Carries tenant user scope now roleKey policy ↔
      ∃ g ∈ s.grantsFor tenant user scope now, g.role.key = roleKey ∧ g.policy = policy := by
  constructor
  · rintro ⟨a, ha, hforce, hreaches, role, hrole, hkey, hpolicy⟩
    refine ⟨⟨a.withStatus .active, role, policy⟩, ?_, hkey, rfl⟩
    exact mem_grantsWhere.2 ⟨a, ha, hforce, hreaches, mem_grantsOf.2 ⟨rfl, hrole, hpolicy⟩⟩
  · rintro ⟨g, hg, rfl, rfl⟩
    obtain ⟨a, ha, hforce, hreaches, hgrant⟩ := mem_grantsWhere.1 hg
    obtain ⟨-, hrole, hpolicy⟩ := mem_grantsOf.1 hgrant
    exact ⟨a, ha, hforce, hreaches, g.role, hrole, rfl, hpolicy⟩

/-- Policies are looked up by their keys, so among grants a key stands for one policy. -/
theorem keysPolicies_grantsFor (s : Store) (tenant user scope : Given) (now : Instant) :
    Grant.KeysPolicies (s.grantsFor tenant user scope now) := by
  have hfound {g : Grant} (hg : g ∈ s.grantsFor tenant user scope now) :
      s.policy? tenant (some g.policy.key) = some g.policy := by
    obtain ⟨a, -, -, -, hgrant⟩ := mem_grantsWhere.1 hg
    obtain ⟨-, -, key, -, hpolicy⟩ := mem_grantsOf.1 hgrant
    rw [Administration.key_of_policy? hpolicy]
    exact hpolicy
  intro g hg h hh hkey
  have hsame := hfound hg
  rw [hkey, hfound hh] at hsame
  exact (Option.some.inj hsame).symm

/-- Of two stores, what the first carries to a user the second does, too. -/
theorem pairsIn_grantsFor {s' : Store} {scope' : Given} {now' : Instant}
    (h : ∀ roleKey policy, s.Carries tenant user scope now roleKey policy →
      s'.Carries tenant user scope' now' roleKey policy) :
    Grant.PairsIn (s.grantsFor tenant user scope now)
      (s'.grantsFor tenant user scope' now') := by
  intro g hg
  exact carries_iff.1 (h g.role.key g.policy (carries_iff.2 ⟨g, hg, rfl, rfl⟩))

end Store

/-! ### Sources -/

namespace Grant

variable {grants others : List Grant}

theorem sources_congr (name : Grant → String)
    (hname : ∀ g h : Grant, h.role.key = g.role.key → h.policy = g.policy → name h = name g)
    (hin : PairsIn grants others) (hof : PairsIn others grants) :
    sortTexts (distinct (grants.map name)) = sortTexts (distinct (others.map name)) := by
  have hnamed {xs ys : List Grant} (hpairs : PairsIn xs ys) {s : String}
      (hs : s ∈ xs.map name) : s ∈ ys.map name := by
    obtain ⟨g, hg, rfl⟩ := List.mem_map.1 hs
    obtain ⟨h, hh, hrole, hpolicy⟩ := hpairs g hg
    exact List.mem_map.2 ⟨h, hh, hname g h hrole hpolicy⟩
  exact sortTexts_distinct_congr fun s => ⟨hnamed hin, hnamed hof⟩

end Grant

/-! ### Bundles -/

/-- Options that show the same views, wherever and for however long. -/
structure BundleOptions.ShowSame (o o' : BundleOptions) : Prop where
  domains : o'.withDomains = o.withDomains
  features : o'.withFeatures = o.withFeatures
  flat : o'.withFlat = o.withFlat

namespace Bundle

variable {grants others : List Grant} {o o' : BundleOptions}

/-- What a bundle of grants says of rights is said by their effective permissions. -/
theorem ofGrants_congr (ho : o.ShowSame o')
    (h : effectivePermissions grants = effectivePermissions others) (profile : Profile)
    (table : FeatureTable) (scope scope' : String) (ttl ttl' : Int)
    (generatedAt generatedAt' expiresAt expiresAt' : Instant) :
    let b := ofGrants profile grants table o scope ttl generatedAt expiresAt
    let b' := ofGrants profile others table o' scope' ttl' generatedAt' expiresAt'
    b'.domainPolicies = b.domainPolicies ∧ b'.featurePolicies = b.featurePolicies ∧
      b'.permissions = b.permissions ∧ b'.contentFields = b.contentFields := by
  simp only [ofGrants, contentFields, h, ho.domains, ho.features, ho.flat, and_self]

end Bundle

/-- Two bundles that are generated past the cache, in any two states and at any two times, say the
same of rights and name the same sources, with the same checksum, if the user has the same profile
and the same policies are carried to the user by roles with the same keys. -/
theorem Generation.same_rights_same_bundle {env env' : Environment} {e e' : Engine}
    {tenant user : Given} {o o' : BundleOptions} {b b' : Bundle}
    (hfeatures : env'.features = env.features)
    (hlength : env'.settings.checksumLength = env.settings.checksumLength)
    (hviews : o.ShowSame o') (huse : o.useCache = false) (huse' : o'.useCache = false)
    (hprofile : e'.store.profile? tenant user e'.clock = e.store.profile? tenant user e.clock)
    (hrights : ∀ roleKey policy,
      e'.store.Carries tenant user (some (scopeFor env' o')) e'.clock roleKey policy ↔
        e.store.Carries tenant user (some (scopeFor env o)) e.clock roleKey policy)
    (hb : ((generate tenant user o).outcome env e).1 = .ok b)
    (hb' : ((generate tenant user o').outcome env' e').1 = .ok b') :
    b'.domainPolicies = b.domainPolicies ∧ b'.featurePolicies = b.featurePolicies ∧
      b'.permissions = b.permissions ∧ b'.metadata.sourceRoles = b.metadata.sourceRoles ∧
      b'.metadata.sourcePolicies = b.metadata.sourcePolicies ∧
      b'.metadata.checksum = b.metadata.checksum := by
  rw [outcome_generate_uncached _ _ _ _ _ huse] at hb
  rw [outcome_generate_uncached _ _ _ _ _ huse'] at hb'
  obtain ⟨-, profile, hp, ttl, expiresAt, -, rfl⟩ := fresh_eq_ok_iff.1 hb
  obtain ⟨-, profile', hp', ttl', expiresAt', -, rfl⟩ := fresh_eq_ok_iff.1 hb'
  have hsame : profile' = profile := by
    rw [hprofile, hp] at hp'
    exact (Option.some.inj hp').symm
  subst hsame
  have hin := Store.pairsIn_grantsFor fun roleKey policy => (hrights roleKey policy).2
  have hof := Store.pairsIn_grantsFor fun roleKey policy => (hrights roleKey policy).1
  have hentries := effectivePermissions_congr hin hof
    (e.store.keysPolicies_grantsFor tenant user _ e.clock)
    (e'.store.keysPolicies_grantsFor tenant user _ e'.clock)
  obtain ⟨hdomains, hfeatured, hflat, hcontent⟩ := Bundle.ofGrants_congr hviews hentries profile'
    env.features (scopeFor env o) (scopeFor env' o') ttl ttl' e.clock e'.clock expiresAt expiresAt'
  have hroles := Grant.sources_congr (·.role.key) (fun _ _ hrole _ => hrole) hof hin
  have hpolicies := Grant.sources_congr (·.policy.key)
    (fun _ _ _ hpolicy => congrArg Policy.key hpolicy) hof hin
  simp only [bundleOf, Bundle.withChecksum, Bundle.contentChecksum, hfeatures, hlength]
  refine ⟨hdomains, hfeatured, hflat, hroles, hpolicies, ?_⟩
  rw [hcontent]

/-- The same user may start fans, through other assignments and later. -/
def Engine.fansLentTwice : Engine :=
  { fansAllowed with
    clock := ⟨5000000⟩
    store := { fansAllowed.store with
      assignments := [
        .plain "acme" "ra-0008" "alice" "operator" "site:north",
        { AssignmentRow.plain "acme" "ra-0007" "alice" "operator" "tenant:*" with
          expiresAt := some ⟨6000000⟩ }] } }

theorem Engine.carries_of_fansLentTwice (roleKey : String) (policy : Policy) :
    fansLentTwice.store.Carries (some "acme") (some "alice") (some "*") ⟨5000000⟩ roleKey policy ↔
      fansAllowed.store.Carries (some "acme") (some "alice") (some "tenant:*") ⟨0⟩ roleKey
        policy := by
  constructor
  · rintro ⟨a, ha, -, -, role, hrole, hkey, hpolicy⟩
    have hoperator : a.roleKey = "operator" := by
      rcases List.mem_cons.1 ha with rfl | ha
      · rfl
      · rw [List.mem_singleton.1 ha]
        rfl
    rw [hoperator] at hrole
    refine ⟨{ AssignmentRow.plain "acme" "ra-0001" "alice" "operator" "tenant:*" with
      grantedBy := "admin", updatedBy := some "admin" }, List.mem_singleton_self _, ?_, by decide,
      role, hrole, hkey, hpolicy⟩
    exact ⟨rfl, rfl, rfl, nofun⟩
  · rintro ⟨a, ha, -, -, role, hrole, hkey, hpolicy⟩
    rw [List.mem_singleton.1 ha] at hrole
    refine ⟨.plain "acme" "ra-0008" "alice" "operator" "site:north", List.mem_cons_self, ?_,
      by decide, role, hrole, hkey, hpolicy⟩
    exact ⟨rfl, rfl, rfl, nofun⟩

/-- The profile of a user changes with time only through memberships. -/
theorem Store.profile?_of_no_members {s : Store} (h : s.members = []) (tenant user : Given)
    (now later : Instant) : s.profile? tenant user now = s.profile? tenant user later := by
  simp only [profile?, primaryGroup?, memberships, h, List.flatMap_nil]

/-- Bundles at different scopes and times, with different times to live. -/
theorem Generation.same_bundle_of_fansLentTwice :
    ∃ b b', (generate (some "acme") (some "alice")
        (.full (some "tenant:*") false none)).outcome Environment.plain Engine.fansAllowed =
          (.ok b, Engine.fansAllowed) ∧
      (generate (some "acme") (some "alice")
        (.full (some "*") false (some (.whole 60)))).outcome Environment.plain
          Engine.fansLentTwice = (.ok b', Engine.fansLentTwice) ∧
      b'.metadata.scope ≠ b.metadata.scope ∧ b'.permissions = b.permissions ∧
      b'.metadata.checksum = b.metadata.checksum := by
  have hg : Environment.plain.settings.checkTenant (some "acme") = .ok () := rfl
  have huser : (Engine.fansAllowed.store.user? (some "acme") (some "alice")).isSome = true := rfl
  have huser' : (Engine.fansLentTwice.store.user? (some "acme") (some "alice")).isSome = true :=
    rfl
  have hspan : spanFor Environment.plain (.full (some "tenant:*") false none)
      Engine.fansAllowed.clock = .ok (300, ⟨300000000⟩) := rfl
  have hspan' : spanFor Environment.plain (.full (some "*") false (some (.whole 60)))
      Engine.fansLentTwice.clock = .ok (60, ⟨65000000⟩) := rfl
  obtain ⟨profile, hfresh⟩ := exists_fresh hg huser hspan
  obtain ⟨profile', hfresh'⟩ := exists_fresh hg huser' hspan'
  have hb := outcome_generate_uncached (some "acme") (some "alice")
    (.full (some "tenant:*") false none) Environment.plain Engine.fansAllowed rfl
  have hb' := outcome_generate_uncached (some "acme") (some "alice")
    (.full (some "*") false (some (.whole 60))) Environment.plain Engine.fansLentTwice rfl
  rw [hfresh] at hb
  rw [hfresh'] at hb'
  have hviews : BundleOptions.ShowSame (.full (some "tenant:*") false none)
      (.full (some "*") false (some (.whole 60))) := ⟨rfl, rfl, rfl⟩
  have hprofile : Engine.fansLentTwice.store.profile? (some "acme") (some "alice") ⟨5000000⟩ =
      Engine.fansAllowed.store.profile? (some "acme") (some "alice") ⟨0⟩ :=
    Store.profile?_of_no_members rfl _ _ _ _
  obtain ⟨-, -, hflat, -, -, hchecksum⟩ := same_rights_same_bundle rfl rfl hviews rfl rfl hprofile
    Engine.carries_of_fansLentTwice (congrArg Prod.fst hb) (congrArg Prod.fst hb')
  refine ⟨_, _, hb, hb', ?_, hflat, hchecksum⟩
  show "*" ≠ "tenant:*"
  decide

end Entitlements
