import Entitlements.Proofs.Engine.Outcome
import Entitlements.Generation

/-!
What a bundle is compiled from. Compiling writes nothing, so it comes to a function of the
environment and the engine: the profile of the user, the grants that reach the scope, the feature
table, and the time. `fresh` is that function, and the outcome of every call that compiles is given
in terms of it.
-/

namespace Entitlements

open Time Call

/-- The profile of a user at a time, if there is such a user. -/
def Store.profile? (s : Store) (tenant user : Given) (now : Instant) : Option Profile :=
  (s.user? tenant user).map fun row =>
    { userId := row.id, userEmail := row.email, customerId := row.customerId
      customerName :=
        ((Given.nonempty? row.customerId).bind fun id => s.customer? tenant (some id)).map
          (·.displayName)
      group := (s.primaryGroup? tenant user now).map fun g => ⟨g.id, g.key, g.name⟩ }

theorem Store.isSome_profile? (s : Store) (tenant user : Given) (now : Instant) :
    (s.profile? tenant user now).isSome = (s.user? tenant user).isSome := by
  simp [profile?]

namespace Generation

/-- The scope that options mean. -/
def scopeFor (env : Environment) (o : BundleOptions) : String :=
  o.scope.nonempty?.getD env.settings.defaultScope

/-- The seconds to live that options mean, with the end they lead to. -/
def spanFor (env : Environment) (o : BundleOptions) (now : Instant) :
    Except Failure (Int × Instant) :=
  (o.lifetime.getD (.whole env.settings.defaultTtlSeconds)).span now

/-- The bundle of a profile as the store grants rights now. -/
def bundleOf (env : Environment) (e : Engine) (tenant user : Given) (o : BundleOptions)
    (profile : Profile) (ttlSeconds : Int) (expiresAt : Instant) : Bundle :=
  let scope := scopeFor env o
  (Bundle.ofGrants profile (e.store.grantsFor tenant user (some scope) e.clock) env.features o
    scope ttlSeconds e.clock expiresAt).withChecksum (some env.settings.checksumLength)

/-- The bundle that compiling makes, or why there is none. -/
def fresh (env : Environment) (e : Engine) (tenant user : Given) (o : BundleOptions) :
    Except Failure Bundle := do
  env.settings.checkTenant tenant
  let profile ← (e.store.profile? tenant user e.clock).elim (.error (.userNotFound user)) .ok
  let (ttlSeconds, expiresAt) ← spanFor env o e.clock
  return bundleOf env e tenant user o profile ttlSeconds expiresAt

/-! ### Outcomes -/

variable (tenant user : Given) (o : BundleOptions) (env : Environment) (e : Engine)

@[simp] theorem outcome_grants (scope : Given) :
    (Evaluation.grants tenant user scope none).outcome env e =
      ((env.settings.checkTenant tenant).map fun _ =>
        e.store.grantsFor tenant user scope e.clock, e) := by
  simp only [Evaluation.grants, outcome_bind, outcome_requireTenant]
  cases env.settings.checkTenant tenant <;> simp [Except.map]

@[simp] theorem outcome_effective (scope : Given) :
    (Evaluation.effective tenant user scope).outcome env e =
      ((env.settings.checkTenant tenant).map fun _ =>
        effectivePermissions (e.store.grantsFor tenant user scope e.clock), e) := by
  simp only [Evaluation.effective, outcome_bind, outcome_grants]
  cases env.settings.checkTenant tenant <;> simp [Except.map]

@[simp] theorem outcome_scopeOf :
    (scopeOf o).outcome env e = (.ok (scopeFor env o), e) := by
  simp [scopeOf, scopeFor]

@[simp] theorem outcome_profile :
    (profile tenant user).outcome env e =
      (do
        env.settings.checkTenant tenant
        (e.store.profile? tenant user e.clock).elim (.error (.userNotFound user)) .ok, e) := by
  rcases hg : env.settings.checkTenant tenant with failure | _
  · simp [profile, Directory.user?, hg]
  · rcases hu : e.store.user? tenant user with _ | row
    · simp [profile, Directory.user?, hg, hu, Store.profile?]
    · rcases hc : Given.nonempty? row.customerId with _ | id <;>
        simp [profile, Directory.user?, Directory.customer?, Directory.primaryGroup?, hg, hu, hc,
          Store.profile?]

/-- Compiling leaves the engine alone. -/
@[simp] theorem outcome_compile :
    (compile tenant user o).outcome env e = (fresh env e tenant user o, e) := by
  rcases hg : env.settings.checkTenant tenant with failure | _
  · simp [compile, fresh, hg]
  · rcases hp : e.store.profile? tenant user e.clock with _ | profile
    · simp [compile, fresh, hg, hp]
    · rcases hs : spanFor env o e.clock with failure | ⟨ttlSeconds, expiresAt⟩
      · have hs' := hs
        rw [spanFor] at hs'
        simp [compile, fresh, hg, hp, hs, hs', Except.map]
      · have hs' := hs
        rw [spanFor] at hs'
        simp [compile, fresh, hg, hp, hs, hs', Except.map, bundleOf]

theorem outcome_generate_uncached (h : o.useCache = false) :
    (generate tenant user o).outcome env e = (fresh env e tenant user o, e) := by
  simp [generate, h]

/-! ### When there is a bundle -/

variable {tenant user o env e}

theorem scopeFor_of_scope {scope : String} (ho : o.scope = some scope) (hne : scope ≠ "") :
    scopeFor env o = scope := by
  simp [scopeFor, ho, Given.nonempty?, Option.filter, hne]

theorem fresh_eq_ok {profile : Profile} {ttlSeconds : Int} {expiresAt : Instant}
    (hg : env.settings.checkTenant tenant = .ok ())
    (hp : e.store.profile? tenant user e.clock = some profile)
    (hs : spanFor env o e.clock = .ok (ttlSeconds, expiresAt)) :
    fresh env e tenant user o =
      .ok (bundleOf env e tenant user o profile ttlSeconds expiresAt) := by
  simp [fresh, hg, hp, hs]

/-- Of a user there is a bundle, as long as it has an end. -/
theorem exists_fresh {ttlSeconds : Int} {expiresAt : Instant}
    (hg : env.settings.checkTenant tenant = .ok ())
    (huser : (e.store.user? tenant user).isSome = true)
    (hs : spanFor env o e.clock = .ok (ttlSeconds, expiresAt)) :
    ∃ profile, fresh env e tenant user o =
      .ok (bundleOf env e tenant user o profile ttlSeconds expiresAt) := by
  rw [← Store.isSome_profile? _ _ _ e.clock] at huser
  obtain ⟨profile, hprofile⟩ := Option.isSome_iff_exists.1 huser
  exact ⟨profile, fresh_eq_ok hg hprofile hs⟩

theorem fresh_eq_ok_iff {b : Bundle} :
    fresh env e tenant user o = .ok b ↔
      env.settings.checkTenant tenant = .ok () ∧
        ∃ profile, e.store.profile? tenant user e.clock = some profile ∧
          ∃ ttlSeconds expiresAt, spanFor env o e.clock = .ok (ttlSeconds, expiresAt) ∧
            b = bundleOf env e tenant user o profile ttlSeconds expiresAt := by
  constructor
  · intro h
    unfold fresh at h
    rcases hg : env.settings.checkTenant tenant with failure | _
    · simp [hg] at h
    · rcases hp : e.store.profile? tenant user e.clock with _ | profile
      · simp [hg, hp] at h
      · rcases hs : spanFor env o e.clock with failure | ⟨ttlSeconds, expiresAt⟩
        · simp [hg, hp, hs] at h
        · simp only [hg, hp, hs, ok_bind, Option.elim_some, pure_eq_ok, Except.ok.injEq] at h
          exact ⟨rfl, profile, rfl, ttlSeconds, expiresAt, rfl, h.symm⟩
  · rintro ⟨hg, profile, hp, ttlSeconds, expiresAt, hs, rfl⟩
    exact fresh_eq_ok hg hp hs

end Generation

end Entitlements
