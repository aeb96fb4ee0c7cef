import Entitlements.Bundle.Checksum

/-!
Compiling grants into a bundle. The effective permissions of the grants are shown in three views: as
flat lists of texts, as the tree of domain keys, and as the features they open. Each view can be
left out, but features are always decided by the full lists.
-/

namespace Entitlements

open Time

/-! ### Times to live -/

/-- A time to live as a caller gives it. Only a whole number of seconds makes a bundle; of any other
number its whole part is held. -/
inductive Lifetime where
  | whole (seconds : Int)
  | fractional (seconds : Int)
  | unlimited
  | undefined
  | notNumber
  deriving DecidableEq

namespace Lifetime

/-- Numbers may be written with a fraction, as long as it is zero. -/
def ofJson : Json → Lifetime
  | .int n => .whole n
  | .bool b => .whole (if b then 1 else 0)
  | .real x => match x.ratio?, x with
    | some (num, den), _ => if num % den = 0 then .whole (num / den) else .fractional (num / den)
    | none, .nan => .undefined
    | none, _ => .unlimited
  | _ => .notNumber

/-- The seconds to live with the end they lead to. An end beyond all times is met before a fraction
is. -/
def span (l : Lifetime) (start : Instant) : Except Failure (Int × Instant) :=
  match l with
  | .whole n => match start.addSeconds? n with
    | some limit => .ok (n, limit)
    | none => .error .outOfRange
  | .fractional n =>
    if (start.addSeconds? n).isNone then .error .outOfRange
    else .error (.invalidDocument [⟨["ttl_seconds"], .fractionalInteger⟩])
  | .unlimited => .error .outOfRange
  | .undefined => .error .undefinedNumber
  | .notNumber => .error .wrongType

end Lifetime

/-! ### Options -/

/-- What a caller asks for. Without a scope or a time to live the deployment's own apply. -/
structure BundleOptions where
  scope : Given
  useCache : Bool
  lifetime : Option Lifetime
  withDomains : Bool
  withFeatures : Bool
  withFlat : Bool
  deriving DecidableEq

namespace BundleOptions

def default : BundleOptions := ⟨none, true, none, true, true, true⟩

def atScope (scope : Given) : BundleOptions := { default with scope }

end BundleOptions

/-! ### Bundles -/

namespace FlatPermissions

def none : FlatPermissions := ⟨[], []⟩

/-- The texts that are allowed, and those that a deny list holds. -/
def ofPermissions (entries : List EffectivePermission) : FlatPermissions :=
  { allowed := (entries.filter (·.allowed)).map (·.permission)
    denied := (entries.filter (·.explicitlyDenied)).map (·.permission) }

end FlatPermissions

def FeatureTable.policies (t : FeatureTable) (flat : FlatPermissions) : Keyed FeaturePolicy :=
  (t.evaluate flat.allowed flat.denied).map fun e => (e.1, ⟨e.2, none, none⟩)

namespace Bundle

/-- The bundle of some grants, without its checksum. -/
def ofGrants (profile : Profile) (grants : List Grant) (table : FeatureTable) (o : BundleOptions)
    (scope : String) (ttlSeconds : Int) (generatedAt expiresAt : Instant) : Bundle :=
  let entries := effectivePermissions grants
  let flat := FlatPermissions.ofPermissions entries
  { profile
    domainPolicies := if o.withDomains then DomainTree.ofPermissions entries else []
    featurePolicies := if o.withFeatures then table.policies flat else []
    permissions := if o.withFlat then flat else FlatPermissions.none
    metadata :=
      { generatedAt := .utc generatedAt, expiresAt := .utc expiresAt, ttlSeconds, scope
        sourceRoles := sortTexts (distinct (grants.map (·.role.key)))
        sourcePolicies := sortTexts (distinct (grants.map (·.policy.key)))
        checksum := "" } }

/-- A bundle of a user without rights, made for the cache alone. Its user and scope are given as
values of a document are. -/
def bare (user scope : Json) (generatedAt : Option Stamp) (lifetime : Lifetime) :
    Except Failure Bundle := do
  let user ← ((Schema.text user).under "user_id").outcome
  let some generatedAt := generatedAt | .error .wrongType
  let (ttlSeconds, limit) ← lifetime.span generatedAt.reading
  let scope ← ((Schema.text scope).under "scope").outcome
  let bundle : Bundle :=
    { profile :=
        { userId := user, userEmail := user ++ "@example.com", customerId := Option.none
          customerName := Option.none, group := Option.none }
      domainPolicies := [], featurePolicies := [], permissions := FlatPermissions.none
      metadata :=
        { generatedAt, expiresAt := { generatedAt with reading := limit }, ttlSeconds, scope
          sourceRoles := [], sourcePolicies := [], checksum := "" } }
  return bundle.withChecksum (some 16)

end Bundle

end Entitlements
