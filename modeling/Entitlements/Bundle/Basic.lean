import Entitlements.Bundle.DomainTree
import Entitlements.Bundle.Feature

/-!
Access bundles: everything a consumer needs to know about one user's rights at one scope, with the
profile of the user and a record of how and when the bundle was made.
-/

namespace Entitlements

open Time

structure GroupSummary where
  id : String
  key : String
  name : String
  deriving DecidableEq

structure Profile where
  userId : String
  userEmail : String
  customerId : Option String
  customerName : Option String
  group : Option GroupSummary
  deriving DecidableEq

structure FeaturePolicy where
  access : FeatureAccess
  conditions : Option Conditions
  expiresAt : Option String
  deriving DecidableEq

structure FlatPermissions where
  allowed : List String
  denied : List String
  deriving DecidableEq

structure Metadata where
  generatedAt : Stamp
  expiresAt : Stamp
  ttlSeconds : Int
  scope : String
  sourceRoles : List String
  sourcePolicies : List String
  checksum : String
  deriving DecidableEq

structure Bundle where
  profile : Profile
  domainPolicies : DomainTree
  featurePolicies : Keyed FeaturePolicy
  permissions : FlatPermissions
  metadata : Metadata
  deriving DecidableEq

namespace Bundle

def permits (b : Bundle) (key : DomainKey) : Bool := DomainTree.permits b.domainPolicies key

/-- A feature that the bundle does not list is not granted. -/
def featureAccess (b : Bundle) (feature : String) : FeatureAccess :=
  match b.featurePolicies.get? feature with
  | some policy => policy.access
  | none => .notGranted

end Bundle

end Entitlements
