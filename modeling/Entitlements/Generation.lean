import Entitlements.Bundle.Compile
import Entitlements.Evaluation
import Entitlements.Engine.AuditLog
import Entitlements.Engine.BundleCache
import Entitlements.Engine.Directory

/-!
Generation of access bundles. A bundle is taken from the cache while its entry is a hit; otherwise
it is compiled from the store as it is now and, unless the caller bypasses the cache, becomes the
entry of its key. Marking entries forces the next request to compile again; each such call publishes
an event, whether or not there was anything to mark.
-/

namespace Entitlements

open Time

namespace Generation

open Call

/-! ### Compiling -/

def profile (tenant user : Given) : Call Profile := do
  let row ← orFail (.userNotFound user) (← Directory.user? tenant user)
  let customer ← match Given.nonempty? row.customerId with
    | some id => Directory.customer? tenant (some id)
    | none => pure none
  let group ← Directory.primaryGroup? tenant user
  return { userId := row.id, userEmail := row.email, customerId := row.customerId
           customerName := customer.map (·.displayName)
           group := group.map fun g => ⟨g.id, g.key, g.name⟩ }

def scopeOf (o : BundleOptions) : Call String := do
  return o.scope.nonempty?.getD (← read).settings.defaultScope

/-- Compiles a bundle from the store, without a look at the cache. -/
def compile (tenant user : Given) (o : BundleOptions) : Call Bundle := do
  let env ← read
  let scope ← scopeOf o
  let now ← now
  let profile ← profile tenant user
  let grants ← Evaluation.grants tenant user (some scope) none
  let lifetime := o.lifetime.getD (.whole env.settings.defaultTtlSeconds)
  let (ttl, expiresAt) ← ofExcept (lifetime.span now)
  let bundle := Bundle.ofGrants profile grants env.features o scope ttl now expiresAt
  return bundle.withChecksum (some env.settings.checksumLength)

/-- Compiles a bundle and makes it the entry of its key. -/
def compileAndCache (tenant user : Given) (o : BundleOptions) : Call Bundle := do
  let bundle ← compile tenant user o
  let _ ← BundleCache.put tenant user (some bundle.metadata.scope) bundle
    (some bundle.metadata.checksum) (some bundle.metadata.generatedAt.reading)
    (some bundle.metadata.expiresAt.reading)
  return bundle

def generate (tenant user : Given) (o : BundleOptions) : Call Bundle := do
  if o.useCache then
    match ← BundleCache.get? tenant user (some (← scopeOf o)) with
    | some entry => return entry.bundle
    | none => compileAndCache tenant user o
  else compile tenant user o

/-! ### Invalidation -/

def invalidated (tenant : Given) (entityType : String) (entityId reason scope actor : Given)
    (affected : Nat) : Event :=
  { type := .bundleInvalidated, tenant, entityType, entityId, action := "INVALIDATE"
    data := [("reason", .ofText? reason), ("scope", .ofText? scope), ("affected", .int affected)]
    actor := .ofGiven actor }

/-- Marks the entries of a user, at one scope or at all, and counts them. -/
def invalidate (tenant user reason scope actor : Given) : Call Nat := do
  let affected ← match scope.nonempty? with
    | some scope => do
      let marked ← BundleCache.invalidateScope tenant user (some scope) reason
      pure (if marked then 1 else 0)
    | none => BundleCache.invalidateUser tenant user reason
  AuditLog.publish (invalidated tenant "user_bundle" user reason scope actor affected)
  return affected

def invalidateTenant (tenant reason actor : Given) : Call Nat := do
  let affected ← BundleCache.invalidateTenant tenant reason
  AuditLog.publish
    (invalidated tenant "tenant_bundles" tenant reason (some "tenant:*") actor affected)
  return affected

/-- Marks the entry at a scope and generates it anew. -/
def refresh (tenant user scope reason : Given) : Call Bundle := do
  let o := BundleOptions.atScope (some (← scopeOf (.atScope scope)))
  let _ ← BundleCache.invalidateScope tenant user o.scope reason
  generate tenant user o

/-! ### Checks -/

def permits (tenant user : Given) (key : DomainKey) (scope : Given) : Call Bool := do
  return (← generate tenant user (.atScope scope)).permits key

def featureAccess (tenant user : Given) (feature : String) (scope : Given) :
    Call FeatureAccess := do
  return (← generate tenant user (.atScope scope)).featureAccess feature

end Generation

end Entitlements
