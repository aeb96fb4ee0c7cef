import Entitlements.Engine.Basic
import Entitlements.Store.BundleCache

/-!
Calls on the cache of bundles. Each needs a tenant. In an environment where marking does not work,
the three calls that invalidate fail before they look at anything, and the others work as usual.
-/

namespace Entitlements

open Time

namespace BundleCache

open Call

/-- The entry of a key, while it is neither marked nor expired. -/
def get? (tenant user scope : Given) : Call (Option CacheEntry) := do
  requireTenant tenant
  ((← store).cacheHit? tenant user scope (← now)).mapM fun row => ofExcept row.entry

/-- Writes the entry of a key, whatever it held before. No column takes a missing value. -/
def put (tenant user scope : Given) (bundle : Bundle) (checksum : Given)
    (generatedAt expiresAt : Option Instant) : Call CacheEntry := do
  requireTenant tenant
  let (s, row) ← orFail .constraint
    ((← store).cacheBundle? tenant user scope bundle checksum generatedAt expiresAt)
  write s
  ofExcept row.entry

/-! ### Invalidation -/

def invalidateWhere (tenant : Given) (selected : CacheRow → Bool) (reason : String) :
    Call Nat := do
  if (← read).canInvalidate then
    requireTenant tenant
    let (s, count) := (← store).invalidateWhere selected (← now) reason
    write s
    return count
  else throw .cacheUnavailable

def invalidateUser (tenant user reason : Given) : Call Nat :=
  invalidateWhere tenant (fun r => some r.tenant == tenant && some r.userId == user)
    (reason.nonempty?.getD Store.manualReason)

def invalidateScope (tenant user scope reason : Given) : Call Bool := do
  let count ← invalidateWhere tenant (·.hasKey tenant user scope)
    (reason.nonempty?.getD Store.manualReason)
  return decide (0 < count)

def invalidateTenant (tenant reason : Given) : Call Nat :=
  invalidateWhere tenant (fun r => some r.tenant == tenant)
    (reason.nonempty?.getD Store.tenantReason)

/-! ### Removal -/

def removeWhere (selected : CacheRow → Bool) : Call Nat := do
  let (s, count) := (← store).uncacheWhere selected
  write s
  return count

/-- Removes the entries of a user, of all scopes or of one. -/
def delete (tenant user scope : Given) : Call Nat := do
  requireTenant tenant
  removeWhere fun r => some r.tenant == tenant && some r.userId == user && scope.all (· == r.scope)

end BundleCache

end Entitlements
