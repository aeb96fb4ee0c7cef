import Entitlements.Store.Row

/-!
The table of cached bundles, with one row for each tenant, user and scope. Invalidation only marks a
row: it stays, with the time and reason of the first mark, until it is written again or a clean-up
removes it. A row that is marked or expired is never a hit, so removing such rows changes no read.
-/

namespace Entitlements

open Time

namespace CacheRow

/-- Is a row selected and not marked yet? -/
def isMarkable (selected : CacheRow → Bool) (r : CacheRow) : Bool :=
  selected r && r.invalidatedAt.isNone

def isExpired (now : Instant) (r : CacheRow) : Bool := decide (r.expiresAt ≤ now)

def isMarkedBefore (cutoff : Instant) (r : CacheRow) : Bool :=
  r.invalidatedAt.any fun t => decide (t < cutoff)

theorem not_isHit_of_isExpired {now : Instant} {r : CacheRow}
    (h : isExpired now r = true) : r.isHit now = false := by
  simp only [isExpired, decide_eq_true_eq] at h
  simp [isHit, Instant.not_lt.2 h]

theorem not_isHit_of_isMarkedBefore {cutoff now : Instant} {r : CacheRow}
    (h : isMarkedBefore cutoff r = true) : r.isHit now = false := by
  cases hr : r.invalidatedAt <;> simp_all [isMarkedBefore, isHit]

end CacheRow

namespace Store

def manualReason : String := "Manual invalidation"

def tenantReason : String := "Tenant-wide invalidation"

/-- The row that reads see, if it is a hit. -/
def cacheHit? (s : Store) (tenant user scope : Given) (now : Instant) : Option CacheRow :=
  s.cache.find? fun r => r.hasKey tenant user scope && r.isHit now

/-- Writes a row in the place of the one with its key, or else at the end. -/
def putCacheRow (row : CacheRow) : List CacheRow → List CacheRow
  | [] => [row]
  | r :: rest =>
    if r.hasKey (some row.tenant) (some row.userId) (some row.scope) then row :: rest
    else r :: putCacheRow row rest

def cacheBundle? (s : Store) (tenant user scope : Given) (bundle : Bundle) (checksum : Given)
    (generatedAt expiresAt : Option Instant) : Option (Store × CacheRow) := do
  let row : CacheRow :=
    { tenant := ← tenant, userId := ← user, scope := ← scope, bundle := bundle.toJson
      checksum := ← checksum, generatedAt := ← generatedAt, expiresAt := ← expiresAt
      invalidatedAt := none, invalidationReason := none, updatedAt := ← generatedAt }
  return ({ s with cache := putCacheRow row s.cache }, row)

/-! ### Invalidation -/

/-- Marks the selected rows that carry no mark yet, and counts them. -/
def invalidateWhere (s : Store) (selected : CacheRow → Bool) (now : Instant) (reason : String) :
    Store × Nat :=
  let markable := CacheRow.isMarkable selected
  ({ s with cache := s.cache.map fun r => if markable r then r.invalidate now reason else r },
    s.cache.countP markable)

/-! ### Removal -/

/-- Removes the selected rows, and counts them. -/
def uncacheWhere (s : Store) (selected : CacheRow → Bool) : Store × Nat :=
  ({ s with cache := s.cache.filter fun r => !selected r }, s.cache.countP selected)

end Store

end Entitlements
