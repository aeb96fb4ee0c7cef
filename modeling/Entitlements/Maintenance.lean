import Entitlements.Engine.AccessStore
import Entitlements.Engine.BundleCache

/-!
Clean-up. The passes remove cached bundles that no read would take any more, for all tenants at
once, and record the expiry of assignments that nobody counts any more, for one tenant. They may run
at the time of the clock or at one that the caller gives.
-/

namespace Entitlements

open Time

namespace Maintenance

open Call

def timeOf (present : Option Stamp) : Call Instant :=
  match present with
  | some present => pure present.reading
  | none => now

/-- Removes the entries that have expired. -/
def pruneExpired (present : Option Stamp) : Call Nat := do
  BundleCache.removeWhere (CacheRow.isExpired (← timeOf present))

/-- Removes the entries that were marked more than some days ago. Entries that were marked lately
stay for diagnosis, as long as the deployment says. -/
def pruneInvalidated (days : Option Int) (present : Option Stamp) : Call Nat := do
  let days := days.getD (← read).settings.retentionDays
  let cutoff ← orFail .outOfRange ((← timeOf present).addDays? (-days))
  BundleCache.removeWhere (CacheRow.isMarkedBefore cutoff)

def expireAssignments (tenant : Given) (present : Option Stamp) : Call Nat := do
  AccessStore.expireAssignments tenant (← timeOf present)

/-! ### Scheduled tasks -/

inductive Task where
  | pruneExpired
  | pruneInvalidated
  | expireAssignments
  deriving DecidableEq, Repr

namespace Task

def name : Task → String
  | .pruneExpired => "prune_expired_bundles"
  | .pruneInvalidated => "prune_invalidated_bundles"
  | .expireAssignments => "expire_role_assignments"

def ofName? : String → Option Task
  | "prune_expired_bundles" => some .pruneExpired
  | "prune_invalidated_bundles" => some .pruneInvalidated
  | "expire_role_assignments" => some .expireAssignments
  | _ => none

end Task

def run (task tenant : Given) (days : Option Int) : Call Nat := do
  match task.bind Task.ofName? with
  | none => throw (.unknownTask task)
  | some .pruneExpired => pruneExpired none
  | some .pruneInvalidated => pruneInvalidated days none
  | some .expireAssignments =>
    if tenant.nonempty?.isSome then expireAssignments tenant none else throw .taskNeedsTenant

end Maintenance

end Entitlements
