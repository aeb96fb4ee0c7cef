import Entitlements.Engine.AccessStore

/-!
Evaluation of rights. Nothing here writes. A decision looks at the live assignments of a user that
cover the scope of the resource; an enumeration lists what those assignments carry, and without a
scope, or at the wildcard, what all of them carry.
-/

namespace Entitlements

open Time

namespace Evaluation

open Call

/-! ### Decisions -/

def evaluate (tenant user permission scope : Given) : Call Decision := do
  requireTenant tenant
  let now ← now
  return { verdict := (← store).verdict tenant user permission scope now, evaluatedAt := now }

/-- The decisions on several permissions, each listed once. -/
structure Batch where
  results : List (Given × Decision)

namespace Batch

def total (b : Batch) : Nat := b.results.length

def allowed (b : Batch) : Nat := b.results.countP fun r => r.2.verdict.isAllowed

def denied (b : Batch) : Nat := b.total - b.allowed

end Batch

/-- Looks the grants up once and decides each distinct permission by them. -/
def evaluateBatch (tenant user : Given) (permissions : List Given) (scope : Given) :
    Call Batch := do
  requireTenant tenant
  let now ← now
  let s ← store
  let isUnassigned := (s.liveAssignmentsOf tenant user now).isEmpty
  let grants := s.grantsAt tenant user scope now
  let decide (permission : Given) : Decision :=
    { verdict := if isUnassigned then .noAssignments else Verdict.ofGrants grants permission
      evaluatedAt := now }
  return ⟨(distinct permissions).map fun p => (p, decide p)⟩

/-! ### Enumeration -/

/-- Is the expiry of an assignment still ahead of a present that a caller wrote? -/
def isAheadOf (present : Stamp) (r : AssignmentRow) : Except Failure Bool :=
  match r.expiresAt with
  | none => .ok true
  | some t => limitAhead (.utc t) present

/-- The grants at the time of the clock, or at a time that the caller gives. -/
def grants (tenant user scope : Given) (present : Option Stamp) : Call (List Grant) := do
  requireTenant tenant
  let s ← store
  match present with
  | none => return s.grantsFor tenant user scope (← now)
  | some present => do
    let live := s.liveAssignmentsOf tenant user present.reading
    let effective ← ofExcept (live.filterM (isAheadOf present))
    return (effective.filter (AssignmentRow.reaches scope)).flatMap (s.grantsOf tenant)

def effective (tenant user scope : Given) : Call (List EffectivePermission) := do
  return effectivePermissions (← grants tenant user scope none)

end Evaluation

end Entitlements
