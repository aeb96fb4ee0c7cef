import Entitlements.Engine.Basic
import Entitlements.Store.Access
import Entitlements.Access.Expiry

/-!
Calls on the tables of policies, roles and assignments. Each needs a tenant and looks at the rows of
that tenant only, and each write stands on its own once the call has made it. The reads of policies
and roles cannot fail beyond that; a read of an assignment fails if its recorded state is unknown.
-/

namespace Entitlements

open Time

namespace AccessStore

open Call

/-! ### Policies -/

def policy? (tenant key : Given) : Call (Option Policy) := do
  requireTenant tenant
  return (← store).policy? tenant key

def policyRowById? (tenant id : Given) : Call (Option PolicyRow) := do
  requireTenant tenant
  return ((← store).policyRows tenant).find? fun r => some r.policy.id == id

def policies (tenant : Given) (offset limit : Option Int) : Call (List Policy) := do
  requireTenant tenant
  let rows ← window offset limit ((← store).policyRows tenant)
  return rows.map (·.record)

/-- Replaces the policy of that key, or adds it. -/
def savePolicy (tenant : Given) (d : PolicyDraft) (actor : Given) : Call Policy := do
  requireTenant tenant
  let s ← store
  let now ← now
  match s.policyRow? tenant d.key with
  | none => do
    let id ← freshId .policy
    let (s, policy) ← orFail .constraint (s.insertPolicy? id tenant d actor now)
    write s
    return policy
  | some row => do
    let (s, policy) ← orFail .constraint (s.updatePolicy? row d actor now)
    write s
    return policy

def removePolicy (tenant key : Given) : Call Bool := do
  requireTenant tenant
  let s ← store
  write (s.removePolicy tenant key)
  return (s.policyRow? tenant key).isSome

/-! ### Roles -/

def role? (tenant key : Given) : Call (Option Role) := do
  requireTenant tenant
  return (← store).role? tenant key

def roleRowById? (tenant id : Given) : Call (Option RoleRow) := do
  requireTenant tenant
  return ((← store).roleRows tenant).find? fun r => some r.role.id == id

def roleRows (tenant : Given) (offset limit : Option Int) : Call (List RoleRow) := do
  requireTenant tenant
  window offset limit ((← store).roleRows tenant)

def roles (tenant : Given) : Call (List Role) := do
  requireTenant tenant
  return ((← store).roleRows tenant).map (·.role)

/-- The keys of the roles that list a policy, ascending. -/
def rolesUsing (tenant policy : Given) : Call (List String) := do
  requireTenant tenant
  return (← store).rolesUsing tenant policy

/-- Replaces the role of that key, or adds it. -/
def saveRole (tenant : Given) (d : RoleDraft) (actor : Given) : Call Role := do
  requireTenant tenant
  let s ← store
  let now ← now
  match s.roleRow? tenant d.key with
  | none => do
    let id ← freshId .role
    let (s, role) ← orFail .constraint (s.insertRole? id tenant d actor now)
    write s
    return role
  | some row => do
    let (s, role) ← orFail .constraint (s.updateRole? row d actor now)
    write s
    return role

def removeRole (tenant key : Given) : Call Bool := do
  requireTenant tenant
  let s ← store
  write (s.removeRole tenant key)
  return (s.roleRow? tenant key).isSome

/-! ### Assignments -/

def assignment? (tenant id : Given) : Call (Option Assignment) := do
  requireTenant tenant
  ((← store).assignmentRow? tenant id).mapM fun row : AssignmentRow => ofExcept row.record

def assignments (tenant user : Given) (liveOnly : Bool) : Call (List Assignment) := do
  requireTenant tenant
  let s ← store
  let now ← now
  let rows := if liveOnly then s.liveAssignmentsOf tenant user now else s.assignmentsOf tenant user
  rows.mapM fun row : AssignmentRow => ofExcept row.record

def liveAssignment? (tenant user role scope : Given) : Call (Option Assignment) := do
  requireTenant tenant
  let row? := (← store).liveAssignment? tenant user role scope (← now)
  row?.mapM fun row : AssignmentRow => ofExcept row.record

def countLive (tenant role : Given) : Call Nat := do
  requireTenant tenant
  return (← store).countLive tenant role (← now)

/-- Adds an assignment. The answer gives its expiry as the instant that was asked for, while the
row keeps the reading. Which rows have lapsed cannot be told without a time. -/
def createAssignment (tenant : Given) (d : AssignmentDraft) (grantedAt : Option Instant) :
    Call Assignment := do
  requireTenant tenant
  let grantedAt ← orFail .incomparable grantedAt
  let id ← freshId .assignment
  let (s, row) ← orFail (.assignmentExists d.user d.role d.scope)
    ((← store).insertAssignment? id tenant d grantedAt)
  write s
  let expiresAt ← d.expiresAt.mapM fun stamp : Stamp => ofExcept stamp.instant
  return { row.withStatus .active with expiresAt }

/-- Records a state, known or not; the answer fails if it is not. -/
def setStatus (tenant id status actor : Given) : Call (Option Assignment) := do
  requireTenant tenant
  let s ← store
  match s.assignmentRow? tenant id with
  | none => return none
  | some row => do
    let (s, row) ← orFail .constraint (s.setStatus? row status actor (← now))
    write s
    return some (← ofExcept row.record)

/-- Records the expiry of the tenant's lapsed assignments, and counts them. -/
def expireAssignments (tenant : Given) (now : Instant) : Call Nat := do
  requireTenant tenant
  let s ← store
  let owned (r : AssignmentRow) := some r.tenant == tenant
  write (s.expireWhere owned now)
  return s.assignments.countP fun r => owned r && r.isLapsed now

end AccessStore

end Entitlements
