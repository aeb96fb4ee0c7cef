import Entitlements.Administration.Roles

/-!
Administration of assignments. A user holds a role at a scope once at a time: a second assignment is
refused while the first is in force. Revoking is final, and revoking what is no longer active is an
answer and not a failure.
-/

namespace Entitlements

open Time

namespace Administration

open Call

def assignmentEvent (type : EventType) (tenant id : Given) (action : String) (actor : Given)
    (user role scope reason : Given) : Event :=
  { type, tenant, entityType := "role_assignment", entityId := id, action
    data := [("user_id", .ofText? user), ("role_key", .ofText? role), ("scope", .ofText? scope),
      ("reason", .ofText? reason)]
    actor := .ofGiven actor }

/-- A limit that is given has to lie ahead. -/
def checkExpiry (expiresAt : Option Stamp) (now : Instant) : Except Failure Unit :=
  match expiresAt with
  | none => .ok ()
  | some stamp => do
    if (← stamp.instant) ≤ now then .error .expiryNotInFuture else .ok ()

def assignRole (tenant : Given) (d : AssignmentDraft) : Call Assignment := do
  let _ ← ofExcept (checkScope (.ofText? d.scope))
  let now ← now
  ofExcept (checkExpiry d.expiresAt now)
  let _ ← role tenant d.role
  if !(← read).isOvertaken then
    if (← AccessStore.liveAssignment? tenant d.user d.role d.scope).isSome then
      throw (.assignmentExists d.user d.role d.scope)
  let assignment ← AccessStore.createAssignment tenant d (some now)
  followUp
    (assignmentEvent .roleAssigned tenant (some assignment.id) "CREATE" d.grantedBy d.user d.role
      d.scope d.reason)
    (.user d.user) ("Role " ++ d.role.mention ++ " assigned") d.grantedBy
  return assignment

def revoke (tenant id actor reason : Given) : Call Assignment := do
  let current ← orFail (.assignmentNotFound id) (← AccessStore.assignment? tenant id)
  if current.status ≠ .active then return current
  let revoked? ← if (← read).isOvertaken then pure none
    else AccessStore.setStatus tenant id (some AssignmentStatus.revoked.text) actor
  let revoked ← orFail (.assignmentNotFound id) revoked?
  followUp
    (assignmentEvent .roleRevoked tenant id "REVOKE" actor (some current.userId)
      (some current.roleKey) (some current.scope) reason)
    (.user (some current.userId)) ("Role " ++ current.roleKey ++ " revoked") actor
  return revoked

/-- The assignments of a user, all of them or those in force. -/
def assignments (tenant user : Given) (liveOnly : Bool) : Call (List Assignment) := do
  let all ← AccessStore.assignments tenant user liveOnly
  let now ← now
  return if liveOnly then all.filter (·.isEffective now) else all

end Administration

end Entitlements
