import Entitlements.Failure

/-!
Events that the engine publishes when rights change. An event names the tenant and entity it is
about, what happened to it, and who did it; a missing or empty actor is the system itself.
-/

namespace Entitlements

inductive EventType where
  | roleCreated
  | roleUpdated
  | roleDeleted
  | policyCreated
  | policyUpdated
  | policyDeleted
  | roleAssigned
  | roleRevoked
  | domainPermissionCreated
  | domainPermissionUpdated
  | domainPermissionDeleted
  | bundleInvalidated
  deriving DecidableEq, Repr

def EventType.text : EventType → String
  | .roleCreated => "ROLE_CREATED"
  | .roleUpdated => "ROLE_UPDATED"
  | .roleDeleted => "ROLE_DELETED"
  | .policyCreated => "POLICY_CREATED"
  | .policyUpdated => "POLICY_UPDATED"
  | .policyDeleted => "POLICY_DELETED"
  | .roleAssigned => "ROLE_ASSIGNED"
  | .roleRevoked => "ROLE_REVOKED"
  | .domainPermissionCreated => "DOMAIN_PERMISSION_CREATED"
  | .domainPermissionUpdated => "DOMAIN_PERMISSION_UPDATED"
  | .domainPermissionDeleted => "DOMAIN_PERMISSION_DELETED"
  | .bundleInvalidated => "BUNDLE_INVALIDATED"

theorem EventType.text_injective {a b : EventType} (h : a.text = b.text) : a = b := by
  cases a <;> cases b <;> first | rfl | simp [text] at h

inductive Actor where
  | system
  | user (id : String)
  deriving DecidableEq, Repr

namespace Actor

def ofGiven (id : Given) : Actor :=
  match id.nonempty? with
  | some id => .user id
  | none => .system

def typeName : Actor → String
  | .system => "system"
  | .user _ => "user"

def id? : Actor → Option String
  | .system => none
  | .user id => some id

def toJson (a : Actor) : Json := .obj [("user_id", .ofText? a.id?), ("type", .str a.typeName)]

/-- How the actor behind any value is shown. A value that counts as nothing is the system. -/
def describe (id : Json) : Json :=
  if id.isNothing then system.toJson
  else .obj [("user_id", id), ("type", .str (user "").typeName)]

end Actor

structure Event where
  type : EventType
  tenant : Given
  entityType : String
  entityId : Given
  action : String
  data : Json.Fields
  actor : Actor

def Event.payload (e : Event) : Json :=
  .obj [("tenant_id", .ofText? e.tenant), ("entity_type", .str e.entityType),
    ("entity_id", .ofText? e.entityId), ("action", .str e.action), ("data", .obj e.data),
    ("actor", e.actor.toJson)]

end Entitlements
