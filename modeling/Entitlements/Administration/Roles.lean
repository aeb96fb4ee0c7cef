import Entitlements.Administration.Policies

/-!
Administration of roles. A role lists policies that exist, each once; a role of the platform is
never changed; and a role with live assignments cannot be deleted, so that no assignment in force
ever names a role that is gone.
-/

namespace Entitlements

/-- The arguments of a new role, as they were given. -/
structure NewRole where
  key : Given
  displayName : Given
  policyKeys : Json
  risk : Json
  description : Given
  tags : Json
  isSystem : Bool

/-- The arguments of a change. What is missing stays. -/
structure RoleChange where
  displayName : Given
  description : Given
  policyKeys : Json
  risk : Json
  tags : Json

/-- The names of the fields that a change replaces, ascending. -/
def RoleChange.fields (c : RoleChange) : List String :=
  let given := [("description", c.description.isSome), ("display_name", c.displayName.isSome),
    ("policy_keys", c.policyKeys != .null), ("risk_level", c.risk != .null),
    ("tags", c.tags != .null)]
  (given.filter (·.2)).map (·.1)

namespace Administration

open Call

/-- A key in a list of keys. Numbers and flags are no keys of anything, but can be asked for. -/
def keyOf (given : Json) : Except Failure Given :=
  match given with
  | .null => .ok none
  | .str s => .ok (some s)
  | .arr _ | .obj _ => .error .wrongType
  | given => .ok (some given.mentioned)

/-- The keys of policies that have to exist, without repetitions. -/
def requirePolicies (tenant : Given) (keys : Json) : Call (List String) := do
  let keys ← ofExcept (do (← membersOf keys).mapM keyOf)
  (distinct keys).mapM fun key => do return (← policy tenant key).key

def tags (given : Json) : Except Failure (List String) := do
  (← membersOf given).mapM fun
    | .str tag => .ok tag
    | _ => .error .wrongType

def roleEvent (type : EventType) (tenant key : Given) (action : String) (actor : Given)
    (more : Json.Fields) : Event :=
  { type, tenant, entityType := "role", entityId := key, action
    data := ("role", .ofText? key) :: more, actor := .ofGiven actor }

def role (tenant key : Given) : Call Role := do
  orFail (.roleNotFound key) (← AccessStore.role? tenant key)

def createRole (tenant : Given) (r : NewRole) (actor : Given) : Call Role := do
  if (← AccessStore.role? tenant r.key).isSome then throw (.roleKeyExists r.key)
  let policyKeys ← requirePolicies tenant r.policyKeys
  let risk ← ofExcept (RiskLevel.parse r.risk .low)
  let tags ← ofExcept (tags r.tags)
  let saved ← AccessStore.saveRole tenant
    { key := r.key, policyKeys, risk, displayName := r.displayName
      description := r.description.getD "", tags, isSystem := r.isSystem } actor
  followUp (roleEvent .roleCreated tenant r.key "CREATE" actor []) .nothing "" actor
  return saved

def updateRole (tenant key : Given) (c : RoleChange) (actor : Given) : Call Role := do
  let current ← role tenant key
  if current.isSystem then throw (.immutable .role .modify key)
  let policyKeys ←
    if c.policyKeys = .null then pure current.policyKeys else requirePolicies tenant c.policyKeys
  let risk ← ofExcept (replacing c.risk current.risk (RiskLevel.parse · .low))
  let tags ← ofExcept (replacing c.tags current.tags tags)
  let saved ← AccessStore.saveRole tenant
    { key := some current.key, policyKeys, risk
      displayName := some (c.displayName.getD current.displayName)
      description := c.description.getD current.description, tags
      isSystem := current.isSystem } actor
  followUp (roleEvent .roleUpdated tenant key "UPDATE" actor [("fields", .ofTexts c.fields)])
    .tenant ("Role " ++ key.mention ++ " updated") actor
  return saved

def deleteRole (tenant key actor : Given) : Call Unit := do
  let current ← role tenant key
  if current.isSystem then throw (.immutable .role .delete key)
  let active ← AccessStore.countLive tenant key
  if active ≠ 0 then throw (.roleInUse key active)
  let _ ← AccessStore.removeRole tenant key
  followUp (roleEvent .roleDeleted tenant key "DELETE" actor [])
    .tenant ("Role " ++ key.mention ++ " deleted") actor

end Administration

end Entitlements
