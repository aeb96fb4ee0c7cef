import Entitlements.Administration.FollowUp

/-!
Administration of policies. A key is created once; a policy of the platform is never changed; and a
policy that a role lists cannot be deleted. Arguments are checked in the order in which they are
listed, after the look-up that decides whether the call applies at all.
-/

namespace Entitlements

/-- The arguments of a new policy, as they were given. -/
structure NewPolicy where
  key : Given
  displayName : Given
  allow : Json
  deny : Json
  risk : Json
  conditions : Json
  description : Given
  isSystem : Bool

/-- The arguments of a change. What is missing stays. -/
structure PolicyChange where
  displayName : Given
  description : Given
  allow : Json
  deny : Json
  risk : Json
  conditions : Json

/-- The names of the fields that a change replaces, ascending. -/
def PolicyChange.fields (c : PolicyChange) : List String :=
  let given := [("allow", c.allow != .null), ("conditions", c.conditions != .null),
    ("deny", c.deny != .null), ("description", c.description.isSome),
    ("display_name", c.displayName.isSome), ("risk_level", c.risk != .null)]
  (given.filter (·.2)).map (·.1)

namespace Administration

open Call

/-! ### Checks of arguments -/

def patterns (given : Json) : Except Failure (List String) := do
  checkPatterns (← membersOf given)

def conditions (given : Json) : Except Failure (Option Conditions) :=
  if given = .null then .ok none else some <$> (Conditions.read given).outcome

/-- The replacement of a value if one is given, and else the value. -/
def replacing (given : Json) (current : α) (check : Json → Except Failure α) : Except Failure α :=
  if given = .null then .ok current else check given

def newPolicyDraft (p : NewPolicy) : Except Failure PolicyDraft := do
  let allow ← patterns p.allow
  let deny ← patterns p.deny
  let risk ← RiskLevel.parse p.risk .low
  let conditions ← conditions p.conditions
  return { key := p.key, allow, deny, risk, conditions, displayName := p.displayName
           description := p.description.getD "", isSystem := p.isSystem }

def changedPolicyDraft (c : PolicyChange) (current : Policy) : Except Failure PolicyDraft := do
  let allow ← replacing c.allow current.allow patterns
  let deny ← replacing c.deny current.deny patterns
  let risk ← replacing c.risk current.risk (RiskLevel.parse · .low)
  let conditions ← replacing c.conditions current.conditions conditions
  return { key := some current.key, allow, deny, risk, conditions
           displayName := some (c.displayName.getD current.displayName)
           description := c.description.getD current.description, isSystem := current.isSystem }

/-! ### Calls -/

def policyEvent (type : EventType) (tenant key : Given) (action : String) (actor : Given)
    (more : Json.Fields) : Event :=
  { type, tenant, entityType := "policy", entityId := key, action
    data := ("policy", .ofText? key) :: more, actor := .ofGiven actor }

def policy (tenant key : Given) : Call Policy := do
  orFail (.policyNotFound key) (← AccessStore.policy? tenant key)

def createPolicy (tenant : Given) (p : NewPolicy) (actor : Given) : Call Policy := do
  if (← AccessStore.policy? tenant p.key).isSome then throw (.policyKeyExists p.key)
  let draft ← ofExcept (newPolicyDraft p)
  let saved ← AccessStore.savePolicy tenant draft actor
  followUp (policyEvent .policyCreated tenant p.key "CREATE" actor []) .nothing "" actor
  return saved

def updatePolicy (tenant key : Given) (c : PolicyChange) (actor : Given) : Call Policy := do
  let current ← policy tenant key
  if current.isSystem then throw (.immutable .policy .modify key)
  let draft ← ofExcept (changedPolicyDraft c current)
  let saved ← AccessStore.savePolicy tenant draft actor
  followUp (policyEvent .policyUpdated tenant key "UPDATE" actor [("fields", .ofTexts c.fields)])
    .tenant ("Policy " ++ key.mention ++ " updated") actor
  return saved

def deletePolicy (tenant key actor : Given) : Call Unit := do
  let current ← policy tenant key
  if current.isSystem then throw (.immutable .policy .delete key)
  let roles ← AccessStore.rolesUsing tenant key
  if !roles.isEmpty then throw (.policyInUse key roles)
  let _ ← AccessStore.removePolicy tenant key
  followUp (policyEvent .policyDeleted tenant key "DELETE" actor [])
    .tenant ("Policy " ++ key.mention ++ " deleted") actor

end Administration

end Entitlements
