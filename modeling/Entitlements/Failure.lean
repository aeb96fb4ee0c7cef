import Entitlements.Permission.Basic
import Entitlements.Schema.Reader
import Entitlements.Json.Printer

/-!
The ways in which a call can fail. Each constructor is one cause with the values it concerns, and
the wording stands in one function. The failures of the entitlement rules themselves fall into four
families, by what the caller may do about them; the others come from the arguments, the tenant
guard, or the tables.
-/

namespace Entitlements

/-- A text argument of a call. A missing one equals no stored text, and no required column takes
it; messages mention it by the word for nothing. -/
abbrev Given := Option String

def Given.mention (g : Given) : String := g.getD "None"

/-- A given text that is there and not empty. -/
def Given.nonempty? (g : Given) : Option String := g.filter (· ≠ "")

inductive Family where
  | notFound
  | conflict
  | forbidden
  | validation
  deriving DecidableEq, Repr

/-- The entities that only the platform may change. -/
inductive Protected where
  | policy
  | role
  | globalPermission
  deriving DecidableEq, Repr

inductive Change where
  | modify
  | delete
  deriving DecidableEq, Repr

inductive Failure where
  | userNotFound (id : Given)
  | roleNotFound (key : Given)
  | policyNotFound (key : Given)
  | assignmentNotFound (id : Given)
  | permissionNotFound (id : Given)
  | assignmentExists (user role scope : Given)
  | permissionExists (key : DomainKey)
  | roleKeyExists (key : Given)
  | policyKeyExists (key : Given)
  | roleInUse (key : Given) (active : Nat)
  | policyInUse (key : Given) (roles : List String)
  | immutable (entity : Protected) (change : Change) (key : Given)
  | expiryNotInFuture
  | invalidScope (given : Json)
  | invalidPattern (given : Json)
  | invalidSegment (segment : String) (key : DomainKey)
  | unknownRiskLevel (given : Json)
  | unknownRiskDefault (given : Json)
  | tenantMissing
  | tenantMissingInSession
  | unknownStatus (given : Json)
  | unknownLogLevel (given : String)
  | unknownTask (task : Given)
  | taskNeedsTenant
  | invalidDocument (issues : List Schema.Issue)
  | wrongType
  | undefinedNumber
  | incomparable
  | unbindable
  | outOfRange
  | constraint
  | cacheUnavailable
  | sinkUnavailable
  | fileNotFound

namespace Failure

def family? : Failure → Option Family
  | .userNotFound _ | .roleNotFound _ | .policyNotFound _ | .assignmentNotFound _
  | .permissionNotFound _ => some .notFound
  | .assignmentExists .. | .permissionExists _ | .roleKeyExists _ | .policyKeyExists _
  | .roleInUse .. | .policyInUse .. => some .conflict
  | .immutable .. => some .forbidden
  | .expiryNotInFuture | .invalidScope _ | .invalidPattern _ | .invalidSegment ..
  | .unknownRiskLevel _ => some .validation
  | _ => none

def Immutable.message (entity : Protected) (change : Change) (key : Given) : String :=
  let noun := match entity with
    | .policy => "System policy"
    | .role => "System role"
    | .globalPermission => "Global domain permission"
  let verb := match change with
    | .modify => "modified"
    | .delete => "deleted"
  noun ++ " cannot be " ++ verb ++ ": " ++ key.mention

/-- The text that goes with a failure; the failures of arguments and tables have none. -/
def message? : Failure → Option String
  | .userNotFound id => some ("User not found: " ++ id.mention)
  | .roleNotFound key => some ("Role not found: " ++ key.mention)
  | .policyNotFound key => some ("Policy not found: " ++ key.mention)
  | .assignmentNotFound id => some ("Role assignment not found: " ++ id.mention)
  | .permissionNotFound id => some ("Domain permission not found: " ++ id.mention)
  | .assignmentExists user role scope =>
    some ("Active assignment already exists for user=" ++ user.mention ++ " role=" ++
      role.mention ++ " scope=" ++ scope.mention)
  | .permissionExists key => some ("Domain permission already exists: " ++ key.encode)
  | .roleKeyExists key => some ("Role key already exists: " ++ key.mention)
  | .policyKeyExists key => some ("Policy key already exists: " ++ key.mention)
  | .roleInUse key active =>
    some ("Role " ++ key.mention ++ " has " ++ toString active ++ " active assignment(s)")
  | .policyInUse key roles =>
    some ("Policy " ++ key.mention ++ " is referenced by roles: " ++ ", ".intercalate roles)
  | .immutable entity change key => some (Immutable.message entity change key)
  | .expiryNotInFuture => some "expires_at must be in the future"
  | .invalidScope given =>
    some ("Invalid scope: " ++ given.quoted ++ " (expected <type>:<id> or <type>:*)")
  | .invalidPattern given => some ("Invalid permission pattern: " ++ given.quoted)
  | .invalidSegment segment key =>
    some ("Invalid domain permission segment " ++ Text.quoted segment ++ " in " ++
      Text.quoted key.encode)
  | .unknownRiskLevel given => some ("Unsupported risk level: " ++ given.mentioned)
  | .tenantMissing => some "Tenant predicate required but tenant_id is missing"
  | .unknownRiskDefault given => some (given.quoted ++ " is not a valid RiskLevel")
  | .unknownStatus given => some (given.quoted ++ " is not a valid AssignmentStatus")
  | .unknownLogLevel given => some ("Unknown level: " ++ Text.quoted given)
  | .unknownTask task => some ("Unknown maintenance task: " ++ task.mention)
  | .undefinedNumber => some "cannot convert float NaN to integer"
  | .taskNeedsTenant => some "expire_role_assignments requires a tenant_id"
  | _ => none

end Failure

/-- What was read, or the failure that tells everything that is wrong with the document. -/
def Schema.Checked.outcome : Schema.Checked α → Except Failure α
  | .valid a => .ok a
  | .invalid issues => .error (.invalidDocument issues)

end Entitlements
