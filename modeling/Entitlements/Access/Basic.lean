import Entitlements.Access.Conditions
import Entitlements.Failure
import Entitlements.Scope
import Entitlements.Permission.Pattern

/-!
The records of access control: policies with their allow and deny lists, roles that bundle
policies, and assignments that give a role to a user at a scope for a while. Together with them
stand the two closed vocabularies, risk levels and assignment states, and the strict tests that
writes apply to scopes and patterns.
-/

namespace Entitlements

open Time

/-! ### Risk levels -/

inductive RiskLevel where
  | low
  | medium
  | high
  | critical
  deriving DecidableEq, Repr

namespace RiskLevel

def text : RiskLevel → String
  | .low => "low"
  | .medium => "medium"
  | .high => "high"
  | .critical => "critical"

def ofText? : String → Option RiskLevel
  | "low" => some .low
  | "medium" => some .medium
  | "high" => some .high
  | "critical" => some .critical
  | _ => none

/-- The level that stands in for a missing one has to be a level itself. -/
def ofDefault (given : Json) : Except Failure RiskLevel :=
  match given with
  | .str s => match ofText? s with
    | some level => .ok level
    | none => .error (.unknownRiskDefault given)
  | _ => .error (.unknownRiskDefault given)

/-- A missing level means the default. -/
def parse (given : Json) (default : RiskLevel) : Except Failure RiskLevel :=
  match given with
  | .null => .ok default
  | .str s => match ofText? s with
    | some level => .ok level
    | none => .error (.unknownRiskLevel given)
  | _ => .error (.unknownRiskLevel given)

theorem ofText?_text (level : RiskLevel) : ofText? level.text = some level := by
  cases level <;> rfl

end RiskLevel

/-! ### Assignment states -/

inductive AssignmentStatus where
  | active
  | revoked
  | expired
  deriving DecidableEq, Repr

namespace AssignmentStatus

def text : AssignmentStatus → String
  | .active => "active"
  | .revoked => "revoked"
  | .expired => "expired"

def ofText? : String → Option AssignmentStatus
  | "active" => some .active
  | "revoked" => some .revoked
  | "expired" => some .expired
  | _ => none

def parse (s : String) : Except Failure AssignmentStatus :=
  match ofText? s with
  | some status => .ok status
  | none => .error (.unknownStatus (.str s))

theorem ofText?_text (status : AssignmentStatus) : ofText? status.text = some status := by
  cases status <;> rfl

end AssignmentStatus

/-! ### Records -/

structure Policy where
  id : String
  key : String
  allow : List String
  deny : List String
  risk : RiskLevel
  conditions : Option Conditions
  displayName : String
  description : String
  isSystem : Bool
  deriving DecidableEq

structure Role where
  id : String
  key : String
  policyKeys : List String
  risk : RiskLevel
  displayName : String
  description : String
  tags : List String
  isSystem : Bool
  deriving DecidableEq

structure Assignment where
  id : String
  userId : String
  roleKey : String
  scope : String
  status : AssignmentStatus
  grantedBy : String
  grantedAt : Instant
  expiresAt : Option Instant
  reason : Option String
  deriving DecidableEq

/-- Is a limit in time still ahead? No limit always is. -/
def isAhead (limit : Option Instant) (now : Instant) : Bool :=
  match limit with
  | none => true
  | some t => decide (now < t)

theorem isAhead_iff {limit : Option Instant} {now : Instant} :
    isAhead limit now = true ↔ ∀ t, limit = some t → now < t := by
  cases limit <;> simp [isAhead]

/-- An assignment past its expiry counts as inactive, whether or not that was ever recorded. -/
def Assignment.isEffective (a : Assignment) (now : Instant) : Bool :=
  a.status == .active && isAhead a.expiresAt now

/-! ### Checks at write time -/

def checkScope (given : Json) : Except Failure String :=
  match given with
  | .str s => if Scope.isValid s then .ok s else .error (.invalidScope given)
  | _ => .error (.invalidScope given)

/-- Wildcards are honoured in the shape of three segments only, so a domain key has to be exact. -/
def checkPattern (given : Json) : Except Failure String :=
  match given with
  | .str s =>
    if PermissionShape.of s = .unknown then .error (.invalidPattern given) else .ok s
  | _ => .error (.invalidPattern given)

/-- The first bad pattern decides. -/
def checkPatterns : List Json → Except Failure (List String)
  | [] => .ok []
  | given :: rest => do
    let pattern ← checkPattern given
    let patterns ← checkPatterns rest
    return pattern :: patterns

/-- The members of an argument that has to be a list, or something else that can be walked over. -/
def membersOf (given : Json) : Except Failure (List Json) :=
  match given.members? with
  | some members => .ok members
  | none => .error .wrongType

end Entitlements
