import Entitlements.Store.Row
import Entitlements.Paging

/-!
The tables of policies, roles and assignments. Reads are plain functions of the store; a write that
the tables may refuse returns no store. A given text that is missing finds nothing, and no required
column takes it.
-/

namespace Entitlements

open Time

/-! ### What is to be written -/

/-- What is to be saved under a key. -/
structure PolicyDraft where
  key : Given
  allow : List String
  deny : List String
  risk : RiskLevel
  conditions : Option Conditions
  displayName : Given
  description : String
  isSystem : Bool

structure RoleDraft where
  key : Given
  policyKeys : List String
  risk : RiskLevel
  displayName : Given
  description : String
  tags : List String
  isSystem : Bool

structure AssignmentDraft where
  user : Given
  role : Given
  scope : Given
  grantedBy : Given
  expiresAt : Option Stamp
  reason : Option String

/-- Replaces what an update may change: the identity, the key and the system mark stay. -/
def PolicyRow.updated? (r : PolicyRow) (d : PolicyDraft) (actor : Given) (now : Instant) :
    Option PolicyRow := do
  return { r with
    updatedBy := actor, updatedAt := now
    policy := { r.policy with
      allow := d.allow, deny := d.deny, risk := d.risk, conditions := d.conditions
      displayName := ← d.displayName, description := d.description } }

def RoleRow.updated? (r : RoleRow) (d : RoleDraft) (actor : Given) (now : Instant) :
    Option RoleRow := do
  return { r with
    updatedBy := actor, updatedAt := now
    role := { r.role with
      policyKeys := d.policyKeys, risk := d.risk, tags := d.tags
      displayName := ← d.displayName, description := d.description } }

namespace Store

/-! ### Policies and roles -/

def policyRow? (s : Store) (tenant key : Given) : Option PolicyRow :=
  s.policies.find? fun r => some r.tenant == tenant && some r.policy.key == key

def roleRow? (s : Store) (tenant key : Given) : Option RoleRow :=
  s.roles.find? fun r => some r.tenant == tenant && some r.role.key == key

def policy? (s : Store) (tenant key : Given) : Option Policy :=
  (s.policyRow? tenant key).map (·.record)

def role? (s : Store) (tenant key : Given) : Option Role := (s.roleRow? tenant key).map (·.role)

def policyRows (s : Store) (tenant : Given) : List PolicyRow :=
  (s.policies.filter fun r => some r.tenant == tenant).mergeSort
    fun a b => decide (a.policy.key ≤ b.policy.key)

def roleRows (s : Store) (tenant : Given) : List RoleRow :=
  (s.roles.filter fun r => some r.tenant == tenant).mergeSort
    fun a b => decide (a.role.key ≤ b.role.key)

def rolesUsing (s : Store) (tenant : Given) (policyKey : Given) : List String :=
  ((s.roleRows tenant).filter fun r => r.role.policyKeys.any (some · == policyKey)).map
    (·.role.key)

def insertPolicy? (s : Store) (id : String) (tenant : Given) (d : PolicyDraft) (actor : Given)
    (now : Instant) : Option (Store × Policy) := do
  let tenant ← tenant
  let row : PolicyRow :=
    { tenant, createdBy := actor, updatedBy := actor, updatedAt := now
      policy :=
        { id, key := ← d.key, allow := d.allow, deny := d.deny, risk := d.risk
          conditions := d.conditions, displayName := ← d.displayName
          description := d.description, isSystem := d.isSystem } }
  return ({ s with policies := s.policies ++ [row] }, row.record)

def updatePolicy? (s : Store) (r : PolicyRow) (d : PolicyDraft) (actor : Given) (now : Instant) :
    Option (Store × Policy) := do
  let row ← r.updated? d actor now
  return ({ s with policies := s.policies.map fun q => if q = r then row else q }, row.record)

def removePolicy (s : Store) (tenant key : Given) : Store :=
  let isOther (r : PolicyRow) := !(some r.tenant == tenant && some r.policy.key == key)
  { s with policies := s.policies.filter isOther }

def insertRole? (s : Store) (id : String) (tenant : Given) (d : RoleDraft) (actor : Given)
    (now : Instant) : Option (Store × Role) := do
  let tenant ← tenant
  let row : RoleRow :=
    { tenant, createdBy := actor, updatedBy := actor, updatedAt := now
      role :=
        { id, key := ← d.key, policyKeys := d.policyKeys, risk := d.risk
          displayName := ← d.displayName, description := d.description, tags := d.tags
          isSystem := d.isSystem } }
  return ({ s with roles := s.roles ++ [row] }, row.role)

def updateRole? (s : Store) (r : RoleRow) (d : RoleDraft) (actor : Given) (now : Instant) :
    Option (Store × Role) := do
  let row ← r.updated? d actor now
  return ({ s with roles := s.roles.map fun q => if q = r then row else q }, row.role)

def removeRole (s : Store) (tenant key : Given) : Store :=
  let isOther (r : RoleRow) := !(some r.tenant == tenant && some r.role.key == key)
  { s with roles := s.roles.filter isOther }

/-! ### Assignments -/

def assignmentRow? (s : Store) (tenant id : Given) : Option AssignmentRow :=
  s.assignments.find? fun r => some r.id == id && some r.tenant == tenant

/-- All assignments of a user in order of granting. -/
def assignmentsOf (s : Store) (tenant user : Given) : List AssignmentRow :=
  (s.assignments.filter fun r => some r.tenant == tenant && some r.userId == user).mergeSort
    AssignmentRow.le

def liveAssignmentsOf (s : Store) (tenant user : Given) (now : Instant) : List AssignmentRow :=
  (s.assignmentsOf tenant user).filter (·.isLive now)

def liveAssignment? (s : Store) (tenant user role scope : Given) (now : Instant) :
    Option AssignmentRow :=
  s.assignments.find? fun r => r.hasTriple tenant user role scope && r.isLive now

/-- The assignments of a role that are in force, in order of granting. -/
def liveAssignmentsOfRole (s : Store) (tenant role : Given) (now : Instant) :
    List AssignmentRow :=
  (s.assignments.filter fun r =>
    some r.tenant == tenant && some r.roleKey == role && r.isLive now).mergeSort AssignmentRow.le

def countLive (s : Store) (tenant role : Given) (now : Instant) : Nat :=
  (s.liveAssignmentsOfRole tenant role now).length

theorem countLive_eq_countP (s : Store) (tenant role : Given) (now : Instant) :
    s.countLive tenant role now = s.assignments.countP fun r =>
      some r.tenant == tenant && some r.roleKey == role && r.isLive now := by
  rw [countLive, liveAssignmentsOfRole, List.length_mergeSort, List.countP_eq_length_filter]

/-- Records the expiry of the lapsed assignments among those selected. -/
def expireWhere (s : Store) (selected : AssignmentRow → Bool) (now : Instant) : Store :=
  { s with assignments := s.assignments.map fun r =>
      if selected r && r.isLapsed now then r.expire now else r }

/-- Two rows recorded as active may not share user, role and scope within a tenant. -/
def clashes (s : Store) (row : AssignmentRow) : Bool :=
  row.isActive && s.assignments.any fun r =>
    r.isActive && r.id != row.id && r.hasTriple row.tenant row.userId row.roleKey row.scope

/-- Retires a lapsed assignment of the same triple, then adds the new one. -/
def insertAssignment? (s : Store) (id : String) (tenant : Given) (d : AssignmentDraft)
    (now : Instant) : Option (Store × AssignmentRow) := do
  let retired := s.expireWhere (·.hasTriple tenant d.user d.role d.scope) now
  let row : AssignmentRow :=
    { tenant := ← tenant, id, userId := ← d.user, roleKey := ← d.role, scope := ← d.scope
      status := AssignmentStatus.active.text, grantedBy := ← d.grantedBy, grantedAt := now
      expiresAt := d.expiresAt.map (·.reading), reason := d.reason, updatedBy := d.grantedBy
      updatedAt := now }
  if retired.clashes row then none
  else some ({ retired with assignments := retired.assignments ++ [row] }, row)

def setStatus? (s : Store) (r : AssignmentRow) (status : Given) (actor : Given) (now : Instant) :
    Option (Store × AssignmentRow) := do
  let row : AssignmentRow := { r with status := ← status, updatedBy := actor, updatedAt := now }
  if s.clashes row then none
  else some ({ s with assignments := s.assignments.map fun q => if q = r then row else q }, row)

/-! ### Grants -/

/-- The grants that an assignment leads to. Roles and policies that are gone are skipped. -/
def grantsOf (s : Store) (tenant : Given) (a : AssignmentRow) : List Grant :=
  match s.role? tenant (some a.roleKey) with
  | none => []
  | some role => role.policyKeys.filterMap fun key =>
    (s.policy? tenant (some key)).map fun policy =>
      { assignment := a.withStatus .active, role, policy }

/-- The grants of the live assignments that are selected, in order of granting. -/
def grantsWhere (s : Store) (tenant user : Given) (selected : AssignmentRow → Bool)
    (now : Instant) : List Grant :=
  ((s.liveAssignmentsOf tenant user now).filter selected).flatMap (s.grantsOf tenant)

/-- The grants that reach a scope. -/
def grantsAt (s : Store) (tenant user scope : Given) (now : Instant) : List Grant :=
  s.grantsWhere tenant user (fun a => Scope.coversGiven a.scope scope) now

/-- The grants to enumerate at a scope. -/
def grantsFor (s : Store) (tenant user scope : Given) (now : Instant) : List Grant :=
  s.grantsWhere tenant user (AssignmentRow.reaches scope) now

def verdict (s : Store) (tenant user permission scope : Given) (now : Instant) : Verdict :=
  if (s.liveAssignmentsOf tenant user now).isEmpty then .noAssignments
  else Verdict.ofGrants (s.grantsAt tenant user scope now) permission

end Store

end Entitlements
