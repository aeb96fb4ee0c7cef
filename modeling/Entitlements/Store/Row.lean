import Entitlements.Access.Grant
import Entitlements.Bundle.Codec

/-!
The tables of the engine and their rows. A store is one value that holds every table, each as the
list of its rows in the order in which they were inserted. A row keeps what was written: times are
readings of a clock in UTC, the state of an assignment is a text, and a cached bundle is the
document it was serialised to.
-/

namespace Entitlements

open Time

/-! ### Directory -/

structure UserRow where
  id : String
  tenant : String
  email : String
  customerId : Option String
  deriving DecidableEq

structure CustomerRow where
  id : String
  tenant : String
  displayName : String
  deriving DecidableEq

structure GroupRow where
  id : String
  tenant : String
  key : String
  name : String
  deriving DecidableEq

structure MemberRow where
  id : String
  tenant : String
  groupId : String
  userId : String
  assignedAt : Instant
  expiresAt : Option Instant
  deriving DecidableEq

/-! ### Access control -/

structure PolicyRow where
  tenant : String
  policy : Policy
  createdBy : Option String
  updatedBy : Option String
  updatedAt : Instant
  deriving DecidableEq

/-- A stored document without members reads back as having no conditions. -/
def PolicyRow.record (r : PolicyRow) : Policy :=
  { r.policy with conditions := r.policy.conditions.filter (· ≠ Conditions.empty) }

structure RoleRow where
  tenant : String
  role : Role
  createdBy : Option String
  updatedBy : Option String
  updatedAt : Instant
  deriving DecidableEq

structure AssignmentRow where
  tenant : String
  id : String
  userId : String
  roleKey : String
  scope : String
  status : String
  grantedBy : String
  grantedAt : Instant
  expiresAt : Option Instant
  reason : Option String
  updatedBy : Option String
  updatedAt : Instant
  deriving DecidableEq

namespace AssignmentRow

def isActive (r : AssignmentRow) : Bool := r.status == AssignmentStatus.active.text

/-- Recorded as active and not past its expiry. -/
def isLive (r : AssignmentRow) (now : Instant) : Bool := r.isActive && isAhead r.expiresAt now

/-- Recorded as active although its expiry has come. -/
def isLapsed (r : AssignmentRow) (now : Instant) : Bool := r.isActive && !isAhead r.expiresAt now

/-- Is an assignment to be enumerated? No scope, or the wildcard alone, is no restriction. -/
def reaches (scope : Given) (r : AssignmentRow) : Bool :=
  match scope with
  | none => true
  | some scope => scope == "*" || Scope.covers r.scope scope

def hasTriple (r : AssignmentRow) (tenant user role scope : Given) : Bool :=
  some r.tenant == tenant && some r.userId == user && some r.roleKey == role &&
    some r.scope == scope

def withStatus (r : AssignmentRow) (status : AssignmentStatus) : Assignment :=
  { id := r.id, userId := r.userId, roleKey := r.roleKey, scope := r.scope, status
    grantedBy := r.grantedBy, grantedAt := r.grantedAt, expiresAt := r.expiresAt
    reason := r.reason }

/-- Fails on a state that is none of the known ones. -/
def record (r : AssignmentRow) : Except Failure Assignment :=
  (AssignmentStatus.parse r.status).map r.withStatus

theorem record_of_isActive {r : AssignmentRow} (h : r.isActive = true) :
    r.record = .ok (r.withStatus .active) := by
  simp only [isActive, beq_iff_eq] at h
  rw [record, h]
  rfl

def expire (r : AssignmentRow) (now : Instant) : AssignmentRow :=
  { r with status := AssignmentStatus.expired.text, updatedBy := some "system", updatedAt := now }

/-- By grant time, then identifier. -/
def le (r s : AssignmentRow) : Bool :=
  decide (r.grantedAt < s.grantedAt) || (r.grantedAt == s.grantedAt && decide (r.id ≤ s.id))

theorem isLive_iff_not_lapsed {r : AssignmentRow} {now : Instant} (h : r.isActive = true) :
    r.isLive now = !r.isLapsed now := by
  simp [isLive, isLapsed, h]

end AssignmentRow

/-! ### Bundle cache -/

structure CacheRow where
  tenant : String
  userId : String
  scope : String
  bundle : Json
  checksum : String
  generatedAt : Instant
  expiresAt : Instant
  invalidatedAt : Option Instant
  invalidationReason : Option String
  updatedAt : Instant

/-- A cached bundle as callers see it. -/
structure CacheEntry where
  tenant : String
  userId : String
  scope : String
  bundle : Bundle
  checksum : String
  generatedAt : Instant
  expiresAt : Instant
  invalidatedAt : Option Instant
  invalidationReason : Option String

namespace CacheRow

def hasKey (r : CacheRow) (tenant user scope : Given) : Bool :=
  some r.tenant == tenant && some r.userId == user && some r.scope == scope

/-- Neither marked nor expired. -/
def isHit (r : CacheRow) (now : Instant) : Bool :=
  r.invalidatedAt.isNone && decide (now < r.expiresAt)

def invalidate (r : CacheRow) (now : Instant) (reason : String) : CacheRow :=
  { r with invalidatedAt := some now, invalidationReason := some reason, updatedAt := now }

def entry (r : CacheRow) : Except Failure CacheEntry :=
  match Bundle.read r.bundle with
  | .valid bundle => .ok
    { tenant := r.tenant, userId := r.userId, scope := r.scope, bundle, checksum := r.checksum
      generatedAt := r.generatedAt, expiresAt := r.expiresAt, invalidatedAt := r.invalidatedAt
      invalidationReason := r.invalidationReason }
  | .invalid issues => .error (.invalidDocument issues)

end CacheRow

/-! ### Catalogue of domain permissions -/

/-- A registered permission; one without a tenant is global. -/
structure PermissionRow where
  id : String
  tenant : Option String
  key : DomainKey
  displayName : Option String
  description : Option String
  risk : RiskLevel
  isActive : Bool
  updatedAt : Instant
  deriving DecidableEq

/-! ### Audit log -/

structure AuditRow where
  id : Nat
  occurredAt : Instant
  tenant : Option String
  actorType : String
  actorId : Option String
  eventType : String
  outcome : String
  resourceType : Option String
  resourceId : Option String
  correlationId : Option String
  metadata : Json
  deriving DecidableEq

/-! ### The store -/

structure Store where
  users : List UserRow
  customers : List CustomerRow
  groups : List GroupRow
  members : List MemberRow
  policies : List PolicyRow
  roles : List RoleRow
  assignments : List AssignmentRow
  cache : List CacheRow
  permissions : List PermissionRow
  audit : List AuditRow

def Store.empty : Store := ⟨[], [], [], [], [], [], [], [], [], []⟩

end Entitlements
