import Entitlements.Store.Row

/-!
Whole tables, for all tenants, in a fixed order: by tenant and then by what is unique within it, or
by identifier where rows need not belong to a tenant.
-/

namespace Entitlements.Store

/-- Orders by one text, and where it is the same by the next. -/
def lexicographic : List String → List String → Bool
  | a :: as, b :: bs => if a = b then lexicographic as bs else decide (a < b)
  | [], _ => true
  | _ :: _, [] => false

def sortOn (key : α → List String) (rows : List α) : List α :=
  rows.mergeSort fun a b => lexicographic (key a) (key b)

def allPolicies (s : Store) : List PolicyRow :=
  sortOn (fun r => [r.tenant, r.policy.key]) s.policies

def allRoles (s : Store) : List RoleRow := sortOn (fun r => [r.tenant, r.role.key]) s.roles

def allAssignments (s : Store) : List AssignmentRow :=
  sortOn (fun r => [r.tenant, r.id]) s.assignments

def allCached (s : Store) : List CacheRow := sortOn (fun r => [r.tenant, r.userId, r.scope]) s.cache

def allPermissions (s : Store) : List PermissionRow := sortOn (fun r => [r.id]) s.permissions

def allAudit (s : Store) : List AuditRow := s.audit.mergeSort fun a b => decide (a.id ≤ b.id)

end Entitlements.Store
