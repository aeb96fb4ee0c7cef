import Entitlements.Store.Row

/-!
The directory: users, the customers they belong to, and the maintenance groups they are members of.
An identifier is taken once for all tenants; the key of a group, and a user's membership in a group,
once in each tenant. A membership need not name a group that exists, but only one that does can be
somebody's primary group.
-/

namespace Entitlements

open Time

namespace Store

/-! ### Writing -/

/-- Adds a row unless it repeats what has to be unique. -/
def addUnless (clash : α → Bool) (row : α) (rows : List α) : Option (List α) :=
  if rows.any clash then none else some (rows ++ [row])

def insertUser? (s : Store) (tenant id email : Given) (customerId : Option String) :
    Option Store := do
  let row : UserRow := { tenant := ← tenant, id := ← id, email := ← email, customerId }
  let users ← addUnless (·.id == row.id) row s.users
  return { s with users }

def insertCustomer? (s : Store) (tenant id name : Given) : Option Store := do
  let row : CustomerRow := { tenant := ← tenant, id := ← id, displayName := ← name }
  let customers ← addUnless (·.id == row.id) row s.customers
  return { s with customers }

def insertGroup? (s : Store) (tenant id key name : Given) : Option Store := do
  let row : GroupRow := { tenant := ← tenant, id := ← id, key := ← key, name := ← name }
  let clash (r : GroupRow) := r.id == row.id || r.tenant == row.tenant && r.key == row.key
  let groups ← addUnless clash row s.groups
  return { s with groups }

def insertMember? (s : Store) (tenant id group user : Given) (assignedAt : Option Stamp)
    (expiresAt : Option Stamp) : Option Store := do
  let row : MemberRow :=
    { tenant := ← tenant, id := ← id, groupId := ← group, userId := ← user
      assignedAt := (← assignedAt).reading, expiresAt := expiresAt.map (·.reading) }
  let clash (r : MemberRow) :=
    r.id == row.id ||
      r.tenant == row.tenant && r.groupId == row.groupId && r.userId == row.userId
  let members ← addUnless clash row s.members
  return { s with members }

/-! ### Reading -/

def user? (s : Store) (tenant id : Given) : Option UserRow :=
  s.users.find? fun r => some r.id == id && some r.tenant == tenant

def customer? (s : Store) (tenant id : Given) : Option CustomerRow :=
  s.customers.find? fun r => some r.id == id && some r.tenant == tenant

/-- The groups a user is a member of, each with the time of joining it. -/
def memberships (s : Store) (tenant user : Given) (now : Instant) : List (Instant × GroupRow) :=
  s.members.flatMap fun m =>
    if some m.tenant == tenant && some m.userId == user && isAhead m.expiresAt now then
      (s.groups.filter fun g => g.id == m.groupId && some g.tenant == tenant).map (m.assignedAt, ·)
    else []

/-- The group joined first; of those joined together, the one whose identifier comes first. -/
def primaryGroup? (s : Store) (tenant user : Given) (now : Instant) : Option GroupRow :=
  let sorted := (s.memberships tenant user now).mergeSort fun a b =>
    decide (a.1 < b.1) || (a.1 == b.1 && decide (a.2.id ≤ b.2.id))
  sorted.head?.map (·.2)

end Store

end Entitlements
