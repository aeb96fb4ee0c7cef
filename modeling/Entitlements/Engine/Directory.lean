import Entitlements.Engine.Basic
import Entitlements.Store.Directory

/-!
Calls on the directory. Look-ups need a tenant; additions do not ask for one, but no row is added
without it.
-/

namespace Entitlements

open Time

namespace Directory

open Call

def user? (tenant id : Given) : Call (Option UserRow) := do
  requireTenant tenant
  return (← store).user? tenant id

def customer? (tenant id : Given) : Call (Option CustomerRow) := do
  requireTenant tenant
  return (← store).customer? tenant id

def primaryGroup? (tenant user : Given) : Call (Option GroupRow) := do
  requireTenant tenant
  return (← store).primaryGroup? tenant user (← now)

/-- Writes what an addition leads to, unless the tables refuse it. -/
def add (insert? : Store → Option Store) : Call Unit := do
  write (← orFail .constraint (insert? (← store)))

def addUser (tenant id email : Given) (customerId : Option String) : Call Unit :=
  add (·.insertUser? tenant id email customerId)

def addCustomer (tenant id name : Given) : Call Unit := add (·.insertCustomer? tenant id name)

def addGroup (tenant id key name : Given) : Call Unit := add (·.insertGroup? tenant id key name)

def addMember (tenant id group user : Given) (assignedAt expiresAt : Option Stamp) : Call Unit :=
  add (·.insertMember? tenant id group user assignedAt expiresAt)

end Directory

end Entitlements
