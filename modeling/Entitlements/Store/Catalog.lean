import Entitlements.Store.Row
import Entitlements.Paging

/-!
The catalogue of registered domain permissions. A row belongs to one tenant or, as a global row, to
the platform; a tenant sees its own rows and the global ones, the platform only the global ones.
Within a tenant a permission is registered once. The table itself lets global rows repeat, because
rows without a tenant never collide.
-/

namespace Entitlements

open Time

/-- What is to be registered. -/
structure PermissionDraft where
  key : DomainKey
  displayName : Option String
  description : Option String
  risk : RiskLevel

/-- Which rows a listing asks for. An empty text restricts nothing. -/
structure CatalogFilter where
  domain : Given
  equipment : Given
  location : Given
  action : Given
  isActive : Option Bool

namespace CatalogFilter

def all : CatalogFilter := ⟨none, none, none, none, none⟩

def accepts (f : CatalogFilter) (r : PermissionRow) : Bool :=
  f.domain.nonempty?.all (· == r.key.domain) &&
    f.equipment.nonempty?.all (· == r.key.equipment) &&
    f.location.nonempty?.all (· == r.key.location) &&
    f.action.nonempty?.all (· == r.key.action) && f.isActive.all (· == r.isActive)

end CatalogFilter

namespace PermissionRow

def isVisibleTo (tenant : Given) (r : PermissionRow) : Bool :=
  r.tenant == none || r.tenant == tenant

/-- Ascending by the parts of the key; own rows come before global ones. -/
def le (a b : PermissionRow) : Bool :=
  if a.key.domain ≠ b.key.domain then decide (a.key.domain < b.key.domain)
  else if a.key.equipment ≠ b.key.equipment then decide (a.key.equipment < b.key.equipment)
  else if a.key.location ≠ b.key.location then decide (a.key.location < b.key.location)
  else if a.key.action ≠ b.key.action then decide (a.key.action < b.key.action)
  else if a.tenant.isNone ≠ b.tenant.isNone then b.tenant.isNone
  else decide (a.id ≤ b.id)

end PermissionRow

namespace Store

/-- The row that one owner has for a key. -/
def registered? (s : Store) (owner : Given) (key : DomainKey) : Option PermissionRow :=
  s.permissions.find? fun r => r.tenant == owner && r.key == key

def visiblePermission? (s : Store) (tenant id : Given) : Option PermissionRow :=
  s.permissions.find? fun r => some r.id == id && r.isVisibleTo tenant

def insertPermission? (s : Store) (id : String) (owner : Given) (d : PermissionDraft)
    (now : Instant) : Option (Store × PermissionRow) :=
  let row : PermissionRow :=
    { id, tenant := owner, key := d.key, displayName := d.displayName
      description := d.description, risk := d.risk, isActive := true, updatedAt := now }
  let clashes := s.permissions.any fun r =>
    r.tenant.isSome && r.tenant == row.tenant && r.key == row.key
  if clashes then none
  else some ({ s with permissions := s.permissions ++ [row] }, row)

def replacePermission (s : Store) (r row : PermissionRow) : Store :=
  { s with permissions := s.permissions.map fun q => if q = r then row else q }

def removePermission (s : Store) (id : String) : Store :=
  { s with permissions := s.permissions.filter fun r => r.id != id }

/-- Everything a caller sees that a filter accepts, in order. -/
def catalog (s : Store) (tenant : Given) (f : CatalogFilter) : List PermissionRow :=
  (s.permissions.filter fun r => r.isVisibleTo tenant && f.accepts r).mergeSort PermissionRow.le

/-- The distinct values of one part of the keys in a listing, ascending. -/
def catalogValues (s : Store) (tenant : Given) (f : CatalogFilter) (part : DomainKey → String) :
    List String :=
  sortTexts (distinct ((s.catalog tenant f).map fun r => part r.key))

end Store

end Entitlements
