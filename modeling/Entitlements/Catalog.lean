import Entitlements.Engine.AuditLog
import Entitlements.Store.Catalog

/-!
The catalogue of domain permissions. Every change is recorded in the audit log in the same
transaction, so the log tells of no change that was undone. Tenants read global rows as well as
their own, but only the platform, a caller without a tenant, changes them.
-/

namespace Entitlements

open Time

/-- The arguments of a registration. -/
structure NewPermission where
  key : DomainKey
  displayName : Option String
  description : Option String
  risk : Json

/-- The arguments of a change. What is missing stays. -/
structure PermissionChange where
  displayName : Option String
  description : Option String
  risk : Json
  isActive : Option Bool

/-- What a change sets, by the names of the fields. -/
def PermissionChange.toFields (c : PermissionChange) (risk : RiskLevel) : Json.Fields :=
  (c.displayName.map fun s => ("display_name", Json.str s)).toList ++
    (c.description.map fun s => ("description", Json.str s)).toList ++
    (if c.risk = .null then [] else [("risk_level", .str risk.text)]) ++
    (c.isActive.map fun b => ("is_active", Json.bool b)).toList

def PermissionChange.apply (c : PermissionChange) (risk : RiskLevel) (now : Instant)
    (r : PermissionRow) : PermissionRow :=
  { r with
    displayName := c.displayName.orElse fun _ => r.displayName
    description := c.description.orElse fun _ => r.description
    risk, isActive := c.isActive.getD r.isActive, updatedAt := now }

/-- Registrations that went through, and the keys of those that were there already. -/
structure BulkResult where
  created : List PermissionRow
  skipped : List DomainKey

/-- One page of a listing. -/
structure PermissionPage where
  items : List PermissionRow
  offset : Option Int
  limit : Int
  hasMore : Bool

namespace Catalog

open Call

/-! ### Recording -/

def audit (tenant actor : Given) (type : EventType) (row : PermissionRow) (more : Json.Fields) :
    Call Unit := do
  if (← read).settings.auditEnabled then
    AuditLog.record (.inSession false) true
      { occurredAt := ← now, tenant, actorType := some (Actor.ofGiven actor).typeName
        actorId := actor, eventType := some type.text, outcome := some "success"
        resourceType := some "domain_permission", resourceId := some row.id, correlationId := none
        metadata := Json.obj (("permission", .str row.key.encode) :: more) }

/-! ### Registering -/

def checkKey (key : DomainKey) : Except Failure Unit :=
  match key.parts.find? fun segment => !Segment.isValid segment with
  | some segment => .error (.invalidSegment segment key)
  | none => .ok ()

def insert (tenant : Given) (p : NewPermission) (actor : Given) : Call PermissionRow := do
  ofExcept (checkKey p.key)
  let risk ← ofExcept (RiskLevel.parse p.risk .low)
  if !(← read).isOvertaken && ((← store).registered? tenant p.key).isSome then
    throw (.permissionExists p.key)
  let id ← freshId .permission
  let draft : PermissionDraft :=
    { key := p.key, displayName := p.displayName, description := p.description, risk }
  let (s, row) ← orFail (.permissionExists p.key)
    ((← store).insertPermission? id tenant draft (← now))
  write s
  audit tenant actor .domainPermissionCreated row []
  return row

def create (tenant : Given) (p : NewPermission) (actor : Given) : Call PermissionRow :=
  transaction (insert tenant p actor)

/-- Registers one item of a batch; the answer is `none` if the permission is there already. -/
def insertUnlessThere (tenant : Given) (p : NewPermission) (actor : Given) :
    Call (Option PermissionRow) :=
  tryCatch (some <$> insert tenant p actor) fun
    | .permissionExists _ => pure none
    | failure => throw failure

/-- Registers what is new and skips the rest. Any other failure undoes the whole batch. -/
def createAll (tenant : Given) (items : List NewPermission) (actor : Given) :
    Call BulkResult := transaction do
  let results ← items.mapM fun p => do return (p.key, ← insertUnlessThere tenant p actor)
  return { created := results.filterMap (·.2)
           skipped := (results.filter (·.2.isNone)).map (·.1) }

/-! ### Single rows -/

def get (tenant id : Given) : Call PermissionRow := do
  orFail (.permissionNotFound id) ((← store).visiblePermission? tenant id)

/-- A row that the caller may change. -/
def owned (tenant id : Given) : Call PermissionRow := do
  let row ← get tenant id
  if row.tenant ≠ tenant then throw (.immutable .globalPermission .modify id)
  return row

def update (tenant id : Given) (c : PermissionChange) (actor : Given) : Call PermissionRow :=
  transaction do
    let row ← owned tenant id
    let risk ← if c.risk = .null then pure row.risk else ofExcept (RiskLevel.parse c.risk .low)
    let changed := c.apply risk (← now) row
    write ((← store).replacePermission row changed)
    audit tenant actor .domainPermissionUpdated changed [("changes", .obj (c.toFields risk))]
    return changed

def delete (tenant id actor : Given) : Call Unit := transaction do
  let row ← owned tenant id
  audit tenant actor .domainPermissionDeleted row []
  write ((← store).removePermission row.id)

/-! ### Listings -/

def defaultPageSize : Int := 50

/-- A page of a listing. One row more than asked for is looked up, to tell whether there are
more. -/
def list (tenant : Given) (f : CatalogFilter) (offset : Option Int) (limit : Int) :
    Call PermissionPage := do
  let rows ← window offset (some (limit + 1)) ((← store).catalog tenant f)
  return { items := upTo (some limit) rows, offset, limit
           hasMore := decide (limit < rows.length) }

def activeFilter : CatalogFilter := { CatalogFilter.all with isActive := some true }

def active (tenant : Given) : Call (List PermissionRow) := do
  return (← store).catalog tenant activeFilter

def domains (tenant : Given) : Call (List String) := do
  return (← store).catalogValues tenant activeFilter (·.domain)

def equipment (tenant domain : Given) : Call (List String) := do
  return (← store).catalogValues tenant { activeFilter with domain } (·.equipment)

def locations (tenant domain equipment : Given) : Call (List String) := do
  return (← store).catalogValues tenant { activeFilter with domain, equipment } (·.location)

end Catalog

end Entitlements
