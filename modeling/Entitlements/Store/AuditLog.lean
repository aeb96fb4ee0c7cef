import Entitlements.Store.Row
import Entitlements.Audit.Redaction
import Entitlements.Paging

/-!
The audit log. Rows are only ever added, each with the number after the largest one, and what they
say about an event is redacted on the way in. The log is read newest first.
-/

namespace Entitlements

open Time

/-- What is to be recorded. The metadata stand as they were given. -/
structure AuditDraft where
  occurredAt : Instant
  tenant : Given
  actorType : Given
  actorId : Given
  eventType : Given
  outcome : Given
  resourceType : Given
  resourceId : Given
  correlationId : Given
  metadata : Details

/-- Which rows a reader asks for. An empty text restricts nothing. -/
structure AuditFilter where
  eventType : Given
  resourceType : Given
  resourceId : Given
  notBefore : Option Instant
  notAfter : Option Instant

def AuditFilter.accepts (f : AuditFilter) (r : AuditRow) : Bool :=
  f.eventType.nonempty?.all (· == r.eventType) &&
    f.resourceType.nonempty?.all (some · == r.resourceType) &&
    f.resourceId.nonempty?.all (some · == r.resourceId) &&
    f.notBefore.all (fun t => decide (t ≤ r.occurredAt)) &&
    f.notAfter.all (fun t => decide (r.occurredAt ≤ t))

namespace Store

/-- How the column of metadata keeps a value. A number that stands alone is kept as an integer if it
is one of 64 bits, however it was written, and else as a binary64 number; inside of lists and
objects nothing changes. -/
def kept : Json → Json
  | .int n => if Decimal.isWordSized n then .int n else .real (.ofInt n)
  | .real x => match x.toInt? with
    | some n => if n.natAbs < Decimal.twoTo 63 then .int n else .real x
    | none => .real x
  | x => x

def nextAuditId (s : Store) : Nat := s.audit.foldl (fun n r => max n r.id) 0 + 1

def appendAudit? (s : Store) (d : AuditDraft) : Option Store := do
  let row : AuditRow :=
    { id := s.nextAuditId, occurredAt := d.occurredAt, tenant := d.tenant
      actorType := ← d.actorType, actorId := d.actorId, eventType := ← d.eventType
      outcome := ← d.outcome, resourceType := d.resourceType, resourceId := d.resourceId
      correlationId := d.correlationId, metadata := kept d.metadata.redact.toJson }
  return { s with audit := s.audit ++ [row] }

/-- The rows of a tenant that a filter accepts, the newest first. Without a tenant these are the
rows that belong to none. -/
def auditRows (s : Store) (tenant : Given) (f : AuditFilter) : List AuditRow :=
  (s.audit.filter fun r => r.tenant == tenant && f.accepts r).mergeSort fun a b =>
    decide (b.occurredAt < a.occurredAt) || (a.occurredAt == b.occurredAt && decide (b.id ≤ a.id))

end Store

end Entitlements
