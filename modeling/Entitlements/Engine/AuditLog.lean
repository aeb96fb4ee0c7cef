import Entitlements.Engine.Basic
import Entitlements.Store.AuditLog

/-!
Recording and publishing. An entry for the audit log is refused if it lacks a required text, and the
caller chooses whether that matters. Publishing hands an event to the sink of the environment and
never fails: a sink that refuses an event loses it and nothing else.
-/

namespace Entitlements

open Time

namespace AuditLog

open Call

/-- How an entry is written: at once by itself, or together with the rest of a session. In a session
a refusal is only met when the session ends, unless the call itself ends it. -/
inductive Mode where
  | alone
  | inSession (commits : Bool)
  deriving DecidableEq, Repr

/-- Can a refusal go unnoticed? -/
def Mode.isLenient (mode : Mode) (bestEffort : Bool) : Bool :=
  match mode with
  | .alone | .inSession true => bestEffort
  | .inSession false => false

def append (d : AuditDraft) : Call Unit := do
  write (← orFail .constraint ((← store).appendAudit? d))

/-- Metadata that are missing or hold nothing are recorded as an empty object. -/
def metadataOf (given : Details) : Details := if given.isNothing then .map [] else given

def record (mode : Mode) (bestEffort : Bool) (d : AuditDraft) : Call Unit :=
  let d := { d with metadata := metadataOf d.metadata }
  if mode.isLenient bestEffort then attempt (append d) else append d

/-- A page of a tenant's entries, the newest first. No tenant is asked for. -/
def events (tenant : Given) (f : AuditFilter) (offset limit : Option Int) :
    Call (List AuditRow) := do
  window offset limit ((← store).auditRows tenant f)

/-! ### Publishing -/

def ofEvent (e : Event) (occurredAt : Instant) : AuditDraft :=
  { occurredAt, tenant := e.tenant, actorType := some e.actor.typeName, actorId := e.actor.id?
    eventType := some e.type.text, outcome := some "success", resourceType := some e.entityType
    resourceId := e.entityId, correlationId := none
    metadata := Json.obj [("action", .str e.action), ("data", .obj e.data)] }

def deliver (e : Event) : Call Unit := do
  match (← read).sink with
  | .none => return
  | .refusing => throw .sinkUnavailable
  | .outbox => modify fun engine => { engine with outbox := engine.outbox ++ [e] }
  | .audit =>
    if (← read).settings.auditEnabled then record .alone true (ofEvent e (← now))

def publish (e : Event) : Call Unit := attempt (deliver e)

end AuditLog

end Entitlements
