import Entitlements.Generation

/-!
What follows a change of rights. The change is announced first and then the bundles it may have made
stale are marked: those of one user, or of the whole tenant. Neither step can fail the call, and a
lost announcement does not keep the bundles from being marked.
-/

namespace Entitlements

/-- The bundles that a change can make stale. -/
inductive Stale where
  | nothing
  | user (id : Given)
  | tenant
  deriving DecidableEq, Repr

namespace Administration

open Call

def markStale (tenant : Given) (reason : String) (actor : Given) : Stale → Call Unit
  | .nothing => pure ()
  | .user id => discard (Generation.invalidate tenant id (some reason) none actor)
  | .tenant => discard (Generation.invalidateTenant tenant (some reason) actor)

def followUp (e : Event) (stale : Stale) (reason : String) (actor : Given) : Call Unit := do
  AuditLog.publish e
  if (← read).hasBundles then attempt (markStale e.tenant reason actor stale)

end Administration

end Entitlements
