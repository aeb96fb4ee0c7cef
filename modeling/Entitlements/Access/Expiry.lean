import Entitlements.Access.Basic

/-!
Expiry of times as callers write them. A limit is compared as the instant it means, which may fall
outside the range of instants; the present has to carry an offset, because a reading without one
cannot be ordered against an instant.
-/

namespace Entitlements

open Time

/-- The instant a stamp means. -/
def Time.Stamp.instant (s : Stamp) : Except Failure Instant :=
  match s.instant? with
  | some i => .ok i
  | none => .error .outOfRange

/-- Is the limit after the present? -/
def limitAhead (limit now : Stamp) : Except Failure Bool := do
  let limit ← limit.instant
  match now.offset with
  | none => .error .wrongType
  | some offset =>
    .ok (decide (now.reading.micros - offset * Instant.microsPerSecond < limit.micros))

def assignmentEffective (status : Json) (expiresAt : Option Stamp) (now : Stamp) :
    Except Failure Bool := do
  let status ← match status with
    | .str s => AssignmentStatus.parse s
    | given => .error (.unknownStatus given)
  if status = .active then
    match expiresAt with
    | none => .ok true
    | some limit => limitAhead limit now
  else .ok false

/-- A cache entry is a hit while it is neither marked nor expired. -/
def entryValid (expiresAt : Stamp) (invalidatedAt : Option Stamp) (now : Stamp) :
    Except Failure Bool :=
  if invalidatedAt.isSome then .ok false else limitAhead expiresAt now

end Entitlements
