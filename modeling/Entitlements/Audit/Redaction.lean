import Entitlements.Audit.Details
import Entitlements.Text.Case

/-!
Redaction of metadata before it is written to the audit log. A key is sensitive when its lowered
text contains one of a few fragments; whatever stands under such a key is replaced as a whole, and
everything else keeps its shape and order. Only maps and lists are looked into. A tuple is passed on
as it is, with all that its members hold.
-/

namespace Entitlements

namespace Redaction

def fragments : List String :=
  ["api_key", "authorization", "token", "secret", "password", "ip_allowlist"]

def mark : String := "[REDACTED]"

def isSensitive (key : String) : Bool :=
  fragments.any fun f => Text.occursIn f.toList (key.toList.map Text.lowered)

end Redaction

namespace Details

open Redaction

mutual

def redact : Details → Details
  | .list xs => .list (redactItems xs)
  | .map fields => .map (redactFields fields)
  | x => x
  termination_by structural x => x

def redactItems : List Details → List Details
  | [] => []
  | x :: xs => redact x :: redactItems xs
  termination_by structural x => x

def redactFields : List (String × Details) → List (String × Details)
  | [] => []
  | (k, x) :: rest =>
    (k, if isSensitive k then .str mark else redact x) :: redactFields rest
  termination_by structural x => x

end

end Details

/-- Redaction of a document. -/
def Redaction.redact (x : Json) : Json := (Details.ofJson x).redact.toJson

end Entitlements
