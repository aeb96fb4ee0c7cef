import Entitlements.Failure

/-!
When a pattern of an allow or deny list matches a permission. Equal texts always match, and the
universal pattern matches everything. Beyond that only two texts of three segments can match,
segment by segment; a domain key is matched by nothing but itself and the universal pattern, unless
its dots happen to make three segments.
-/

namespace Entitlements

namespace Pattern

def universal : String := "*.*.*"

def covers (pattern permission : String) : Bool :=
  match FunctionPermission.parse? pattern, FunctionPermission.parse? permission with
  | some p, some t => p.covers t
  | _, _ => false

def isMatch (permission pattern : String) : Bool :=
  pattern == universal || pattern == permission || covers pattern permission

/-- A permission that is not named is matched by the universal pattern alone. -/
def isMatchGiven : (permission : Given) → (pattern : String) → Bool
  | some permission, pattern => isMatch permission pattern
  | none, pattern => pattern == universal

def anyMatch (permission : Given) (patterns : List String) : Bool :=
  patterns.any (isMatchGiven permission)

@[simp] theorem anyMatch_some (permission : String) (patterns : List String) :
    anyMatch (some permission) patterns = patterns.any (isMatch permission) := rfl

@[simp] theorem isMatch_self (p : String) : isMatch p p = true := by simp [isMatch]

@[simp] theorem isMatch_universal (p : String) : isMatch p universal = true := by simp [isMatch]

/-! ### Values that may not be texts

Lists of patterns come from documents, so an entry may be any value. One that is no text still
matches an equal value. -/

def isMatchValue : (permission pattern : Json) → Bool
  | .str permission, .str pattern => isMatch permission pattern
  | permission, pattern =>
    (match pattern with
      | .str s => s == universal
      | _ => false) || pattern.agrees permission

end Pattern

/-- The test of a segment on any value: nothing at all is no segment, and what is neither nothing
nor a text cannot be asked. -/
def Segment.isValidValue : Json → Except Failure Bool
  | .str s => .ok (Segment.isValid s)
  | x => if x.isNothing then .ok false else .error .wrongType

end Entitlements
