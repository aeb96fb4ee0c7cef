import Entitlements.Text.Split

/-!
Permission texts. A permission is written in one of two shapes that are never interchanged.

A function permission has three dotted segments, `domain.function.action`; as a pattern each of
its segments may be the wildcard. A domain key has four parts, `domain.equipment.location:action`,
and names one capability on equipment at a location; an older spelling with dots throughout is
still read, but never written.

A segment is a word of ASCII letters, digits and underscores. Where a whole text is tested, one
final line break is tolerated and does not become part of the result.
-/

namespace Entitlements

/-! ### Segments -/

namespace Segment

def isWordChar (c : Char) : Bool :=
  ('a' ≤ c && c ≤ 'z') || ('A' ≤ c && c ≤ 'Z') || ('0' ≤ c && c ≤ '9') || c == '_'

def isWord (cs : List Char) : Bool := !cs.isEmpty && cs.all isWordChar

/-- A text that may stand as one part of a domain key. -/
def isValid (s : String) : Bool := isWord s.toList

def wildcard : String := "*"

/-- A segment of a pattern: a word or the wildcard. -/
def isPattern (s : String) : Bool :=
  let cs := Text.dropFinalBreak s.toList
  cs == ['*'] || isWord cs

theorem not_isWordChar_dot : isWordChar '.' = false := by decide

theorem not_isWordChar_colon : isWordChar ':' = false := by decide

theorem not_isWordChar_break : isWordChar '\n' = false := by decide

theorem not_mem_of_isWord {cs : List Char} {c : Char} (hc : isWordChar c = false)
    (h : isWord cs = true) : c ∉ cs := by
  intro hm
  simp only [isWord, Bool.and_eq_true, List.all_eq_true] at h
  simp [h.2 c hm] at hc

end Segment

/-! ### Domain keys -/

structure DomainKey where
  domain : String
  equipment : String
  location : String
  action : String
  deriving DecidableEq, Repr

namespace DomainKey

def parts (k : DomainKey) : List String := [k.domain, k.equipment, k.location, k.action]

def encode (k : DomainKey) : String :=
  k.domain ++ "." ++ k.equipment ++ "." ++ k.location ++ ":" ++ k.action

/-- The older spelling of a key. -/
def encodeDotted (k : DomainKey) : String :=
  k.domain ++ "." ++ k.equipment ++ "." ++ k.location ++ "." ++ k.action

def ofWords? (domain equipment location action : List Char) : Option DomainKey :=
  if Segment.isWord domain && Segment.isWord equipment && Segment.isWord location &&
      Segment.isWord action then
    some ⟨String.ofList domain, String.ofList equipment, String.ofList location,
      String.ofList action⟩
  else none

def decode? (s : String) : Option DomainKey :=
  match Text.split '.' (Text.dropFinalBreak s.toList) with
  | [domain, equipment, rest] =>
    match Text.split ':' rest with
    | [location, action] => ofWords? domain equipment location action
    | _ => none
  | _ => none

def decodeDotted? (s : String) : Option DomainKey :=
  match Text.split '.' (Text.dropFinalBreak s.toList) with
  | [domain, equipment, location, action] => ofWords? domain equipment location action
  | _ => none

/-- The key a permission text names, in either spelling. -/
def ofPermission? (s : String) : Option DomainKey :=
  match decode? s with
  | some k => some k
  | none => decodeDotted? s

end DomainKey

/-! ### Function permissions -/

structure FunctionPermission where
  domain : String
  function : String
  action : String
  deriving DecidableEq, Repr

namespace FunctionPermission

/-- Any three dotted pieces, whatever they hold. -/
def parse? (s : String) : Option FunctionPermission :=
  match Text.split '.' s.toList with
  | [domain, function, action] =>
    some ⟨String.ofList domain, String.ofList function, String.ofList action⟩
  | _ => none

def text (p : FunctionPermission) : String := p.domain ++ "." ++ p.function ++ "." ++ p.action

def segmentCovers (pattern actual : String) : Bool :=
  pattern == Segment.wildcard || pattern == actual

/-- Does the pattern admit the permission, segment by segment? -/
def covers (pattern target : FunctionPermission) : Bool :=
  segmentCovers pattern.domain target.domain &&
    segmentCovers pattern.function target.function &&
    segmentCovers pattern.action target.action

def isPattern (p : FunctionPermission) : Bool :=
  Segment.isPattern p.domain && Segment.isPattern p.function && Segment.isPattern p.action

end FunctionPermission

/-! ### Shapes -/

inductive PermissionShape where
  | function
  | domain
  | dottedDomain
  | unknown
  deriving DecidableEq, Repr

def PermissionShape.text : PermissionShape → String
  | .function => "function"
  | .domain => "domain"
  | .dottedDomain => "legacy_domain"
  | .unknown => "unknown"

/-- The shape a permission text is written in. -/
def PermissionShape.of (s : String) : PermissionShape :=
  if (DomainKey.decode? s).isSome then .domain
  else if (DomainKey.decodeDotted? s).isSome then .dottedDomain
  else match FunctionPermission.parse? s with
    | some p => if p.isPattern then .function else .unknown
    | none => .unknown

end Entitlements
