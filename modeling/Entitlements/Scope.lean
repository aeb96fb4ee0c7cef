import Entitlements.Text.Digits
import Entitlements.Text.Split
import Entitlements.Json.Basic

/-!
Scopes bound where a grant applies: a type and an identifier, `type:id`, with the wildcard for
every identifier of the type. A grant at one scope covers a request at another when the types agree
and the granted identifier is a leading part of the requested one. The tenant-wide scope covers
everything, and equal texts cover each other even when they are no scopes at all.

Only writes are strict about the form of a scope. Matching has to be total, so it reads any text
with something on both sides of a colon.
-/

namespace Entitlements

structure Scope where
  type : String
  id : String
  deriving DecidableEq, Repr

namespace Scope

def tenantWide : String := "tenant:*"

def text (s : Scope) : String := s.type ++ ":" ++ s.id

def isWildcard (s : Scope) : Bool := s.id == "*"

def parse? (s : String) : Option Scope :=
  match Text.cut? ':' s.toList with
  | some (type, id) =>
    if type.isEmpty || id.isEmpty then none else some ⟨String.ofList type, String.ofList id⟩
  | none => none

/-! ### Covering -/

def admits (granted requested : Scope) : Bool :=
  granted.type == requested.type &&
    (granted.isWildcard || granted.id.toList.isPrefixOf requested.id.toList)

def covers (granted requested : String) : Bool :=
  granted == tenantWide || granted == requested ||
    match parse? granted, parse? requested with
    | some g, some r => g.admits r
    | _, _ => false

/-- A request that names no scope is covered by the tenant-wide scope alone. -/
def coversGiven (granted : String) : Option String → Bool
  | some requested => covers granted requested
  | none => granted == tenantWide

@[simp] theorem coversGiven_some (granted requested : String) :
    coversGiven granted (some requested) = covers granted requested := rfl

@[simp] theorem covers_self (s : String) : covers s s = true := by simp [covers]

@[simp] theorem tenantWide_covers (s : String) : covers tenantWide s = true := by simp [covers]

/-- Values that are no texts cover only what equals them. -/
def coversValue : (granted requested : Json) → Bool
  | .str granted, .str requested => covers granted requested
  | .str granted, requested => granted == tenantWide || (Json.str granted).agrees requested
  | granted, requested => granted.agrees requested

/-! ### Well-formed scopes -/

def isLower (c : Char) : Bool := 'a' ≤ c && c ≤ 'z'

def isAlphanumeric (c : Char) : Bool := isLower c || ('A' ≤ c && c ≤ 'Z') || Text.isDigit c

def isType : List Char → Bool
  | [] => false
  | c :: cs => isLower c && cs.all fun c => isLower c || Text.isDigit c || c == '_'

def isIdentifier : List Char → Bool
  | [] => false
  | c :: cs => isAlphanumeric c &&
    cs.all fun c => isAlphanumeric c || c == '_' || c == '-' || c == '.' || c == '/'

/-- The strict test that writes apply. -/
def isValid (s : String) : Bool :=
  match Text.cut? ':' (Text.dropFinalBreak s.toList) with
  | some (type, id) => isType type && (id == ['*'] || isIdentifier id)
  | none => false

end Scope

end Entitlements
