import Entitlements.Decimal.Binary64
import Entitlements.Keyed

/-!
JSON values. Integers and other numbers are apart, because a whole number written with a fraction
is a different text and a different digest from the integer. An object is a list of fields in the
order they were given: the order is seen in reports about its entries, while lookups go by key.

Equality is decidable by a structural walk. A second, coarser comparison treats numbers by value,
the two booleans as zero and one, and objects without regard to order; it is the one by which two
values that are not texts count as equal scopes or patterns.
-/

namespace Entitlements

open Decimal

inductive Json where
  | null
  | bool (b : Bool)
  | int (n : Int)
  | real (x : Binary64)
  | str (s : String)
  | arr (items : List Json)
  | obj (fields : List (String × Json))

namespace Json

instance : Inhabited Json := ⟨.null⟩

/-! ### Equality -/

mutual

def same : Json → Json → Bool
  | .null, .null => true
  | .bool a, .bool b => a == b
  | .int a, .int b => a == b
  | .real a, .real b => a == b
  | .str a, .str b => a == b
  | .arr a, .arr b => sameItems a b
  | .obj a, .obj b => sameFields a b
  | _, _ => false
  termination_by structural x => x

def sameItems : List Json → List Json → Bool
  | [], [] => true
  | x :: xs, y :: ys => same x y && sameItems xs ys
  | _, _ => false
  termination_by structural x => x

def sameFields : List (String × Json) → List (String × Json) → Bool
  | [], [] => true
  | (k, x) :: xs, (l, y) :: ys => k == l && same x y && sameFields xs ys
  | _, _ => false
  termination_by structural x => x

end

mutual

theorem same_iff : (a b : Json) → (same a b = true ↔ a = b)
  | .null, b => by cases b <;> simp [same]
  | .bool _, b => by cases b <;> simp [same]
  | .int _, b => by cases b <;> simp [same]
  | .real _, b => by cases b <;> simp [same]
  | .str _, b => by cases b <;> simp [same]
  | .arr xs, b => by
    cases b <;> simp [same]
    exact sameItems_iff xs _
  | .obj xs, b => by
    cases b <;> simp [same]
    exact sameFields_iff xs _

theorem sameItems_iff : (a b : List Json) → (sameItems a b = true ↔ a = b)
  | [], b => by cases b <;> simp [sameItems]
  | x :: xs, b => by
    cases b with
    | nil => simp [sameItems]
    | cons y ys => simp [sameItems, same_iff x y, sameItems_iff xs ys]

theorem sameFields_iff : (a b : List (String × Json)) → (sameFields a b = true ↔ a = b)
  | [], b => by cases b <;> simp [sameFields]
  | (k, x) :: xs, b => by
    cases b with
    | nil => simp [sameFields]
    | cons y ys => cases y; simp [sameFields, same_iff x, sameFields_iff xs ys, and_assoc]

end

instance : DecidableEq Json := fun a b => decidable_of_iff _ (same_iff a b)

/-! ### Fields -/

abbrev Fields := Keyed Json

def get? : Json → String → Option Json
  | .obj fields, key => Keyed.get? fields key
  | _, _ => none

def ofText? : Option String → Json
  | none => .null
  | some s => .str s

def ofTexts (texts : List String) : Json := .arr (texts.map .str)

mutual

/-- Leaves of the fields with one key, at every level, only one: it has the place of the first and
the value of the last. -/
def settled : Json → Json
  | .arr xs => .arr (settledItems xs)
  | .obj fields => .obj (Keyed.ofList (settledFields fields))
  | x => x
  termination_by structural x => x

def settledItems : List Json → List Json
  | [] => []
  | x :: xs => settled x :: settledItems xs
  termination_by structural x => x

def settledFields : List (String × Json) → List (String × Json)
  | [] => []
  | (k, x) :: rest => (k, settled x) :: settledFields rest
  termination_by structural x => x

end

/-- The values that count as nothing: null, false, zero, and whatever is empty. -/
def isNothing : Json → Bool
  | .null => true
  | .bool b => !b
  | .int n => n == 0
  | .real x => x.isZero
  | .str s => s.isEmpty
  | .arr xs => xs.isEmpty
  | .obj fields => fields.isEmpty

/-- What a walk over a value meets: the items of a list, the characters of a text, the keys of an
object. There is no walk over anything else. -/
def members? : Json → Option (List Json)
  | .arr xs => some xs
  | .str s => some (s.toList.map fun c => .str (String.ofList [c]))
  | .obj fields => some (fields.map fun e => .str e.1)
  | _ => none

@[simp] theorem members?_ofTexts (texts : List String) :
    (ofTexts texts).members? = some (texts.map .str) := rfl

/-! ### Agreement -/

/-- The number a value stands for in a comparison, if any. -/
def number? : Json → Option (Int ⊕ Binary64)
  | .bool b => some (.inl (if b then 1 else 0))
  | .int n => some (.inl n)
  | .real .nan => none
  | .real x => some (match x.toInt? with
    | some n => .inl n
    | none => .inr x)
  | _ => none

mutual

def agrees : Json → Json → Bool
  | .null, .null => true
  | .str a, .str b => a == b
  | .arr a, .arr b => agreesItems a b
  | .obj a, .obj b => a.length == b.length && agreesFields a b
  | a, b => match number? a, number? b with
    | some x, some y => x == y
    | _, _ => false
  termination_by structural x => x

def agreesItems : List Json → List Json → Bool
  | [], [] => true
  | x :: xs, y :: ys => agrees x y && agreesItems xs ys
  | _, _ => false
  termination_by structural x => x

def agreesFields : List (String × Json) → Fields → Bool
  | [], _ => true
  | (k, x) :: xs, other => (match Keyed.get? other k with
      | some y => agrees x y
      | none => false) && agreesFields xs other
  termination_by structural x => x

end

end Json

end Entitlements
