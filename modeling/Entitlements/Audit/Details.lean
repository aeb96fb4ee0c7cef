import Entitlements.Json.Basic

/-!
What a caller tells about an event. It is a value in memory and not yet a document, so a sequence
may be a list or a tuple. The log keeps documents, in which every sequence is an array: a tuple
looks like a list from then on, at every depth. A value that cannot be written as a document is
refused when it is stored, and has no place here.
-/

namespace Entitlements

open Decimal

inductive Details where
  | null
  | bool (b : Bool)
  | int (n : Int)
  | real (x : Binary64)
  | str (s : String)
  | list (items : List Details)
  | tuple (items : List Details)
  | map (fields : List (String × Details))

namespace Details

mutual

/-- A document as a value, without tuples. -/
def ofJson : Json → Details
  | .null => .null
  | .bool b => .bool b
  | .int n => .int n
  | .real x => .real x
  | .str s => .str s
  | .arr xs => .list (ofJsonItems xs)
  | .obj fields => .map (ofJsonFields fields)
  termination_by structural x => x

def ofJsonItems : List Json → List Details
  | [] => []
  | x :: xs => ofJson x :: ofJsonItems xs
  termination_by structural x => x

def ofJsonFields : List (String × Json) → List (String × Details)
  | [] => []
  | (k, x) :: rest => (k, ofJson x) :: ofJsonFields rest
  termination_by structural x => x

end

instance : Coe Json Details := ⟨ofJson⟩

mutual

/-- The document that is stored. -/
def toJson : Details → Json
  | .null => .null
  | .bool b => .bool b
  | .int n => .int n
  | .real x => .real x
  | .str s => .str s
  | .list xs => .arr (toJsonItems xs)
  | .tuple xs => .arr (toJsonItems xs)
  | .map fields => .obj (toJsonFields fields)
  termination_by structural x => x

def toJsonItems : List Details → List Json
  | [] => []
  | x :: xs => toJson x :: toJsonItems xs
  termination_by structural x => x

def toJsonFields : List (String × Details) → List (String × Json)
  | [] => []
  | (k, x) :: rest => (k, toJson x) :: toJsonFields rest
  termination_by structural x => x

end

/-- The values that count as nothing are those whose documents do. -/
def isNothing (x : Details) : Bool := x.toJson.isNothing

/-! ### Member by member -/

theorem ofJson_arr (xs : List Json) : ofJson (.arr xs) = .list (xs.map ofJson) := by
  have hitems : ofJsonItems xs = xs.map ofJson := by
    induction xs with
    | nil => rfl
    | cons x xs ih => rw [ofJsonItems, ih, List.map_cons]
  rw [ofJson, hitems]

theorem ofJson_obj (fields : Json.Fields) :
    ofJson (.obj fields) = .map (fields.map fun e => (e.1, ofJson e.2)) := by
  have hfields : ofJsonFields fields = fields.map fun e => (e.1, ofJson e.2) := by
    induction fields with
    | nil => rfl
    | cons e fields ih => rw [ofJsonFields, ih, List.map_cons]
  rw [ofJson, hfields]

theorem toJsonItems_eq_map (xs : List Details) : toJsonItems xs = xs.map toJson := by
  induction xs with
  | nil => rfl
  | cons x xs ih => rw [toJsonItems, ih, List.map_cons]

theorem toJson_list (xs : List Details) : toJson (.list xs) = .arr (xs.map toJson) := by
  rw [toJson, toJsonItems_eq_map]

theorem toJson_map (fields : List (String × Details)) :
    toJson (.map fields) = .obj (fields.map fun e => (e.1, toJson e.2)) := by
  have hfields : toJsonFields fields = fields.map fun e => (e.1, toJson e.2) := by
    induction fields with
    | nil => rfl
    | cons e fields ih => rw [toJsonFields, ih, List.map_cons]
  rw [toJson, hfields]

end Details

end Entitlements
