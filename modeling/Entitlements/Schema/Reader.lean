import Entitlements.Schema.IntegerText
import Entitlements.Json.Parser
import Entitlements.Text.Case
import Entitlements.Time.Text

/-!
Readers of documents. A reader turns a JSON value into a result or into the list of everything that
is wrong with it. Two readings side by side report the issues of both, so `Checked` combines results
as an applicative functor that collects, and is deliberately not a monad.

Scalars are read with some good will: flags and integers may be written as texts or as numbers
that stand for them. Texts, lists and maps have to be what they are.
-/

namespace Entitlements.Schema

open Decimal

inductive Checked (α : Type) where
  | valid (value : α)
  | invalid (issues : List Issue)

namespace Checked

def map (f : α → β) : Checked α → Checked β
  | .valid a => .valid (f a)
  | .invalid issues => .invalid issues

/-- Applies a read function to a read argument, or reports the issues of both. -/
def apply : Checked (α → β) → Checked α → Checked β
  | .valid f, .valid a => .valid (f a)
  | .valid _, .invalid issues => .invalid issues
  | .invalid issues, .valid _ => .invalid issues
  | .invalid issues, .invalid more => .invalid (issues ++ more)

instance : Functor Checked := ⟨map, fun a => map fun _ => a⟩

instance : Applicative Checked where
  pure := .valid
  seq f x := f.apply (x ())

@[simp] theorem map_valid (f : α → β) (a : α) : f <$> Checked.valid a = .valid (f a) := rfl

@[simp] theorem valid_seq_valid (f : α → β) (a : α) :
    Checked.valid f <*> Checked.valid a = .valid (f a) := rfl

def fail (fault : Fault) : Checked α := .invalid [⟨[], fault⟩]

/-- Places what is read below a key of the document. -/
def under (key : String) : Checked α → Checked α
  | .valid a => .valid a
  | .invalid issues => .invalid (issues.map fun i => { i with path := key :: i.path })

@[simp] theorem under_valid (key : String) (a : α) : (Checked.valid a).under key = .valid a := rfl

def value? : Checked α → Option α
  | .valid a => some a
  | .invalid _ => none

end Checked

abbrev Reader (α : Type) := Json → Checked α

/-! ### Texts, lists and maps -/

def text : Reader String
  | .str s => .valid s
  | _ => .fail .notText

/-- Reads the members of a list; the place of a member is its index. -/
def members (read : Reader α) : Nat → List Json → Checked (List α)
  | _, [] => .valid []
  | i, x :: xs => List.cons <$> (read x).under (toString i) <*> members read (i + 1) xs

def list (read : Reader α) : Reader (List α)
  | .arr xs => members read 0 xs
  | _ => .fail .notList

def tuple (read : Reader α) : Reader (List α)
  | .arr xs => members read 0 xs
  | _ => .fail .notTuple

def entries (read : Reader α) : List (String × Json) → Checked (List (String × α))
  | [] => .valid []
  | (k, x) :: rest =>
    List.cons <$> ((fun a => (k, a)) <$> (read x).under k) <*> entries read rest

/-- Every entry is read, also one whose key is given again, and then the last one counts. -/
def map (read : Reader α) : Reader (Keyed α)
  | .obj fields => Keyed.ofList <$> entries read fields
  | _ => .fail .notMap

def nullable (read : Reader α) : Reader (Option α)
  | .null => .valid none
  | x => some <$> read x

def choice (ofText? : String → Option α) : Reader α
  | .str s => match ofText? s with
    | some a => .valid a
    | none => .fail .unknownChoice
  | _ => .fail .unknownChoice

/-! ### Flags -/

def offWords : List String := ["0", "off", "f", "false", "n", "no"]

def onWords : List String := ["1", "on", "t", "true", "y", "yes"]

def flagOfInt : Int → Checked Bool
  | 0 => .valid false
  | 1 => .valid true
  | _ => .fail .unreadableFlag

/-- The reals that may stand for an integer have a magnitude of at most 63 bits. -/
def isModest (n : Int) : Bool := decide (n.natAbs < Decimal.twoTo 63)

def flag : Reader Bool
  | .bool b => .valid b
  | .int n => if Decimal.isWordSized n then flagOfInt n else .fail .notFlag
  | .real x => match x.toInt? with
    | some n => if isModest n then flagOfInt n else .fail .notFlag
    | none => .fail .notFlag
  | .str s =>
    if offWords.any (Text.equalsIgnoringCase s) then .valid false
    else if onWords.any (Text.equalsIgnoringCase s) then .valid true
    else .fail .unreadableFlag
  | _ => .fail .notFlag

/-! ### Integers -/

def integer : Reader Int
  | .int n => .valid n
  | .bool b => .valid (if b then 1 else 0)
  | .real x =>
    if !x.isFinite then .fail .notFinite
    else match x.toInt? with
      | some n => if isModest n then .valid n else .fail .oversizedInteger
      | none => .fail .fractionalInteger
  | .str s => match IntegerText.read s.toList with
    | .ok n => .valid n
    | .error fault => .fail fault
  | _ => .fail .notInteger

/-! ### Times -/

/-- Of the times that can be written only those from year 1 on can be kept. -/
def timeInRange (stamp : Time.Stamp) : Checked Time.Stamp :=
  if stamp.reading.inRange then .valid stamp else .fail .distantTime

/-- A count is taken as a real number if it is not small, so one too large for that is no count. -/
def time : Reader Time.Stamp
  | .str s => match Time.Stamp.ofDocument? s with
    | some stamp => timeInRange stamp
    | none => .fail .unreadableTime
  | .int n => if (Binary64.ofInt n).isFinite then timeInRange (.ofInteger n) else .fail .notTime
  | .real x => match Time.Stamp.ofReal? x with
    | some stamp => timeInRange stamp
    | none => .fail .distantTime
  | _ => .fail .notTime

/-! ### Fields

A field has the key documents use and a second, plain name that is understood as well. When both
are present the key wins, and issues are reported under the one that was read. -/

structure FieldName where
  key : String
  name : String

namespace FieldName

def find? (f : FieldName) (fields : Json.Fields) : Option (String × Json) :=
  match Keyed.get? fields f.key with
  | some x => some (f.key, x)
  | none => (Keyed.get? fields f.name).map fun x => (f.name, x)

def required (f : FieldName) (read : Reader α) (fields : Json.Fields) : Checked α :=
  match f.find? fields with
  | some (key, x) => (read x).under key
  | none => .invalid [⟨[f.key], .missing⟩]

def withDefault (f : FieldName) (read : Reader α) (default : α) (fields : Json.Fields) :
    Checked α :=
  match f.find? fields with
  | some (key, x) => (read x).under key
  | none => .valid default

def optional (f : FieldName) (read : Reader α) (fields : Json.Fields) : Checked (Option α) :=
  f.withDefault (nullable read) none fields

end FieldName

/-- A model is read from an object; unknown keys are ignored, and of a key given twice the last
value counts. -/
def model (read : Json.Fields → Checked α) : Reader α
  | .obj fields => read (Keyed.ofList fields)
  | _ => .fail .notModel

end Entitlements.Schema
