import Entitlements.Decimal.Written
import Entitlements.Json.Basic

/-!
Reading JSON text. The grammar is the standard one: no leading zeros, no trailing commas, control
characters only as escapes, and an escaped surrogate only as half of a pair. Beyond it stand the
words for the numbers that are not finite. A number with neither fraction nor exponent is an
integer; any other is the nearest binary64 number. An object keeps all its fields, also those with
a key that was given before; `settled` makes one of each. How deep containers may nest and how
long numbers may be is chosen by the caller.

Every function returns what it read with the rest of the input. The mutual recursion is bounded by
the length of the text: each call has read at least one character since the call before it on the
same level of the grammar, so the bound is never what stops a well-formed text.
-/

namespace Entitlements.Json

open Decimal

/-- What a text may hold at most: containers around a member, and digits before a point. -/
structure Limits where
  nesting : Nat
  digits : Nat
  deriving DecidableEq, Repr

/-! ### Characters -/

def isSpace (c : Char) : Bool := c == ' ' || c == '\n' || c == '\r' || c == '\t'

def skipSpace (cs : List Char) : List Char := cs.dropWhile isSpace

def hexValue? (c : Char) : Option Nat :=
  if '0' ≤ c ∧ c ≤ '9' then some (c.toNat - 48)
  else if 'a' ≤ c ∧ c ≤ 'f' then some (c.toNat - 87)
  else if 'A' ≤ c ∧ c ≤ 'F' then some (c.toNat - 55)
  else none

def unit16 : List Char → Option (Nat × List Char)
  | a :: b :: c :: d :: rest => do
    let a ← hexValue? a
    let b ← hexValue? b
    let c ← hexValue? c
    let d ← hexValue? d
    some (((a * 16 + b) * 16 + c) * 16 + d, rest)
  | _ => none

/-- One character from its escape in UTF-16 units: a unit that is no surrogate, or a pair. -/
def escapedUnits (cs : List Char) : Option (Char × List Char) := do
  let (u, rest) ← unit16 cs
  if u < 0xD800 ∨ 0xDFFF < u then some (Char.ofNat u, rest)
  else if 0xDC00 ≤ u then none
  else match rest with
    | '\\' :: 'u' :: rest => do
      let (v, rest) ← unit16 rest
      if 0xDC00 ≤ v ∧ v ≤ 0xDFFF then
        some (Char.ofNat (0x10000 + (u - 0xD800) * 0x400 + (v - 0xDC00)), rest)
      else none
    | _ => none

def named? : Char → Option Char
  | '"' => some '"'
  | '\\' => some '\\'
  | '/' => some '/'
  | 'b' => some '\x08'
  | 'f' => some '\x0c'
  | 'n' => some '\n'
  | 'r' => some '\r'
  | 't' => some '\t'
  | _ => none

/-- The characters of a string up to its closing quote, collected in reverse. -/
def stringBody : (budget : Nat) → List Char → List Char → Option (String × List Char)
  | 0, _, _ => none
  | _ + 1, _, [] => none
  | _ + 1, seen, '"' :: rest => some (String.ofList seen.reverse, rest)
  | budget + 1, seen, '\\' :: 'u' :: rest => do
    let (c, rest) ← escapedUnits rest
    stringBody budget (c :: seen) rest
  | budget + 1, seen, '\\' :: c :: rest => do
    let c ← named? c
    stringBody budget (c :: seen) rest
  | budget + 1, seen, c :: rest =>
    if c = '\\' ∨ c.toNat < 0x20 then none else stringBody budget (c :: seen) rest

/-! ### Numbers -/

def fraction : List Char → Option (List Char × List Char)
  | '.' :: rest =>
    let ds := rest.takeWhile Text.isDigit
    if ds.isEmpty then none else some (ds, rest.dropWhile Text.isDigit)
  | cs => some ([], cs)

def unsigned (mostDigits : Nat) (negative : Bool) (cs : List Char) :
    Option (Json × List Char) := do
  let whole := cs.takeWhile Text.isDigit
  let rest := cs.dropWhile Text.isDigit
  if whole.isEmpty ∨ (whole.head? = some '0' ∧ whole.length ≠ 1) then none
  else if mostDigits < whole.length then none
  else
    let (part, rest) ← fraction rest
    let (power, rest) ← readPower rest
    if part.isEmpty ∧ power = none then
      let n : Int := Text.ofDigits whole
      some (.int (if negative then -n else n), rest)
    else some (.real (ofParts negative whole part (power.getD 0)), rest)

def infinity (negative : Bool) : List Char → Option (Json × List Char)
  | 'I' :: 'n' :: 'f' :: 'i' :: 'n' :: 'i' :: 't' :: 'y' :: rest =>
    some (.real (.infinite negative), rest)
  | _ => none

def numeral (mostDigits : Nat) : List Char → Option (Json × List Char)
  | 'N' :: 'a' :: 'N' :: rest => some (.real .nan, rest)
  | '-' :: rest => infinity true rest <|> unsigned mostDigits true rest
  | cs => infinity false cs <|> unsigned mostDigits false cs

/-! ### Values -/

mutual

def value (limits : Limits) : (budget : Nat) → List Char → Option (Json × List Char)
  | 0, _ => none
  | budget + 1, cs =>
    match skipSpace cs with
    | 'n' :: 'u' :: 'l' :: 'l' :: rest => some (.null, rest)
    | 't' :: 'r' :: 'u' :: 'e' :: rest => some (.bool true, rest)
    | 'f' :: 'a' :: 'l' :: 's' :: 'e' :: rest => some (.bool false, rest)
    | '"' :: rest => (stringBody (rest.length + 1) [] rest).map fun (s, rest) => (.str s, rest)
    | '[' :: rest =>
      match skipSpace rest, limits with
      | ']' :: rest, _ => some (.arr [], rest)
      | _, ⟨0, _⟩ => none
      | rest, ⟨nesting + 1, digits⟩ =>
        (items ⟨nesting, digits⟩ budget rest).map fun (xs, rest) => (.arr xs, rest)
    | '\x7b' :: rest =>
      match skipSpace rest, limits with
      | '\x7d' :: rest, _ => some (.obj [], rest)
      | _, ⟨0, _⟩ => none
      | rest, ⟨nesting + 1, digits⟩ =>
        (members ⟨nesting, digits⟩ budget rest).map fun (xs, rest) => (.obj xs, rest)
    | cs => numeral limits.digits cs

def items (limits : Limits) : (budget : Nat) → List Char → Option (List Json × List Char)
  | 0, _ => none
  | budget + 1, cs => do
    let (x, rest) ← value limits budget cs
    match skipSpace rest with
    | ',' :: rest => do
      let (xs, rest) ← items limits budget rest
      some (x :: xs, rest)
    | ']' :: rest => some ([x], rest)
    | _ => none

def members (limits : Limits) : (budget : Nat) → List Char → Option (Fields × List Char)
  | 0, _ => none
  | budget + 1, cs =>
    match skipSpace cs with
    | '"' :: rest => do
      let (key, rest) ← stringBody (rest.length + 1) [] rest
      match skipSpace rest with
      | ':' :: rest => do
        let (x, rest) ← value limits budget rest
        match skipSpace rest with
        | ',' :: rest => do
          let (xs, rest) ← members limits budget rest
          some ((key, x) :: xs, rest)
        | '\x7d' :: rest => some ([(key, x)], rest)
        | _ => none
      | _ => none
    | _ => none

end

/-- Reads a whole text: one value with nothing but white space around it. -/
def parse? (limits : Limits) (text : String) : Option Json :=
  let cs := text.toList
  match value limits (2 * cs.length + 2) cs with
  | some (x, rest) => if (skipSpace rest).isEmpty then some x else none
  | none => none

end Entitlements.Json
