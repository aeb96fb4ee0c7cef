import Entitlements.Json.Basic
import Entitlements.Decimal.Shortest
import Entitlements.Text.Quoted

/-!
The written forms of a JSON value.

The canonical form is the text that digests are taken of: fields sorted by key at every level, no
white space, and only the quote, the backslash and the controls below the space escaped. The
indented form is for people: sorted as well, two spaces a level, and pure ASCII. The shown form is
the one that messages quote, with words for the constants and quoted texts.
-/

namespace Entitlements.Json

open Decimal

/-! ### Atoms -/

/-- The shortest digits that read back, positional from `0.0001` up to sixteen places. -/
def layout : Layout := ⟨-4, 16, 2, "Infinity", "NaN"⟩

def intText (n : Int) : List Char :=
  (if n < 0 then ['-'] else []) ++ Nat.toDigits 10 n.natAbs

def controlEscape (c : Char) : List Char :=
  if c = '\n' then ['\\', 'n']
  else if c = '\r' then ['\\', 'r']
  else if c = '\t' then ['\\', 't']
  else if c = '\x08' then ['\\', 'b']
  else if c = '\x0c' then ['\\', 'f']
  else '\\' :: 'u' :: Text.hex 4 c.toNat

def stringChar (c : Char) : List Char :=
  if c = '"' then ['\\', '"']
  else if c = '\\' then ['\\', '\\']
  else if c.toNat < 0x20 then controlEscape c
  else [c]

def stringText (s : String) : List Char := '"' :: s.toList.flatMap stringChar ++ ['"']

/-- A character that is not printable ASCII by its UTF-16 units. -/
def asciiChar (c : Char) : List Char :=
  let n := c.toNat
  if n < 0x7F then stringChar c
  else if n < 0x10000 then '\\' :: 'u' :: Text.hex 4 n
  else
    let m := n - 0x10000
    '\\' :: 'u' :: Text.hex 4 (0xD800 + m / 0x400) ++
      '\\' :: 'u' :: Text.hex 4 (0xDC00 + m % 0x400)

def asciiText (s : String) : List Char := '"' :: s.toList.flatMap asciiChar ++ ['"']

/-! ### Sorting -/

def keyLe (a b : String × Json) : Bool := decide (a.1 ≤ b.1)

mutual

/-- Orders the fields of every object by key. -/
def sorted : Json → Json
  | .arr xs => .arr (sortedItems xs)
  | .obj fields => .obj ((sortedFields fields).mergeSort keyLe)
  | x => x
  termination_by structural x => x

def sortedItems : List Json → List Json
  | [] => []
  | x :: xs => sorted x :: sortedItems xs
  termination_by structural x => x

def sortedFields : List (String × Json) → List (String × Json)
  | [] => []
  | (k, x) :: rest => (k, sorted x) :: sortedFields rest
  termination_by structural x => x

end

/-! ### Compact and canonical text -/

mutual

def compact : Json → List Char
  | .null => "null".toList
  | .bool b => (if b then "true" else "false").toList
  | .int n => intText n
  | .real x => x.text layout
  | .str s => stringText s
  | .arr xs => '[' :: compactItems xs ++ [']']
  | .obj fields => '\x7b' :: compactFields fields ++ ['\x7d']
  termination_by structural x => x

def compactItems : List Json → List Char
  | [] => []
  | [x] => compact x
  | x :: y :: rest => compact x ++ ',' :: compactItems (y :: rest)
  termination_by structural x => x

def compactFields : List (String × Json) → List Char
  | [] => []
  | [(k, x)] => stringText k ++ ':' :: compact x
  | (k, x) :: y :: rest => stringText k ++ ':' :: compact x ++ ',' :: compactFields (y :: rest)
  termination_by structural x => x

end

def text (x : Json) : String := String.ofList x.compact

def canonical (x : Json) : String := x.sorted.text

/-! ### Indented text -/

def newline (level : Nat) : List Char := '\n' :: List.replicate (2 * level) ' '

mutual

def indent (level : Nat) : Json → List Char
  | .str s => asciiText s
  | .arr [] => ['[', ']']
  | .arr (x :: xs) =>
    '[' :: newline (level + 1) ++ indent (level + 1) x ++ indentItems (level + 1) xs ++
      newline level ++ [']']
  | .obj [] => ['\x7b', '\x7d']
  | .obj ((k, x) :: fields) =>
    '\x7b' :: newline (level + 1) ++ asciiText k ++ ':' :: ' ' :: indent (level + 1) x ++
      indentFields (level + 1) fields ++ newline level ++ ['\x7d']
  | .null => "null".toList
  | .bool b => (if b then "true" else "false").toList
  | .int n => intText n
  | .real x => x.text layout
  termination_by structural x => x

def indentItems (level : Nat) : List Json → List Char
  | [] => []
  | x :: xs => ',' :: newline level ++ indent level x ++ indentItems level xs
  termination_by structural x => x

def indentFields (level : Nat) : List (String × Json) → List Char
  | [] => []
  | (k, x) :: rest =>
    ',' :: newline level ++ asciiText k ++ ':' :: ' ' :: indent level x ++
      indentFields level rest
  termination_by structural x => x

end

def indented (x : Json) : String := String.ofList (x.sorted.indent 0)

/-! ### Shown text -/

mutual

def shown : Json → List Char
  | .null => "None".toList
  | .bool b => (if b then "True" else "False").toList
  | .int n => intText n
  | .real x => x.text { layout with infinity := "inf", nan := "nan" }
  | .str s => (Text.quoted s).toList
  | .arr [] => ['[', ']']
  | .arr (x :: xs) => '[' :: shown x ++ shownItems xs ++ [']']
  | .obj [] => ['\x7b', '\x7d']
  | .obj ((k, x) :: fields) =>
    '\x7b' :: (Text.quoted k).toList ++ ':' :: ' ' :: shown x ++ shownFields fields ++ ['\x7d']
  termination_by structural x => x

def shownItems : List Json → List Char
  | [] => []
  | x :: xs => ',' :: ' ' :: shown x ++ shownItems xs
  termination_by structural x => x

def shownFields : List (String × Json) → List Char
  | [] => []
  | (k, x) :: rest =>
    ',' :: ' ' :: (Text.quoted k).toList ++ ':' :: ' ' :: shown x ++ shownFields rest
  termination_by structural x => x

end

/-- A value as a message quotes it. -/
def quoted (x : Json) : String := String.ofList x.shown

/-- A value as a message mentions it: a text stands without quotes. -/
def mentioned : Json → String
  | .str s => s
  | x => x.quoted

end Entitlements.Json
