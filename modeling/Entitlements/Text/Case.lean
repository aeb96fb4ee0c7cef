/-!
Letter case, as far as words of ASCII letters can show it. Three comparisons ignore case: sensitive
metadata keys and names of settings, which are lowered, and names of log levels, which are raised.
All look for ASCII words, so only characters whose other case is made of ASCII letters matter;
beyond ASCII itself those are the Kelvin sign when lowering, and the dotless i, the long s, the
sharp s and the Latin ligatures when raising.
-/

namespace Entitlements.Text

def isUpper (c : Char) : Bool := 'A' ≤ c && c ≤ 'Z'

def isLower (c : Char) : Bool := 'a' ≤ c && c ≤ 'z'

def lowerAscii (c : Char) : Char :=
  if isUpper c then Char.ofNat (c.toNat + 32) else c

def upperAscii (c : Char) : Char :=
  if isLower c then Char.ofNat (c.toNat - 32) else c

/-- The Kelvin sign is the one character outside ASCII that lowers to an ASCII letter alone. -/
def lowered (c : Char) : Char :=
  if c = '\u212a' then 'k' else lowerAscii c

def raised (c : Char) : List Char :=
  match c.toNat with
  | 0xDF => ['S', 'S']
  | 0x131 => ['I']
  | 0x17F => ['S']
  | 0xFB00 => ['F', 'F']
  | 0xFB01 => ['F', 'I']
  | 0xFB02 => ['F', 'L']
  | 0xFB03 => ['F', 'F', 'I']
  | 0xFB04 => ['F', 'F', 'L']
  | 0xFB05 => ['S', 'T']
  | 0xFB06 => ['S', 'T']
  | _ => [upperAscii c]

def equalsIgnoringCase (a b : String) : Bool :=
  a.toList.map lowerAscii == b.toList.map lowerAscii

/-! ### Searching -/

def startsWith [BEq α] : List α → List α → Bool
  | [], _ => true
  | _ :: _, [] => false
  | x :: xs, y :: ys => x == y && startsWith xs ys

/-- Does the first list occur in the second, as a run of neighbours? -/
def occursIn [BEq α] (word : List α) : List α → Bool
  | [] => word.isEmpty
  | c :: cs => startsWith word (c :: cs) || occursIn word cs

end Entitlements.Text
