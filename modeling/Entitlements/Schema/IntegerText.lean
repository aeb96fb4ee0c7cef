import Entitlements.Schema.Issue
import Entitlements.Text.Digits
import Entitlements.Text.Split

/-!
Integers written as texts. The plain form is an optional minus sign and digits, with no zero before
other digits. A text that is not in plain form is brought into it in steps: blanks around it go,
then a plus sign, then the zeros in front, then a fraction of zeros, then underscores between other
characters; a minus sign stays where it is.

Zeros in front may have underscores among them in any number, and without a sign before them a minus
sign may follow them: only after them do the stricter rules of the later steps apply.
-/

namespace Entitlements.Schema.IntegerText

/-! ### Zeros in front -/

/-- Does a number start here? -/
def startsNumber (c : Char) : Bool := Text.isDigit c || c == '-'

/-- What is left after a zero in front. The character passed last is kept when nothing but a
fraction follows, as it is then the whole part of the number. -/
def afterZero (last : Char) : List Char → Option (List Char)
  | [] => some [last]
  | c :: cs =>
    if c = '0' ∨ c = '_' then afterZero c cs
    else if c = '.' then some (last :: c :: cs)
    else if startsNumber c then some (c :: cs)
    else none

def withoutZeros : List Char → Option (List Char)
  | '0' :: cs => afterZero '0' cs
  | c :: cs => if Text.isDigit c then some (c :: cs) else none
  | [] => none

/-! ### Fractions and underscores -/

/-- A fraction may be written if it is made of zeros, one at least. -/
def withoutFraction (cs : List Char) : List Char :=
  match Text.cut? '.' cs with
  | some (whole, zeros) => if !zeros.isEmpty && zeros.all (· == '0') then whole else cs
  | none => cs

/-- Underscores go if each stands alone and between other characters. -/
def withoutUnderscores (cs : List Char) : List Char :=
  let pieces := Text.split '_' cs
  if pieces.any List.isEmpty then cs else pieces.flatten

/-! ### The plain form -/

/-- Numbers with more digits are refused. -/
def mostDigits : Nat := 4300

def natural (cs : List Char) : Except Fault Nat :=
  let ds := cs.takeWhile Text.isDigit
  if ds.isEmpty ∨ (ds.head? = some '0' ∧ ds.length ≠ 1) then .error .unreadableInteger
  else if mostDigits < ds.length then .error .oversizedInteger
  else if ds.length = cs.length then .ok (Text.ofDigits ds)
  else .error .unreadableInteger

def plain : List Char → Except Fault Int
  | '-' :: cs => (natural cs).map fun n => -(n : Int)
  | cs => (natural cs).map fun n => (n : Int)

/-! ### Reading -/

def unsignedForm (cs : List Char) : Option (List Char) :=
  (withoutZeros cs).map fun cs => withoutUnderscores (withoutFraction cs)

def plainForm (cs : List Char) : Option (List Char) :=
  match Text.trim cs with
  | '-' :: cs => (unsignedForm cs).map ('-' :: ·)
  | '+' :: cs => unsignedForm cs
  | cs => unsignedForm cs

/-- A text is tried as it stands and then in its plain form. Only as it stands can it be refused for
its length; a plain form that is too long makes the text unreadable. -/
def read (cs : List Char) : Except Fault Int :=
  match plain cs with
  | .error .unreadableInteger =>
    match (plainForm cs).map plain with
    | some (.ok n) => .ok n
    | _ => .error .unreadableInteger
  | result => result

end Entitlements.Schema.IntegerText
