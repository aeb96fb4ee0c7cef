import Entitlements.Decimal.Binary64
import Entitlements.Text.Digits

/-!
Real numbers as they are written: digits, a point, more digits, and a power of ten after the letter
e. What is read is the binary64 number nearest to the written one, however many digits it has.
-/

namespace Entitlements.Decimal

/-- The number nearest to the digits before and after a point, moved by a power of ten. -/
def ofParts (negative : Bool) (whole part : List Char) (power : Int) : Binary64 :=
  .ofDecimal negative (Text.ofDigits (whole ++ part)) (power - part.length)

def powerDigits (negative : Bool) (cs : List Char) : Option (Option Int × List Char) :=
  let ds := cs.takeWhile Text.isDigit
  if ds.isEmpty then none
  else
    let n : Int := Text.ofDigits ds
    some (some (if negative then -n else n), cs.dropWhile Text.isDigit)

/-- A power of ten with its letter, when there is one, and what follows it. -/
def readPower : List Char → Option (Option Int × List Char)
  | 'e' :: '-' :: rest | 'E' :: '-' :: rest => powerDigits true rest
  | 'e' :: '+' :: rest | 'E' :: '+' :: rest => powerDigits false rest
  | 'e' :: rest | 'E' :: rest => powerDigits false rest
  | cs => some (none, cs)

/-- A number with a point, which needs digits on one side of it only. Without a point there may be
no power either. -/
def readPointed (negative : Bool) (cs : List Char) : Option Binary64 :=
  let whole := cs.takeWhile Text.isDigit
  match cs.dropWhile Text.isDigit with
  | '.' :: rest => do
    let part := rest.takeWhile Text.isDigit
    let (power, rest) ← readPower (rest.dropWhile Text.isDigit)
    if rest.isEmpty ∧ ¬(whole.isEmpty ∧ part.isEmpty) then
      some (ofParts negative whole part (power.getD 0))
    else none
  | _ => none

end Entitlements.Decimal
