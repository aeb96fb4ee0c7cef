import Entitlements.Decimal.Power

/-!
Binary floating-point numbers of double width, as exact values. A finite number is a sign, a
significand below `2 ^ 53` and the exponent of the significand's last bit, at least `-1074`; it is
in normal form when the significand is at least `2 ^ 52` or the exponent is the least one. Working
with the exact value keeps reading and writing inside natural-number arithmetic, where a lemma can
reach them, and makes equality of values decidable; that equality tells the two zeros apart and
takes the value that is not a number for equal to itself.
-/

namespace Entitlements.Decimal

inductive Binary64 where
  | finite (negative : Bool) (significand : Nat) (exponent : Int)
  | infinite (negative : Bool)
  | nan
  deriving DecidableEq, Repr

namespace Binary64

def leastExponent : Int := -1074

def greatestExponent : Int := 971

def zero (negative : Bool) : Binary64 := .finite negative 0 leastExponent

def isZero : Binary64 → Bool
  | .finite _ m _ => m == 0
  | .infinite _ | .nan => false

/-! ### Rounding

A positive ratio is rounded to the nearest number, and to the one with an even significand when
two are equally near. -/

def roundHalfEven (num den : Nat) : Nat :=
  let q := num / den
  let r := num % den
  if 2 * r < den then q
  else if den < 2 * r then q + 1
  else if q % 2 = 0 then q else q + 1

/-- Scales a ratio by a power of two, keeping it a ratio of naturals. -/
def scale (num den : Nat) (shift : Int) : Nat × Nat :=
  if 0 ≤ shift then (num * twoTo shift.toNat, den) else (num, den * twoTo (-shift).toNat)

/-- The exponent at which the scaled ratio lies in `[2 ^ 52, 2 ^ 53)`, or the least one. -/
def exponentOf (num den : Nat) : Int :=
  let e : Int := (Nat.log2 num : Int) - Nat.log2 den - 53
  let (n, d) := scale num den (-e)
  max leastExponent (if n / d < twoTo 53 then e else e + 1)

def ofRatio (negative : Bool) (num den : Nat) : Binary64 :=
  if num = 0 then zero negative
  else
    let e := exponentOf num den
    let (n, d) := scale num den (-e)
    let m := roundHalfEven n d
    let (m, e) := if m = twoTo 53 then (twoTo 52, e + 1) else (m, e)
    if greatestExponent < e then .infinite negative else .finite negative m e

def ofInt (n : Int) : Binary64 := ofRatio (n < 0) n.natAbs 1

/-- The number nearest to `digits * 10 ^ tens`. Exponents far outside the range are settled by the
count of digits, so the powers that are computed stay small. -/
def ofDecimal (negative : Bool) (digits : Nat) (tens : Int) : Binary64 :=
  let top : Int := tens + (Nat.toDigits 10 digits).length
  if digits = 0 ∨ top < -330 then zero negative
  else if 310 < top then .infinite negative
  else if 0 ≤ tens then ofRatio negative (digits * tenTo tens.toNat) 1
  else ofRatio negative digits (tenTo (-tens).toNat)

/-! ### Exact values -/

/-- The exact value as a ratio with a positive denominator. -/
def ratio? : Binary64 → Option (Int × Nat)
  | .finite negative m e =>
    let (num, den) := scale m 1 e
    some (if negative then -(num : Int) else num, den)
  | .infinite _ | .nan => none

/-- The value as an integer, when it is one. -/
def toInt? (x : Binary64) : Option Int := do
  let (num, den) ← x.ratio?
  if num % den = 0 then some (num / den) else none

def isFinite (x : Binary64) : Bool := x.ratio?.isSome

/-- The next integer below, and what is above it in millionths to the nearest. What is above and its
multiple are binary64 numbers themselves, so each is rounded on its way. -/
def floorAndMillionths? (x : Binary64) : Option (Int × Nat) := do
  let (num, den) ← x.ratio?
  let (rest, restDen) ← (ofRatio false (num % den).toNat den).ratio?
  let (many, manyDen) ← (ofRatio false (rest.toNat * 1000000) restDen).ratio?
  some (num / den, (2 * many.toNat + manyDen) / (2 * manyDen))

end Binary64

end Entitlements.Decimal
