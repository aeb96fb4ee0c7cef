import Entitlements.Text.Digits
import Entitlements.Decimal.Binary64

/-!
The shortest decimal that reads back as a given binary number. The reals that round to the number
form an interval around it, with its ends included exactly when the significand is even. For one,
two, up to seventeen digits the two points of the decimal grid next to the value are tried against
that interval: the first grid with a hit gives the digit count, and of two hits the nearer point
is taken, the one with an even last digit on a tie.

How digits are laid out on the page is a decision of the format that prints them, kept in a record
of its own.
-/

namespace Entitlements.Decimal

/-- A decimal `digits * 10 ^ tens`. -/
structure Point where
  digits : Nat
  tens : Int
  deriving DecidableEq, Repr

namespace Shortest

/-- The value and the ends of its interval as numerators over one denominator. -/
structure Interval where
  low : Nat
  value : Nat
  high : Nat
  den : Nat
  closed : Bool

/-- Below a power of two the neighbours are twice as close as above it. -/
def interval (m : Nat) (e : Int) : Interval :=
  let step : Nat := if m = twoTo 52 ∧ Binary64.leastExponent < e then 1 else 2
  let (unit, den) := Binary64.scale 1 1 (e - 2)
  { low := (4 * m - step) * unit, value := 4 * m * unit, high := (4 * m + 2) * unit,
    den, closed := m % 2 == 0 }

def Interval.holds (i : Interval) (num den : Nat) : Bool :=
  let x := num * i.den
  let lo := i.low * den
  let hi := i.high * den
  if i.closed then decide (lo ≤ x) && decide (x ≤ hi) else decide (lo < x) && decide (x < hi)

/-- The position of the leading digit: `p` with `10 ^ p ≤ num / den < 10 ^ (p + 1)`. -/
def leading (num den : Nat) : Int :=
  if den ≤ num then ((Nat.toDigits 10 (num / den)).length : Int) - 1
  else -((Nat.toDigits 10 ((den - 1) / num)).length : Int)

/-- The grid of step `10 ^ tens` around the value: the point below, what is left, and the step. -/
def floorOn (i : Interval) (tens : Int) : Nat × Nat × Nat :=
  if 0 ≤ tens then
    let step := i.den * tenTo tens.toNat
    (i.value / step, i.value % step, step)
  else
    let num := i.value * tenTo (-tens).toNat
    (num / i.den, num % i.den, i.den)

def hits (i : Interval) (tens : Int) (d : Nat) : Bool :=
  if 0 ≤ tens then i.holds (d * tenTo tens.toNat) 1 else i.holds d (tenTo (-tens).toNat)

def onGrid (i : Interval) (tens : Int) : Option Point :=
  let (d, rest, step) := floorOn i tens
  let below := hits i tens d
  let above := hits i tens (d + 1)
  match below, above with
  | false, false => none
  | true, false => some ⟨d, tens⟩
  | false, true => some ⟨d + 1, tens⟩
  | true, true =>
    if 2 * rest < step then some ⟨d, tens⟩
    else if step < 2 * rest then some ⟨d + 1, tens⟩
    else if d % 2 = 0 then some ⟨d, tens⟩ else some ⟨d + 1, tens⟩

def search (i : Interval) (lead : Int) : (budget digits : Nat) → Point
  | 0, _ => ⟨0, 0⟩
  | budget + 1, n =>
    match onGrid i (lead - n + 1) with
    | some point => point
    | none => search i lead budget (n + 1)

end Shortest

/-- The decimal written without zeros at its end. -/
def Point.reduced (digits : Nat) (tens : Int) : Point :=
  if digits % 10 = 0 ∧ 0 < digits then Point.reduced (digits / 10) (tens + 1) else ⟨digits, tens⟩
  termination_by digits
  decreasing_by omega

/-- Seventeen digits always suffice, so the search ends with a hit. The next power of ten lies on
the grid of one digit as well, as ten steps, and is then reduced. -/
def shortest (m : Nat) (e : Int) : Point :=
  let i := Shortest.interval m e
  let point := Shortest.search i (Shortest.leading i.value i.den) 17 1
  Point.reduced point.digits point.tens

/-! ### Layout -/

/-- Positional notation is used when the place of the point, counted from before the first digit,
lies above `fewestPlaces` and not above `mostPlaces`; otherwise an exponent is written with at
least `exponentDigits` digits. -/
structure Layout where
  fewestPlaces : Int
  mostPlaces : Int
  exponentDigits : Nat
  infinity : String
  nan : String

def zeros (n : Nat) : List Char := List.replicate n '0'

def Layout.positional (ds : List Char) (point : Int) : List Char :=
  if point ≤ 0 then '0' :: '.' :: zeros (-point).toNat ++ ds
  else if (ds.length : Int) ≤ point then ds ++ zeros (point - ds.length).toNat ++ ['.', '0']
  else ds.take point.toNat ++ '.' :: ds.drop point.toNat

def Layout.scientific (layout : Layout) (ds : List Char) (point : Int) : List Char :=
  let e := point - 1
  ds.take 1 ++ (if ds.length ≤ 1 then [] else '.' :: ds.drop 1) ++
    'e' :: (if e < 0 then '-' else '+') :: Text.padded layout.exponentDigits e.natAbs

def Layout.write (layout : Layout) (p : Point) : List Char :=
  let ds := Nat.toDigits 10 p.digits
  let point : Int := p.tens + ds.length
  if layout.fewestPlaces < point ∧ point ≤ layout.mostPlaces then Layout.positional ds point
  else layout.scientific ds point

/-- Zero keeps its sign and is written `0.0`. -/
def Binary64.text (layout : Layout) : Binary64 → List Char
  | .nan => layout.nan.toList
  | .infinite negative => (if negative then ['-'] else []) ++ layout.infinity.toList
  | .finite negative m e =>
    (if negative then ['-'] else []) ++
      (if m = 0 then ['0', '.', '0'] else layout.write (shortest m e))

end Entitlements.Decimal
