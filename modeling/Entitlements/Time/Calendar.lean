/-!
The proleptic Gregorian calendar. Days are counted from the first of January of year 1, which is
day 0. The leap rule repeats every 400 years, so the count of days before a year is a closed formula
and its inverse a chain of divisions by the lengths of the cycles.

A date may be written with any year of four digits. Those of year 0 are dates of the calendar as
well, with counts below zero, but no time is kept that lies so early.
-/

namespace Entitlements.Time

structure Date where
  year : Nat
  month : Nat
  day : Nat
  deriving DecidableEq, Repr

def isLeap (year : Nat) : Bool := year % 4 == 0 && (year % 100 != 0 || year % 400 == 0)

def monthLength (year month : Nat) : Nat :=
  match month with
  | 2 => if isLeap year then 29 else 28
  | 4 | 6 | 9 | 11 => 30
  | _ => 31

/-- The days before the first day of a year; a quotient is rounded down. -/
def daysBeforeYear (year : Nat) : Int :=
  let y : Int := (year : Int) - 1
  365 * y + y / 4 - y / 100 + y / 400

def daysBeforeMonth (year : Nat) : (month : Nat) → Nat
  | 0 => 0
  | 1 => 0
  | month + 1 => daysBeforeMonth year month + monthLength year month

def Date.isValid (d : Date) : Bool :=
  d.year ≤ 9999 && 1 ≤ d.month && d.month ≤ 12 && 1 ≤ d.day &&
    d.day ≤ monthLength d.year d.month

def Date.toDays (d : Date) : Int :=
  daysBeforeYear d.year + daysBeforeMonth d.year d.month + (d.day - 1)

/-- The days from the start of year 1 to the end of year 9999. -/
def dayCount : Nat := 3652059

/-! ### From days to dates -/

/-- The year of a day, by whole cycles of 400, 100, 4 and 1 years. The last year of a cycle may be
one day longer than the others, hence the two bounds by 3. -/
def yearOf (days : Nat) : Nat :=
  let n400 := days / 146097
  let r400 := days % 146097
  let n100 := min (r400 / 36524) 3
  let r100 := r400 - 36524 * n100
  let n4 := r100 / 1461
  let r4 := r100 % 1461
  let n1 := min (r4 / 365) 3
  400 * n400 + 100 * n100 + 4 * n4 + n1 + 1

def monthFrom (year rest : Nat) : (months : List Nat) → Nat × Nat
  | [] => (12, rest)
  | month :: months =>
    let length := monthLength year month
    if rest < length then (month, rest) else monthFrom year (rest - length) months

def Date.ofDays (days : Nat) : Date :=
  let year := yearOf days
  let (month, rest) :=
    monthFrom year (days - daysBeforeYear year).toNat [1, 2, 3, 4, 5, 6, 7, 8, 9, 10, 11, 12]
  ⟨year, month, rest + 1⟩

end Entitlements.Time
