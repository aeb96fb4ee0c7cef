import Entitlements.Decimal.Written
import Entitlements.Time.Instant

/-!
Written times. All forms share the reading, year to second, with six more digits exactly when the
microseconds are not zero. Answers give the offset in full; documents write a zero offset as the
letter Z. Readers accept what either form writes, and a document may also hold a bare date, which
means its midnight, or a count of seconds, as a number or as a text.
-/

namespace Entitlements.Time

/-! ### Writing -/

def Date.text (d : Date) : List Char :=
  Text.padded 4 d.year ++ '-' :: Text.padded 2 d.month ++ '-' :: Text.padded 2 d.day

/-- A count of seconds below one day as hours and minutes, and as seconds where the form wants
them. -/
def clockText (seconds : Nat) (withSeconds : Bool) : List Char :=
  Text.padded 2 (seconds / 3600) ++ ':' :: Text.padded 2 (seconds / 60 % 60) ++
    if withSeconds then ':' :: Text.padded 2 (seconds % 60) else []

def Instant.reading (i : Instant) : List Char :=
  let micros := i.micros.toNat
  let date := Date.ofDays (micros / 86400000000)
  let rest := micros % 86400000000
  let fraction := rest % 1000000
  date.text ++ 'T' :: clockText (rest / 1000000) true ++
    if fraction = 0 then [] else '.' :: Text.padded 6 fraction

def offsetText (offset : Int) : List Char :=
  let n := offset.natAbs
  (if offset < 0 then '-' else '+') :: clockText n (n % 60 != 0)

/-- An instant as answers give it. -/
def Instant.text (i : Instant) : String := String.ofList (i.reading ++ offsetText 0)

/-- A stamp as documents give it. -/
def Stamp.documentText (s : Stamp) : String :=
  String.ofList <| s.reading.reading ++ match s.offset with
    | none => []
    | some 0 => ['Z']
    | some offset => offsetText offset

/-! ### Reading -/

/-- Exactly `width` digits. -/
def number (width : Nat) (cs : List Char) : Option (Nat × List Char) :=
  let ds := cs.take width
  if ds.length = width ∧ ds.all Text.isDigit then
    some (Text.ofDigits ds, cs.drop width)
  else none

def expect (c : Char) : List Char → Option (List Char)
  | d :: rest => if c = d then some rest else none
  | [] => none

def readDate (cs : List Char) : Option (Date × List Char) := do
  let (year, cs) ← number 4 cs
  let cs ← expect '-' cs
  let (month, cs) ← number 2 cs
  let cs ← expect '-' cs
  let (day, cs) ← number 2 cs
  let date : Date := ⟨year, month, day⟩
  if date.isValid then some (date, cs) else none

/-- The digits after a point or comma as microseconds; further digits are dropped. -/
def readFraction : List Char → Option (Nat × List Char)
  | '.' :: cs | ',' :: cs =>
    let ds := cs.takeWhile Text.isDigit
    if ds.isEmpty then none
    else do
      let (micros, _) ← number 6 (ds.take 6 ++ List.replicate (6 - ds.length) '0')
      some (micros, cs.dropWhile Text.isDigit)
  | cs => some (0, cs)

def readSeconds : List Char → Option (Nat × List Char)
  | ':' :: cs => do
    let (second, cs) ← number 2 cs
    let (micros, cs) ← readFraction cs
    if second < 60 then some (second * 1000000 + micros, cs) else none
  | cs => some (0, cs)

def readClock (cs : List Char) : Option (Nat × List Char) := do
  let (hour, cs) ← number 2 cs
  let cs ← expect ':' cs
  let (minute, cs) ← number 2 cs
  let (micros, cs) ← readSeconds cs
  if hour < 24 ∧ minute < 60 then some ((hour * 60 + minute) * 60000000 + micros, cs) else none

def readOffset (withSeconds : Bool) (cs : List Char) : Option Nat := do
  let (hour, cs) ← number 2 cs
  let cs := match cs with
    | ':' :: cs => cs
    | cs => cs
  let (minute, cs) ← number 2 cs
  let (second, cs) ← match cs with
    | ':' :: rest => if withSeconds then number 2 rest else none
    | cs => some (0, cs)
  if cs.isEmpty ∧ hour < 24 ∧ minute < 60 ∧ second < 60 then
    some ((hour * 60 + minute) * 60 + second)
  else none

/-- The end of a stamp: nothing, the letter Z, or a signed offset. -/
def readZone (withSeconds : Bool) : List Char → Option (Option Int)
  | [] => some none
  | ['Z'] => some (some 0)
  | ['z'] => some (some 0)
  | '+' :: cs => (readOffset withSeconds cs).map fun n => some (n : Int)
  | '-' :: cs | '\u2212' :: cs => (readOffset withSeconds cs).map fun n => some (-(n : Int))
  | _ => none

def readStamp (separators : List Char) (withSeconds : Bool) (cs : List Char) : Option Stamp := do
  let (date, cs) ← readDate cs
  match cs with
  | [] => none
  | c :: cs =>
    if separators.contains c then
      let (micros, cs) ← readClock cs
      let offset ← readZone withSeconds cs
      some ⟨Instant.ofReading date micros, offset⟩
    else none

/-- A time as callers write it. -/
def Stamp.ofText? (s : String) : Option Stamp :=
  (readStamp ['T', ' '] true s.toList).filter (·.reading.inRange)

/-! ### Counts

A count is of the seconds since the start of 1970 in UTC, or of the milliseconds when it is too
large for seconds to be meant. What it holds beyond microseconds is rounded to the nearest of them,
upwards from half way. -/

/-- Seconds from the start of year 1 to the start of 1970. -/
def unixEpoch : Int := 62135596800

def mostSeconds : Nat := 20000000000

def Stamp.ofMicros (micros : Int) : Stamp := .utc ⟨unixEpoch * Instant.microsPerSecond + micros⟩

def Stamp.ofInteger (n : Int) : Stamp :=
  .ofMicros (if n.natAbs ≤ mostSeconds then n * 1000000 else n * 1000)

def Stamp.ofReal? (x : Decimal.Binary64) : Option Stamp := do
  let (num, den) ← x.ratio?
  if num.natAbs ≤ mostSeconds * den then
    let (whole, millionths) ← x.floorAndMillionths?
    some (.ofMicros (whole * 1000000 + millionths))
  else some (.ofMicros ((2000 * num + den) / (2 * den)))

/-- A count written out after its sign: digits alone, or a real number with a point. -/
def readUnsignedCount (negative : Bool) (cs : List Char) : Option Stamp :=
  if cs.isEmpty then none
  else if cs.all Text.isDigit then
    let n : Int := Text.ofDigits cs
    some (.ofInteger (if negative then -n else n))
  else (Decimal.readPointed negative cs).bind Stamp.ofReal?

def readCount : List Char → Option Stamp
  | '-' :: cs => readUnsignedCount true cs
  | '+' :: cs => readUnsignedCount false cs
  | cs => readUnsignedCount false cs

/-- The start of year 0, the earliest time that can be written. -/
def earliest : Instant := .ofReading ⟨0, 1, 1⟩ 0

/-- A time as documents write it, in years of four digits. -/
def Stamp.ofDocument? (s : String) : Option Stamp :=
  match readStamp ['T', 't', ' ', '_'] false s.toList with
  | some stamp => some stamp
  | none =>
    match readDate s.toList with
    | some (date, []) => some ⟨Instant.ofReading date 0, none⟩
    | _ => (readCount s.toList).filter fun stamp =>
      decide (earliest ≤ stamp.reading) && decide (stamp.reading.micros < Instant.limit)

end Entitlements.Time
