import Entitlements.Time.Calendar

/-!
Points in time. An instant is a count of microseconds from the start of year 1 in UTC, and the only
ones that exist lie before the end of year 9999: arithmetic that leaves this range has no result.

A stamp is what a caller writes: the reading of a wall clock with its offset from UTC, or with none.
A stamp without an offset means UTC. Stored times keep the reading and drop the offset, which is
why the two halves of a stamp are kept apart until somebody asks for the instant.
-/

namespace Entitlements.Time

/-! ### Instants -/

structure Instant where
  micros : Int
  deriving DecidableEq, Repr

namespace Instant

instance : LE Instant := ⟨fun a b => a.micros ≤ b.micros⟩

instance : LT Instant := ⟨fun a b => a.micros < b.micros⟩

instance (a b : Instant) : Decidable (a ≤ b) := inferInstanceAs (Decidable (a.micros ≤ b.micros))

instance (a b : Instant) : Decidable (a < b) := inferInstanceAs (Decidable (a.micros < b.micros))

def microsPerSecond : Int := 1000000

def microsPerDay : Int := 86400 * microsPerSecond

def limit : Int := dayCount * microsPerDay

def inRange (i : Instant) : Bool := decide (0 ≤ i.micros) && decide (i.micros < limit)

def add? (i : Instant) (micros : Int) : Option Instant :=
  let j : Instant := ⟨i.micros + micros⟩
  if j.inRange then some j else none

def addSeconds? (i : Instant) (seconds : Int) : Option Instant := i.add? (seconds * microsPerSecond)

def addDays? (i : Instant) (days : Int) : Option Instant := i.add? (days * microsPerDay)

def ofReading (date : Date) (micros : Nat) : Instant := ⟨date.toDays * microsPerDay + micros⟩

theorem add?_inRange {i j : Instant} {micros : Int} (h : i.add? micros = some j) :
    j.inRange = true := by
  simp only [add?] at h
  split at h
  · next hr => simp_all
  · simp at h

theorem not_le {a b : Instant} : ¬a ≤ b ↔ b < a := Int.not_le

theorem not_lt {a b : Instant} : ¬a < b ↔ b ≤ a := Int.not_lt

end Instant

/-! ### Stamps -/

/-- The reading of a clock, with its offset from UTC in seconds if it is known. -/
structure Stamp where
  reading : Instant
  offset : Option Int
  deriving DecidableEq, Repr

namespace Stamp

def utc (i : Instant) : Stamp := ⟨i, some 0⟩

/-- The instant meant, unless it falls outside the range of instants. -/
def instant? (s : Stamp) : Option Instant :=
  s.reading.add? (-(s.offset.getD 0) * Instant.microsPerSecond)

end Stamp

end Entitlements.Time
