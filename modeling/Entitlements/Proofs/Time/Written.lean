import Entitlements.Proofs.Time.Calendar
import Entitlements.Time.Text

/-!
Written times are read back. Each reader takes from the front of a text what the matching writer
puts there and leaves the rest, so the statements all have one form: reading what was written,
followed by anything, gives the value and whatever followed. Only where the number of digits is
open, after the point, does it matter what follows.

Documents read offsets to the minute, so a stamp can be written and read back when its reading lies
in the range of instants and its offset, if it has one, is a whole number of minutes short of a day.
-/

namespace Entitlements

open Time

/-! ### Digits -/

namespace Text

theorem length_padded_eq {width n : Nat} (hw : 0 < width) (h : n < Decimal.tenTo width) :
    (padded width n).length = width := by
  have hlen := (Nat.length_toDigits_le_iff (by omega : 1 < 10) hw).2 h
  simp only [padded, List.length_append, List.length_replicate]
  omega

end Text

namespace Time

open Text

theorem number_padded {width n : Nat} (hw : 0 < width) (h : n < Decimal.tenTo width)
    (rest : List Char) :
    number width (padded width n ++ rest) = some (n, rest) := by
  have hlen := length_padded_eq hw h
  have hall : (padded width n).all isDigit = true :=
    List.all_eq_true.2 fun c hc => isDigit_of_mem_padded hc
  simp only [number, List.take_left' hlen, List.drop_left' hlen, hlen, hall, ofDigits_padded]
  rfl

theorem number_two {n : Nat} (h : n < 100) (rest : List Char) :
    number 2 (padded 2 n ++ rest) = some (n, rest) :=
  number_padded (by omega) h rest

theorem number_four {n : Nat} (h : n < 10000) (rest : List Char) :
    number 4 (padded 4 n ++ rest) = some (n, rest) :=
  number_padded (by omega) h rest

theorem number_six {n : Nat} (h : n < 1000000) (rest : List Char) :
    number 6 (padded 6 n ++ rest) = some (n, rest) :=
  number_padded (by omega) h rest

/-! ### Dates -/

theorem readDate_text {d : Date} (hv : d.isValid = true) (hy : d.year < 10000)
    (hm : d.month < 100) (hd : d.day < 100) (rest : List Char) :
    readDate (d.text ++ rest) = some (d, rest) := by
  simp only [readDate, Date.text, List.append_assoc, List.cons_append,
    number_four hy, number_two hm, number_two hd, expect,
    Option.bind_eq_bind, Option.bind_some, hv, ↓reduceIte]

/-! ### Clock times -/

/-- Does a text go on with no digit, point or comma? -/
def EndsNumber (rest : List Char) : Prop :=
  ∀ c, rest.head? = some c → isDigit c = false ∧ c ≠ '.' ∧ c ≠ ','

theorem readFraction_of_endsNumber {rest : List Char} (h : EndsNumber rest) :
    readFraction rest = some (0, rest) := by
  rcases rest with _ | ⟨c, rest⟩
  · rfl
  · obtain ⟨-, hpoint, hcomma⟩ := h c rfl
    unfold readFraction
    split
    · next heq => simp_all
    · next heq => simp_all
    · rfl

theorem takeWhile_padded {width n : Nat} {rest : List Char} (h : EndsNumber rest) :
    (padded width n ++ rest).takeWhile isDigit = padded width n := by
  rw [List.takeWhile_append_of_pos fun c hc => isDigit_of_mem_padded hc]
  rcases rest with _ | ⟨c, rest⟩
  · simp
  · simp [(h c rfl).1]

theorem dropWhile_padded {width n : Nat} {rest : List Char} (h : EndsNumber rest) :
    (padded width n ++ rest).dropWhile isDigit = rest := by
  rw [List.dropWhile_append_of_pos fun c hc => isDigit_of_mem_padded hc]
  rcases rest with _ | ⟨c, rest⟩
  · rfl
  · simp [(h c rfl).1]

theorem readFraction_point {fraction : Nat} (hf : fraction < 1000000) {rest : List Char}
    (h : EndsNumber rest) :
    readFraction ('.' :: (padded 6 fraction ++ rest)) = some (fraction, rest) := by
  have hlen : (padded 6 fraction).length = 6 := length_padded_eq (by omega) hf
  have hne : (padded 6 fraction).isEmpty = false := by
    rw [List.isEmpty_eq_false_iff, ← List.length_pos_iff]
    omega
  have hsix : (padded 6 fraction).take 6 ++ List.replicate (6 - (padded 6 fraction).length) '0' =
      padded 6 fraction ++ [] := by
    simp [hlen, List.take_of_length_le]
  simp only [readFraction, takeWhile_padded h, dropWhile_padded h, hne, hsix,
    number_six hf]
  rfl

theorem readClock_clockText {seconds fraction : Nat} (hs : seconds < 86400)
    (hf : fraction < 1000000) {rest : List Char} (h : EndsNumber rest) :
    readClock (clockText seconds true ++
        ((if fraction = 0 then [] else '.' :: padded 6 fraction) ++ rest)) =
      some (seconds * 1000000 + fraction, rest) := by
  have hfraction : readFraction ((if fraction = 0 then [] else '.' :: padded 6 fraction) ++ rest) =
      some (fraction, rest) := by
    split
    · next hzero =>
      rw [hzero]
      exact readFraction_of_endsNumber h
    · exact readFraction_point hf h
  have hh : seconds / 3600 < 100 := by omega
  have hm : seconds / 60 % 60 < 100 := by omega
  have hsec : seconds % 60 < 100 := by omega
  simp only [readClock, clockText, List.append_assoc, List.cons_append, ↓reduceIte,
    number_two hh, number_two hm, expect, Option.bind_eq_bind,
    Option.bind_some, readSeconds, number_two hsec, hfraction]
  have hsum : (seconds / 3600 * 60 + seconds / 60 % 60) * 60000000 +
      (seconds % 60 * 1000000 + fraction) = seconds * 1000000 + fraction := by omega
  rw [if_pos (by omega), Option.bind_some, if_pos (by omega), hsum]

/-! ### Offsets -/

/-- Can documents hold this offset? -/
def IsOffset (offset : Int) : Prop := offset.natAbs < 86400 ∧ offset.natAbs % 60 = 0

theorem readOffset_clockText {n : Nat} (h : n < 86400) (hmin : n % 60 = 0) :
    readOffset false (clockText n false) = some n := by
  have hh : n / 3600 < 100 := by omega
  have hm : n / 60 % 60 < 100 := by omega
  have hlast : number 2 (padded 2 (n / 60 % 60)) = some (n / 60 % 60, []) := by
    simpa using number_two hm []
  simp only [readOffset, clockText, Bool.false_eq_true, ↓reduceIte, List.append_nil,
    number_two hh, Option.bind_eq_bind, Option.bind_some, hlast]
  rw [if_pos (by simp; omega)]
  congr 1
  omega

theorem readZone_offsetText {offset : Int} (h : IsOffset offset) :
    readZone false (offsetText offset) = some (some offset) := by
  obtain ⟨hlt, hmin⟩ := h
  have hsecs : (offset.natAbs % 60 != 0) = false := by simp [hmin]
  rw [offsetText, hsecs]
  split
  · next hneg =>
    have habs : -(offset.natAbs : Int) = offset := by omega
    rw [readZone, readOffset_clockText hlt hmin]
    simp only [Option.bind_eq_bind, Option.bind_some, Option.pure_def, Option.map_some, habs]
  · next hpos =>
    have habs : (offset.natAbs : Int) = offset := by omega
    rw [readZone, readOffset_clockText hlt hmin]
    simp only [Option.bind_eq_bind, Option.bind_some, Option.pure_def, Option.map_some, habs]

/-- The end of a stamp in a document. -/
def zoneText : Option Int → List Char
  | none => []
  | some 0 => ['Z']
  | some offset => offsetText offset

theorem readZone_zoneText {offset? : Option Int} (h : ∀ offset, offset? = some offset →
    IsOffset offset) : readZone false (zoneText offset?) = some offset? := by
  unfold zoneText
  split
  · rfl
  · rfl
  · exact readZone_offsetText (h _ rfl)

theorem endsNumber_zoneText (offset? : Option Int) : EndsNumber (zoneText offset?) := by
  intro c hc
  unfold zoneText at hc
  split at hc
  · cases hc
  · cases hc
    decide
  · unfold offsetText at hc
    split at hc <;> cases hc <;> decide

/-! ### Stamps -/

/-- Can documents hold this stamp? -/
structure Stamp.IsWritable (s : Stamp) : Prop where
  inRange : s.reading.inRange = true
  offset : ∀ offset, s.offset = some offset → IsOffset offset

theorem Stamp.documentText_toList (s : Stamp) :
    s.documentText.toList = s.reading.reading ++ zoneText s.offset := by
  simp only [documentText, String.toList_ofList]
  rfl

theorem readStamp_documentText {s : Stamp} (h : s.IsWritable) :
    readStamp ['T', 't', ' ', '_'] false s.documentText.toList = some s := by
  obtain ⟨hlow, hhigh⟩ : 0 ≤ s.reading.micros ∧ s.reading.micros < Instant.limit := by
    simpa [Instant.inRange] using h.inRange
  simp only [Instant.limit, Instant.microsPerDay, Instant.microsPerSecond, dayCount] at hhigh
  obtain ⟨m, hm⟩ : ∃ m, m = s.reading.micros.toNat := ⟨_, rfl⟩
  have hday : m / 86400000000 < dayCount := by
    unfold dayCount
    omega
  obtain ⟨hvalid, hdays⟩ := ofDays_spec hday
  obtain ⟨hy, hmo, hd⟩ := ofDays_digits hday
  have hseconds : m % 86400000000 / 1000000 < 86400 := by omega
  have hfraction : m % 86400000000 % 1000000 < 1000000 := by omega
  have hclock := readClock_clockText hseconds hfraction (endsNumber_zoneText s.offset)
  rw [Stamp.documentText_toList, Instant.reading, ← hm]
  simp only [readStamp, List.append_assoc, List.cons_append, readDate_text hvalid hy hmo hd,
    Option.bind_eq_bind, Option.bind_some, hclock, readZone_zoneText h.offset]
  simp only [List.contains_cons, BEq.rfl, Bool.true_or, ↓reduceIte]
  have hmicros : Instant.ofReading (Date.ofDays (m / 86400000000))
      (m % 86400000000 / 1000000 * 1000000 + m % 86400000000 % 1000000) = s.reading := by
    rcases hs : s.reading with ⟨micros⟩
    rw [hs] at hlow hm
    simp only at hlow hm
    simp only [Instant.ofReading, hdays, Instant.microsPerDay, Instant.microsPerSecond,
      Instant.mk.injEq]
    omega
  rw [hmicros]

/-- A document that holds a stamp gives the stamp back. -/
theorem Stamp.ofDocument?_documentText {s : Stamp} (h : s.IsWritable) :
    Stamp.ofDocument? s.documentText = some s := by
  rw [ofDocument?, readStamp_documentText h]

theorem Stamp.isWritable_utc {i : Instant} (h : i.inRange = true) : (Stamp.utc i).IsWritable where
  inRange := h
  offset := by
    rintro offset hoffset
    cases hoffset
    exact ⟨by decide, by decide⟩

end Time

end Entitlements
