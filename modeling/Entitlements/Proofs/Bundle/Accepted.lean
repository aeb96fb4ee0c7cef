import Entitlements.Proofs.Bundle.Content

/-!
Whatever document a bundle is read from, the bundle can be written as a document, and is read back
from that. What a reader accepts may be spelled in many ways: with plain field names, with counts of
seconds for times, with fields it does not know. What it makes of them is always something that a
writer has a spelling for: maps have different keys, times lie in the range of instants, and their
offsets are whole minutes.
-/

namespace Entitlements

open Schema Time

/-! ### Times -/

theorem Time.isOffset_zero : IsOffset 0 := ⟨by decide, by decide⟩

/-- Documents read offsets to the minute. -/
theorem Time.whole_minutes_of_readOffset {cs : List Char} {n : Nat}
    (h : readOffset false cs = some n) : n < 86400 ∧ n % 60 = 0 := by
  obtain ⟨⟨hour, afterHour⟩, -, h⟩ := Option.bind_eq_some_iff.1 h
  obtain ⟨⟨minute, afterMinute⟩, -, h⟩ := Option.bind_eq_some_iff.1 h
  have hbounds : ∃ rest : List Char, (if rest.isEmpty ∧ hour < 24 ∧ minute < 60 ∧ 0 < 60 then
      some ((hour * 60 + minute) * 60 + 0) else none) = some n := by
    simp only at h
    split at h
    · cases h
    · exact ⟨_, h⟩
  obtain ⟨rest, hn⟩ := hbounds
  split at hn
  · next hlimits =>
    cases hn
    omega
  · cases hn

theorem Time.isOffset_of_readZone {cs : List Char} {offset : Int}
    (h : readZone false cs = some (some offset)) : IsOffset offset := by
  have hsigned (sign : Int) (hsign : sign.natAbs = 1) {rest : List Char}
      (hread : ((readOffset false rest).bind fun n => some (some (sign * n))) =
        some (some offset)) : IsOffset offset := by
    obtain ⟨n, hn, hoffset⟩ := Option.bind_eq_some_iff.1 hread
    have hwhole := whole_minutes_of_readOffset hn
    cases hoffset
    rw [IsOffset, Int.natAbs_mul, hsign]
    omega
  unfold readZone at h
  split at h
  · cases h
  · cases h
    exact isOffset_zero
  · cases h
    exact isOffset_zero
  · exact hsigned 1 rfl (by simpa using h)
  · exact hsigned (-1) rfl (by simpa using h)
  · exact hsigned (-1) rfl (by simpa using h)
  · cases h

namespace Time.Stamp

theorem isOffset_of_readStamp {separators cs : List Char} {s : Stamp}
    (h : readStamp separators false cs = some s) {offset : Int} (ho : s.offset = some offset) :
    IsOffset offset := by
  obtain ⟨⟨date, afterDate⟩, -, h⟩ := Option.bind_eq_some_iff.1 h
  rcases afterDate with _ | ⟨c, afterSeparator⟩
  · cases h
  simp only at h
  split at h
  · obtain ⟨⟨micros, afterClock⟩, -, h⟩ := Option.bind_eq_some_iff.1 h
    obtain ⟨zone, hzone, h⟩ := Option.bind_eq_some_iff.1 h
    cases h
    have hoffset : zone = some offset := ho
    rw [hoffset] at hzone
    exact isOffset_of_readZone hzone
  · cases h

theorem offset_of_ofReal? {x : Decimal.Binary64} {s : Stamp} (h : ofReal? x = some s) :
    s.offset = some 0 := by
  obtain ⟨⟨num, den⟩, -, h⟩ := Option.bind_eq_some_iff.1 h
  simp only at h
  split at h
  · obtain ⟨⟨whole, millionths⟩, -, h⟩ := Option.bind_eq_some_iff.1 h
    cases h
    rfl
  · cases h
    rfl

theorem offset_of_readUnsignedCount {negative : Bool} {cs : List Char} {s : Stamp}
    (h : readUnsignedCount negative cs = some s) : s.offset = some 0 := by
  unfold readUnsignedCount at h
  split at h
  · cases h
  split at h
  · cases h
    rfl
  · obtain ⟨x, -, hx⟩ := Option.bind_eq_some_iff.1 h
    exact offset_of_ofReal? hx

theorem offset_of_readCount {cs : List Char} {s : Stamp} (h : readCount cs = some s) :
    s.offset = some 0 := by
  unfold readCount at h
  split at h <;> exact offset_of_readUnsignedCount h

/-- A text is read as a stamp, as a bare date, which has no offset, or as a count, which is in
UTC. -/
theorem isOffset_of_ofDocument? {text : String} {s : Stamp} (h : ofDocument? text = some s)
    {offset : Int} (ho : s.offset = some offset) : IsOffset offset := by
  unfold ofDocument? at h
  split at h
  · next stamp hstamp =>
    cases h
    exact isOffset_of_readStamp hstamp ho
  split at h
  · cases h
    cases ho
  · have hcount := offset_of_readCount (Option.filter_eq_some_iff.1 h).1
    rw [ho] at hcount
    cases hcount
    exact isOffset_zero

end Time.Stamp

/-- Whatever time a document gives, a document can hold it. -/
theorem Schema.isWritable_of_time {x : Json} {s : Stamp} (h : time x = .valid s) :
    s.IsWritable := by
  have hkept {t : Stamp} (ht : timeInRange t = .valid s) : s = t ∧ s.reading.inRange = true := by
    unfold timeInRange at ht
    split at ht
    · next hrange =>
      cases ht
      exact ⟨rfl, hrange⟩
    · cases ht
  have hcount {t : Stamp} (ht : timeInRange t = .valid s) (hzero : t.offset = some 0) :
      s.IsWritable := by
    obtain ⟨rfl, hrange⟩ := hkept ht
    refine ⟨hrange, fun offset ho => ?_⟩
    rw [hzero] at ho
    cases ho
    exact isOffset_zero
  unfold time at h
  split at h
  · split at h
    · next stamp hstamp =>
      obtain ⟨rfl, hrange⟩ := hkept h
      exact ⟨hrange, fun offset ho => Stamp.isOffset_of_ofDocument? hstamp ho⟩
    · cases h
  · split at h
    · exact hcount h rfl
    · cases h
  · split at h
    · next stamp hstamp => exact hcount h (Stamp.offset_of_ofReal? hstamp)
    · cases h
  · cases h

/-! ### Bundles -/

theorem Metadata.isWritable_of_read {x : Json} {m : Metadata} (h : read x = .valid m) :
    m.generatedAt.IsWritable ∧ m.expiresAt.IsWritable := by
  unfold read Schema.model at h
  split at h
  · obtain ⟨_, _, hpolicies, -, rfl⟩ := Checked.seq_eq_valid_iff.1 h
    obtain ⟨_, _, hroles, -, rfl⟩ := Checked.seq_eq_valid_iff.1 hpolicies
    obtain ⟨_, _, hscope, -, rfl⟩ := Checked.seq_eq_valid_iff.1 hroles
    obtain ⟨_, _, hseconds, -, rfl⟩ := Checked.seq_eq_valid_iff.1 hscope
    obtain ⟨_, _, hexpiry, -, rfl⟩ := Checked.seq_eq_valid_iff.1 hseconds
    obtain ⟨_, expiresAt, hgenerated, he, rfl⟩ := Checked.seq_eq_valid_iff.1 hexpiry
    obtain ⟨generatedAt, hg, rfl⟩ := Checked.map_eq_valid_iff.1 hgenerated
    obtain ⟨y, hy⟩ := Schema.required_eq_valid hg
    obtain ⟨z, hz⟩ := Schema.required_eq_valid he
    exact ⟨Schema.isWritable_of_time hy, Schema.isWritable_of_time hz⟩
  · cases h

theorem Bundle.isWritable_of_read {x : Json} {b : Bundle} (h : read x = .valid b) :
    b.IsWritable := by
  have hkeys := hasDistinctKeys_of_read h
  obtain ⟨-, -, y, hy⟩ := members_of_read h
  obtain ⟨hgenerated, hexpires⟩ := Metadata.isWritable_of_read hy
  exact ⟨hkeys.domains, hkeys.features, hgenerated, hexpires⟩

/-- A bundle that was read is read back from its own document. -/
theorem Bundle.read_toJson_of_read {x : Json} {b : Bundle} (h : read x = .valid b) :
    read b.toJson = .valid b :=
  read_toJson (isWritable_of_read h)

end Entitlements
