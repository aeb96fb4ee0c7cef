import Entitlements.Proofs.Permission.DomainSpelling

/-!
The three shapes of a permission text never meet. A text is a domain key with a colon, a domain key
in the older spelling, or three segments that are words or wildcards, and it is at most one of
these, so the order in which the shapes are tried does not matter.

Counting dots is not enough for this, for a key with a colon also has three dotted pieces. What
keeps it apart from a pattern is the alphabet: its last piece holds the colon, which is in no word
and no wildcard. The older spelling has four pieces. A line break at the end, which every reader
tolerates, is in none of the separators and changes none of this.
-/

namespace Entitlements

open Text

/-- What is dropped from the end of a text holds nothing but a line break. -/
theorem Text.exists_append_dropFinalBreak {c : Char} (hc : c ≠ '\n') (cs : List Char) :
    ∃ rest, c ∉ rest ∧ cs = dropFinalBreak cs ++ rest := by
  rcases DomainKey.eq_or_eq_append_break cs with h | h
  · exact ⟨[], List.not_mem_nil, by rw [List.append_nil]; exact h⟩
  · exact ⟨['\n'], by simpa using hc, h⟩

/-! ### Segments of patterns -/

/-- A segment of a pattern holds word characters, wildcards and line breaks, and nothing else. -/
theorem Segment.not_mem_of_isPattern {s : String} {c : Char} (h : isPattern s = true)
    (hword : isWordChar c = false) (hwildcard : c ≠ '*') (hbreak : c ≠ '\n') : c ∉ s.toList := by
  have hdrop : c ∉ dropFinalBreak s.toList := by
    simp only [isPattern, Bool.or_eq_true, beq_iff_eq] at h
    rcases h with h | h
    · rw [h]
      simpa using hwildcard
    · exact not_mem_of_isWord hword h
  obtain ⟨rest, hrest, hs⟩ := exists_append_dropFinalBreak hbreak s.toList
  rw [hs, List.mem_append, not_or]
  exact ⟨hdrop, hrest⟩

/-- Is a text three segments, each a word or the wildcard? -/
def FunctionPermission.IsPatternText (s : String) : Prop :=
  ∃ p, parse? s = some p ∧ p.isPattern = true

/-! ### A key is no pattern -/

namespace DomainKey

variable {k : DomainKey} {s : String}

/-- A text that is read as a key with a colon has three dotted pieces, the last with the colon. -/
theorem parse?_of_decode? (h : decode? s = some k) :
    ∃ last, FunctionPermission.parse? s = some ⟨k.domain, k.equipment, last⟩ ∧
      ':' ∈ last.toList := by
  obtain ⟨hk, hdrop⟩ := drop_of_decode? h
  obtain ⟨-, -, hl, ha⟩ := isValid_iff.1 hk
  obtain ⟨rest, hrest, hs⟩ := exists_append_dropFinalBreak (c := '.') (by decide) s.toList
  have hlast : '.' ∉ k.location.toList ++ ':' :: (k.action.toList ++ rest) := by
    simp [Segment.not_mem_of_isWord Segment.not_isWordChar_dot hl,
      Segment.not_mem_of_isWord Segment.not_isWordChar_dot ha, hrest]
  refine ⟨String.ofList (k.location.toList ++ ':' :: (k.action.toList ++ rest)), ?_, by simp⟩
  rw [FunctionPermission.parse?, hs, hdrop, toList_encode]
  simp only [List.append_assoc, List.cons_append]
  rw [split_two_dots hk, split_of_not_mem hlast]
  simp

theorem not_isPatternText_of_decode? (h : decode? s = some k) :
    ¬FunctionPermission.IsPatternText s := by
  rintro ⟨p, hp, hpattern⟩
  obtain ⟨last, hlast, hcolon⟩ := parse?_of_decode? h
  obtain rfl : ⟨k.domain, k.equipment, last⟩ = p := Option.some.inj (hlast.symm.trans hp)
  simp only [FunctionPermission.isPattern, Bool.and_eq_true] at hpattern
  exact Segment.not_mem_of_isPattern hpattern.2 Segment.not_isWordChar_colon (by decide)
    (by decide) hcolon

/-- A text in the older spelling has four dotted pieces. -/
theorem parse?_of_decodeDotted? (h : decodeDotted? s = some k) :
    FunctionPermission.parse? s = none := by
  obtain ⟨hk, hdrop⟩ := drop_of_decodeDotted? h
  obtain ⟨-, -, hl, ha⟩ := isValid_iff.1 hk
  obtain ⟨rest, hrest, hs⟩ := exists_append_dropFinalBreak (c := '.') (by decide) s.toList
  have hlast : '.' ∉ k.action.toList ++ rest := by
    simp [Segment.not_mem_of_isWord Segment.not_isWordChar_dot ha, hrest]
  rw [FunctionPermission.parse?, hs, hdrop, toList_encodeDotted]
  simp only [List.append_assoc, List.cons_append]
  rw [split_two_dots hk, split_append (Segment.not_mem_of_isWord Segment.not_isWordChar_dot hl),
    split_of_not_mem hlast]

theorem not_isPatternText_of_decodeDotted? (h : decodeDotted? s = some k) :
    ¬FunctionPermission.IsPatternText s := by
  rintro ⟨p, hp, -⟩
  rw [parse?_of_decodeDotted? h] at hp
  cases hp

/-! ### Spellings told apart -/

theorem decode?_encode (h : k.IsValid) : decode? k.encode = some k :=
  decode?_eq_some_iff.2 ⟨h, .inl rfl⟩

theorem decodeDotted?_encodeDotted (h : k.IsValid) : decodeDotted? k.encodeDotted = some k :=
  decodeDotted?_eq_some_iff.2 ⟨h, .inl rfl⟩

theorem decodeDotted?_eq_none_of_decode? (h : decode? s = some k) : decodeDotted? s = none := by
  rcases hdotted : decodeDotted? s with _ | k'
  · rfl
  · rw [decode?_eq_none_of_decodeDotted? hdotted] at h
    cases h

theorem encode_injective {k' : DomainKey} (h : k.IsValid) (h' : k'.IsValid)
    (heq : k.encode = k'.encode) : k = k' := by
  have hdecode := decode?_encode h
  rw [heq, decode?_encode h'] at hdecode
  exact (Option.some.inj hdecode).symm

theorem encodeDotted_injective {k' : DomainKey} (h : k.IsValid) (h' : k'.IsValid)
    (heq : k.encodeDotted = k'.encodeDotted) : k = k' := by
  have hdecode := decodeDotted?_encodeDotted h
  rw [heq, decodeDotted?_encodeDotted h'] at hdecode
  exact (Option.some.inj hdecode).symm

end DomainKey

/-! ### Shapes -/

namespace PermissionShape

/-- Which shape a text has, each told from its own test alone. -/
inductive Fits (s : String) : PermissionShape → Prop
  | domain {k : DomainKey} (h : DomainKey.decode? s = some k) : Fits s .domain
  | dottedDomain {k : DomainKey} (h : DomainKey.decodeDotted? s = some k) : Fits s .dottedDomain
  | function (h : FunctionPermission.IsPatternText s) : Fits s .function
  | unknown (hdomain : DomainKey.decode? s = none) (hdotted : DomainKey.decodeDotted? s = none)
      (hfunction : ¬FunctionPermission.IsPatternText s) : Fits s .unknown

variable {s : String} {shape shape' : PermissionShape}

/-- The shape that the tests come to one after the other passes its own. -/
theorem fits_of (s : String) : Fits s (of s) := by
  unfold of
  rcases hdomain : DomainKey.decode? s with _ | k
  · rcases hdotted : DomainKey.decodeDotted? s with _ | k
    · rcases hparse : FunctionPermission.parse? s with _ | p
      · refine .unknown hdomain hdotted ?_
        rintro ⟨p, hp, -⟩
        rw [hparse] at hp
        cases hp
      · by_cases hpattern : p.isPattern = true
        · simp only [Option.isSome_none, Bool.false_eq_true, ↓reduceIte, hpattern]
          exact .function ⟨p, hparse, hpattern⟩
        · simp only [Option.isSome_none, Bool.false_eq_true, ↓reduceIte, hpattern]
          refine .unknown hdomain hdotted ?_
          rintro ⟨p', hp', hpattern'⟩
          obtain rfl : p = p' := Option.some.inj (hparse.symm.trans hp')
          exact hpattern hpattern'
    · exact .dottedDomain hdotted
  · exact .domain hdomain

/-- No text has two shapes. -/
theorem Fits.unique (h : Fits s shape) (h' : Fits s shape') : shape = shape' := by
  cases h with
  | domain h =>
    cases h' with
    | domain _ => rfl
    | dottedDomain h' => rw [DomainKey.decode?_eq_none_of_decodeDotted? h'] at h; cases h
    | function h' => exact absurd h' (DomainKey.not_isPatternText_of_decode? h)
    | unknown h' => rw [h'] at h; cases h
  | dottedDomain h =>
    cases h' with
    | domain h' => rw [DomainKey.decode?_eq_none_of_decodeDotted? h] at h'; cases h'
    | dottedDomain _ => rfl
    | function h' => exact absurd h' (DomainKey.not_isPatternText_of_decodeDotted? h)
    | unknown _ h' => rw [h'] at h; cases h
  | function h =>
    cases h' with
    | domain h' => exact absurd h (DomainKey.not_isPatternText_of_decode? h')
    | dottedDomain h' => exact absurd h (DomainKey.not_isPatternText_of_decodeDotted? h')
    | function _ => rfl
    | unknown _ _ h' => exact absurd h h'
  | unknown hdomain hdotted hfunction =>
    cases h' with
    | domain h' => rw [hdomain] at h'; cases h'
    | dottedDomain h' => rw [hdotted] at h'; cases h'
    | function h' => exact absurd h' hfunction
    | unknown _ _ _ => rfl

/-- The order of the tests is immaterial. -/
theorem of_eq_iff : of s = shape ↔ Fits s shape :=
  ⟨fun h => h ▸ fits_of s, fun h => (fits_of s).unique h⟩

/-- Keys of words are read back from either spelling by its own reader and by no other, no two of
them are spelled alike, and of all texts whatsoever none has two shapes and none is read as a key
with a part that is no word. -/
theorem spellings_are_told_apart :
    (∀ k : DomainKey, k.IsValid →
      (DomainKey.decode? k.encode = some k ∧ DomainKey.decodeDotted? k.encode = none ∧
        ¬FunctionPermission.IsPatternText k.encode) ∧
      (DomainKey.decodeDotted? k.encodeDotted = some k ∧ DomainKey.decode? k.encodeDotted = none ∧
        ¬FunctionPermission.IsPatternText k.encodeDotted) ∧
      ∀ k' : DomainKey, k'.IsValid → k ≠ k' →
        k.encode ≠ k'.encode ∧ k.encodeDotted ≠ k'.encodeDotted) ∧
    (∀ s : String,
      ¬((DomainKey.decode? s).isSome = true ∧ (DomainKey.decodeDotted? s).isSome = true) ∧
      ¬((DomainKey.decode? s).isSome = true ∧ FunctionPermission.IsPatternText s) ∧
      ¬((DomainKey.decodeDotted? s).isSome = true ∧ FunctionPermission.IsPatternText s) ∧
      ∀ shape, of s = shape ↔ Fits s shape) ∧
    ∀ (s : String) (k : DomainKey),
      DomainKey.decode? s = some k ∨ DomainKey.decodeDotted? s = some k →
        ∀ part ∈ k.parts, Segment.isValid part = true := by
  refine ⟨fun k hk => ⟨?_, ?_, fun k' hk' hne => ⟨?_, ?_⟩⟩, fun s => ⟨?_, ?_, ?_, ?_⟩, ?_⟩
  · have hdecode := DomainKey.decode?_encode hk
    exact ⟨hdecode, DomainKey.decodeDotted?_eq_none_of_decode? hdecode,
      DomainKey.not_isPatternText_of_decode? hdecode⟩
  · have hdecode := DomainKey.decodeDotted?_encodeDotted hk
    exact ⟨hdecode, DomainKey.decode?_eq_none_of_decodeDotted? hdecode,
      DomainKey.not_isPatternText_of_decodeDotted? hdecode⟩
  · exact fun heq => hne (DomainKey.encode_injective hk hk' heq)
  · exact fun heq => hne (DomainKey.encodeDotted_injective hk hk' heq)
  · rintro ⟨hdomain, hdotted⟩
    obtain ⟨k, hk⟩ := Option.isSome_iff_exists.1 hdotted
    rw [DomainKey.decode?_eq_none_of_decodeDotted? hk] at hdomain
    cases hdomain
  · rintro ⟨hdomain, hpattern⟩
    obtain ⟨k, hk⟩ := Option.isSome_iff_exists.1 hdomain
    exact DomainKey.not_isPatternText_of_decode? hk hpattern
  · rintro ⟨hdotted, hpattern⟩
    obtain ⟨k, hk⟩ := Option.isSome_iff_exists.1 hdotted
    exact DomainKey.not_isPatternText_of_decodeDotted? hk hpattern
  · exact fun shape => of_eq_iff
  · rintro s k (h | h)
    · exact (DomainKey.decode?_eq_some_iff.1 h).1
    · exact (DomainKey.decodeDotted?_eq_some_iff.1 h).1

/-- The fan on the roof, and starting it or stopping it. -/
theorem fan_spellings_are_told_apart :
    (⟨"hvac", "fan", "roof", "start"⟩ : DomainKey).IsValid ∧
      (⟨"hvac", "fan", "roof", "stop"⟩ : DomainKey).IsValid ∧
      DomainKey.decode? "hvac.fan.roof:start" = some ⟨"hvac", "fan", "roof", "start"⟩ ∧
      DomainKey.decodeDotted? "hvac.fan.roof.start" = some ⟨"hvac", "fan", "roof", "start"⟩ ∧
      (⟨"hvac", "fan", "roof", "start"⟩ : DomainKey).encode ≠
        (⟨"hvac", "fan", "roof", "stop"⟩ : DomainKey).encode ∧
      ∀ part ∈ ["hvac", "fan", "roof", "start"], Segment.isValid part = true := by
  have hstart : (⟨"hvac", "fan", "roof", "start"⟩ : DomainKey).IsValid := by decide
  have hstop : (⟨"hvac", "fan", "roof", "stop"⟩ : DomainKey).IsValid := by decide
  obtain ⟨⟨hdecode, -, -⟩, ⟨hdotted, -, -⟩, hinj⟩ := spellings_are_told_apart.1 _ hstart
  exact ⟨hstart, hstop, hdecode, hdotted, (hinj _ hstop (by decide)).1,
    spellings_are_told_apart.2.2 "hvac.fan.roof:start" _ (.inl hdecode)⟩

end PermissionShape

end Entitlements
