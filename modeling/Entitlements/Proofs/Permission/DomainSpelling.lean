import Entitlements.Permission.Basic

/-!
How a domain key can be spelled. The canonical spelling sets the action off with a colon, the older
one writes dots throughout, and either may end in a line break, which the readers drop. These four
texts are all that is read as the key, and they are four different texts: nothing that compares
texts sees that they mean one capability.
-/

namespace Entitlements

open Text

namespace DomainKey

/-- Are all parts words? -/
def IsValid (k : DomainKey) : Prop := ∀ part ∈ k.parts, Segment.isValid part = true

def spellings (k : DomainKey) : List String :=
  [k.encode, k.encode ++ "\n", k.encodeDotted, k.encodeDotted ++ "\n"]

variable {k : DomainKey} {s : String}

theorem isValid_iff :
    k.IsValid ↔ Segment.isWord k.domain.toList = true ∧ Segment.isWord k.equipment.toList = true ∧
      Segment.isWord k.location.toList = true ∧ Segment.isWord k.action.toList = true := by
  simp [IsValid, parts, Segment.isValid]

instance : Decidable k.IsValid := inferInstanceAs (Decidable (∀ part ∈ k.parts, _))

/-! ### Characters -/

theorem toList_encode :
    k.encode.toList =
      k.domain.toList ++ '.' :: (k.equipment.toList ++ '.' :: (k.location.toList ++
        ':' :: k.action.toList)) := by
  simp [encode]

theorem toList_encodeDotted :
    k.encodeDotted.toList =
      k.domain.toList ++ '.' :: (k.equipment.toList ++ '.' :: (k.location.toList ++
        '.' :: k.action.toList)) := by
  simp [encodeDotted]

theorem dropFinalBreak_append_word {cs word : List Char} (h : Segment.isWord word = true) :
    dropFinalBreak (cs ++ word) = cs ++ word := by
  have hne : word ≠ [] := by
    rintro rfl
    cases h
  have hlast : (cs ++ word).getLast? ≠ some '\n' := by
    intro hbreak
    rw [List.getLast?_append, List.getLast?_eq_some_getLast hne] at hbreak
    have hmem : '\n' ∈ word := by
      rw [← Option.some.inj hbreak]
      exact List.getLast_mem hne
    exact Segment.not_mem_of_isWord Segment.not_isWordChar_break h hmem
  rw [dropFinalBreak, if_neg hlast]

@[simp] theorem dropFinalBreak_append_break (cs : List Char) :
    dropFinalBreak (cs ++ ['\n']) = cs := by
  simp [dropFinalBreak]

theorem eq_or_eq_append_break (cs : List Char) :
    cs = dropFinalBreak cs ∨ cs = dropFinalBreak cs ++ ['\n'] := by
  unfold dropFinalBreak
  split
  · next h =>
    right
    obtain ⟨init, rfl⟩ := List.getLast?_eq_some_iff.1 h
    rw [List.dropLast_concat]
  · exact .inl rfl

/-! ### Reading a spelling -/

theorem ofWords?_eq (h : k.IsValid) :
    ofWords? k.domain.toList k.equipment.toList k.location.toList k.action.toList = some k := by
  obtain ⟨hd, he, hl, ha⟩ := isValid_iff.1 h
  simp [ofWords?, hd, he, hl, ha]

theorem ofWords?_eq_some {domain equipment location action : List Char}
    (h : ofWords? domain equipment location action = some k) :
    k.IsValid ∧ k = ⟨String.ofList domain, String.ofList equipment, String.ofList location,
      String.ofList action⟩ := by
  unfold ofWords? at h
  split at h
  · next hw =>
    simp only [Option.some.injEq] at h
    subst h
    simp only [Bool.and_eq_true] at hw
    exact ⟨by simpa [isValid_iff, and_assoc] using hw, rfl⟩
  · cases h

/-- The pieces of a text whose first three words end at dots. -/
theorem split_two_dots (h : k.IsValid) (rest : List Char) :
    split '.' (k.domain.toList ++ '.' :: (k.equipment.toList ++ '.' :: rest)) =
      k.domain.toList :: k.equipment.toList :: split '.' rest := by
  obtain ⟨hd, he, -, -⟩ := isValid_iff.1 h
  rw [split_append (Segment.not_mem_of_isWord Segment.not_isWordChar_dot hd),
    split_append (Segment.not_mem_of_isWord Segment.not_isWordChar_dot he)]

theorem split_dots_encode (h : k.IsValid) :
    split '.' k.encode.toList =
      [k.domain.toList, k.equipment.toList, k.location.toList ++ ':' :: k.action.toList] := by
  obtain ⟨-, -, hl, ha⟩ := isValid_iff.1 h
  have hrest : '.' ∉ k.location.toList ++ ':' :: k.action.toList := by
    simp [Segment.not_mem_of_isWord Segment.not_isWordChar_dot hl,
      Segment.not_mem_of_isWord Segment.not_isWordChar_dot ha]
  rw [toList_encode, split_two_dots h, split_of_not_mem hrest]

theorem split_dots_encodeDotted (h : k.IsValid) :
    split '.' k.encodeDotted.toList =
      [k.domain.toList, k.equipment.toList, k.location.toList, k.action.toList] := by
  obtain ⟨-, -, hl, ha⟩ := isValid_iff.1 h
  rw [toList_encodeDotted, split_two_dots h,
    split_append (Segment.not_mem_of_isWord Segment.not_isWordChar_dot hl),
    split_of_not_mem (Segment.not_mem_of_isWord Segment.not_isWordChar_dot ha)]

theorem decode?_of_drop (h : k.IsValid) (hs : dropFinalBreak s.toList = k.encode.toList) :
    decode? s = some k := by
  obtain ⟨-, -, hl, ha⟩ := isValid_iff.1 h
  have hcolon : split ':' (k.location.toList ++ ':' :: k.action.toList) =
      [k.location.toList, k.action.toList] := by
    rw [split_append (Segment.not_mem_of_isWord Segment.not_isWordChar_colon hl),
      split_of_not_mem (Segment.not_mem_of_isWord Segment.not_isWordChar_colon ha)]
  simp only [decode?, hs, split_dots_encode h, hcolon, ofWords?_eq h]

theorem decode?_eq_none_of_drop (h : k.IsValid)
    (hs : dropFinalBreak s.toList = k.encodeDotted.toList) : decode? s = none := by
  simp only [decode?, hs, split_dots_encodeDotted h]

theorem decodeDotted?_of_drop (h : k.IsValid)
    (hs : dropFinalBreak s.toList = k.encodeDotted.toList) : decodeDotted? s = some k := by
  simp only [decodeDotted?, hs, split_dots_encodeDotted h, ofWords?_eq h]

theorem drop_of_decode? (h : decode? s = some k) :
    k.IsValid ∧ dropFinalBreak s.toList = k.encode.toList := by
  have hdots := intercalate_split '.' (dropFinalBreak s.toList)
  unfold decode? at h
  split at h
  · next domain equipment rest hpieces =>
    have hcolon := intercalate_split ':' rest
    split at h
    · next location action hparts =>
      obtain ⟨hk, rfl⟩ := ofWords?_eq_some h
      refine ⟨hk, ?_⟩
      rw [hparts] at hcolon
      rw [hpieces, ← hcolon] at hdots
      rw [← hdots, toList_encode]
      simp [List.intercalate, List.intersperse]
    · cases h
  · cases h

theorem drop_of_decodeDotted? (h : decodeDotted? s = some k) :
    k.IsValid ∧ dropFinalBreak s.toList = k.encodeDotted.toList := by
  have hdots := intercalate_split '.' (dropFinalBreak s.toList)
  unfold decodeDotted? at h
  split at h
  · next domain equipment location action hpieces =>
    obtain ⟨hk, rfl⟩ := ofWords?_eq_some h
    refine ⟨hk, ?_⟩
    rw [hpieces] at hdots
    rw [← hdots, toList_encodeDotted]
    simp [List.intercalate, List.intersperse]
  · cases h

/-! ### The spellings of a key -/

theorem dropFinalBreak_eq_iff {t : String} (ht : dropFinalBreak t.toList = t.toList) :
    dropFinalBreak s.toList = t.toList ↔ s = t ∨ s = t ++ "\n" := by
  constructor
  · intro h
    rcases eq_or_eq_append_break s.toList with hs | hs
    · left
      apply String.toList_injective
      rw [hs, h]
    · right
      apply String.toList_injective
      rw [hs, h, String.toList_append]
      rfl
  · rintro (rfl | rfl)
    · exact ht
    · rw [String.toList_append]
      exact dropFinalBreak_append_break _

theorem dropFinalBreak_encode (h : k.IsValid) :
    dropFinalBreak k.encode.toList = k.encode.toList := by
  obtain ⟨-, -, -, ha⟩ := isValid_iff.1 h
  rw [encode, String.toList_append]
  exact dropFinalBreak_append_word ha

theorem dropFinalBreak_encodeDotted (h : k.IsValid) :
    dropFinalBreak k.encodeDotted.toList = k.encodeDotted.toList := by
  obtain ⟨-, -, -, ha⟩ := isValid_iff.1 h
  rw [encodeDotted, String.toList_append]
  exact dropFinalBreak_append_word ha

/-- A text is read as a key with a colon exactly when it is the canonical spelling of a key of
words, or that spelling and a line break. -/
theorem decode?_eq_some_iff :
    decode? s = some k ↔ k.IsValid ∧ (s = k.encode ∨ s = k.encode ++ "\n") := by
  constructor
  · intro h
    obtain ⟨hk, hs⟩ := drop_of_decode? h
    exact ⟨hk, (dropFinalBreak_eq_iff (dropFinalBreak_encode hk)).1 hs⟩
  · rintro ⟨hk, hs⟩
    exact decode?_of_drop hk ((dropFinalBreak_eq_iff (dropFinalBreak_encode hk)).2 hs)

theorem decodeDotted?_eq_some_iff :
    decodeDotted? s = some k ↔ k.IsValid ∧ (s = k.encodeDotted ∨ s = k.encodeDotted ++ "\n") := by
  constructor
  · intro h
    obtain ⟨hk, hs⟩ := drop_of_decodeDotted? h
    exact ⟨hk, (dropFinalBreak_eq_iff (dropFinalBreak_encodeDotted hk)).1 hs⟩
  · rintro ⟨hk, hs⟩
    exact decodeDotted?_of_drop hk ((dropFinalBreak_eq_iff (dropFinalBreak_encodeDotted hk)).2 hs)

/-- No text is read as a key in both ways. -/
theorem decode?_eq_none_of_decodeDotted? (h : decodeDotted? s = some k) : decode? s = none := by
  obtain ⟨hk, hs⟩ := drop_of_decodeDotted? h
  exact decode?_eq_none_of_drop hk hs

/-- Is a key what a text is read as, with a colon or in the older way? -/
def IsReadFrom (k : DomainKey) (s : String) : Prop := decode? s = some k ∨ decodeDotted? s = some k

theorem isReadFrom_iff : k.IsReadFrom s ↔ k.IsValid ∧ s ∈ k.spellings := by
  simp only [IsReadFrom, decode?_eq_some_iff, decodeDotted?_eq_some_iff, spellings, List.mem_cons,
    List.not_mem_nil, or_false, ← and_or_left, or_assoc]

theorem ofPermission?_eq_some_iff_isReadFrom : ofPermission? s = some k ↔ k.IsReadFrom s := by
  rw [ofPermission?]
  constructor
  · intro h
    split at h
    · next k' hdec => exact .inl (hdec.trans h)
    · exact .inr h
  · rintro (h | h)
    · rw [h]
    · rw [decode?_eq_none_of_decodeDotted? h, h]

/-- A text names a key exactly when it is one of the spellings of a key of words. -/
theorem ofPermission?_eq_some_iff :
    ofPermission? s = some k ↔ k.IsValid ∧ s ∈ k.spellings := by
  rw [ofPermission?_eq_some_iff_isReadFrom, isReadFrom_iff]

end DomainKey

end Entitlements
