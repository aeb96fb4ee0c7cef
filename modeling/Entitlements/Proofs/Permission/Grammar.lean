import Entitlements.Proofs.Permission.DomainSpelling
import Entitlements.Scope
import Mathlib.Computability.Language

/-!
The grammar of permissions and scopes, as a handful of regular languages. They are put together
from classes of characters by choice, concatenation and repetition, so that what a text of a
language looks like can be read off its definition, without the cuts at separators by which texts
are read.

A language may be lax about a line break behind its texts. As long as no text holds a break
elsewhere, the lax texts are those that are in the language once one break is dropped, and the
texts of the language are the lax ones without a break.
-/

namespace Entitlements

open Text Computability

/-! ### Languages -/

namespace Grammar

/-- The texts of one character of a class. -/
def one (p : Char → Prop) : Language Char := {cs | ∃ c, p c ∧ cs = [c]}

def IsLower (c : Char) : Prop := 'a' ≤ c ∧ c ≤ 'z'

def IsUpper (c : Char) : Prop := 'A' ≤ c ∧ c ≤ 'Z'

def IsDigit (c : Char) : Prop := '0' ≤ c ∧ c ≤ '9'

instance : DecidablePred IsLower := fun c => inferInstanceAs (Decidable ('a' ≤ c ∧ c ≤ 'z'))

instance : DecidablePred IsUpper := fun c => inferInstanceAs (Decidable ('A' ≤ c ∧ c ≤ 'Z'))

instance : DecidablePred IsDigit := fun c => inferInstanceAs (Decidable ('0' ≤ c ∧ c ≤ '9'))

def wordChar : Language Char := one fun c => IsLower c ∨ IsUpper c ∨ IsDigit c ∨ c = '_'

def word : Language Char := wordChar * wordChar∗

def dot : Language Char := {['.']}

def colon : Language Char := {[':']}

def wildcard : Language Char := {['*']}

/-- Four words, two dots and a separator before the last. -/
def key (separator : Language Char) : Language Char :=
  word * dot * word * dot * word * separator * word

def domainKey : Language Char := key colon

def dottedKey : Language Char := key dot

def segment : Language Char := word + wildcard

def functionPattern : Language Char := segment * dot * segment * dot * segment

def scopeType : Language Char :=
  one IsLower * (one fun c => IsLower c ∨ IsDigit c ∨ c = '_')∗

def scopeId : Language Char :=
  one (fun c => IsLower c ∨ IsUpper c ∨ IsDigit c) *
    (one fun c => IsLower c ∨ IsUpper c ∨ IsDigit c ∨
      c = '_' ∨ c = '-' ∨ c = '.' ∨ c = '/')∗

def scope : Language Char := scopeType * colon * (wildcard + scopeId)

/-- The texts of a language, each with or without a line break behind it. -/
def lax (l : Language Char) : Language Char := l * (1 + {['\n']})

/-! ### Members -/

variable {l m l' m' : Language Char} {p q : Char → Prop} {c : Char} {cs : List Char}

theorem mem_kstar_one : cs ∈ (one p)∗ ↔ ∀ c ∈ cs, p c := by
  constructor
  · rintro ⟨pieces, rfl, hpieces⟩ c hc
    obtain ⟨piece, hpiece, hcpiece⟩ := List.mem_flatten.1 hc
    obtain ⟨d, hd, rfl⟩ := hpieces piece hpiece
    rwa [List.mem_singleton.1 hcpiece]
  · intro h
    refine ⟨cs.map ([·]), (List.flatMap_singleton' cs).symm, ?_⟩
    intro piece hpiece
    obtain ⟨c, hc, rfl⟩ := List.mem_map.1 hpiece
    exact ⟨c, h c hc, rfl⟩

theorem mem_one_mul_kstar :
    cs ∈ one p * (one q)∗ ↔ ∃ c rest, cs = c :: rest ∧ p c ∧ ∀ x ∈ rest, q x := by
  rw [Language.mem_mul]
  constructor
  · rintro ⟨_, ⟨c, hc, rfl⟩, rest, hrest, rfl⟩
    exact ⟨c, rest, rfl, hc, mem_kstar_one.1 hrest⟩
  · rintro ⟨c, rest, rfl, hc, hrest⟩
    exact ⟨[c], ⟨c, hc, rfl⟩, rest, mem_kstar_one.2 hrest, rfl⟩

theorem mem_mul_char_mul :
    cs ∈ l * {[c]} * m ↔ ∃ before ∈ l, ∃ after ∈ m, cs = before ++ c :: after := by
  simp only [Language.mem_mul]
  constructor
  · rintro ⟨_, ⟨before, hbefore, _, rfl, rfl⟩, after, hafter, rfl⟩
    exact ⟨before, hbefore, after, hafter, by simp⟩
  · rintro ⟨before, hbefore, after, hafter, rfl⟩
    exact ⟨before ++ [c], ⟨before, hbefore, [c], rfl, rfl⟩, after, hafter, by simp⟩

theorem mem_word : cs ∈ word ↔ Segment.isWord cs = true := by
  have hchar (c : Char) : (IsLower c ∨ IsUpper c ∨ IsDigit c ∨ c = '_') ↔
      Segment.isWordChar c = true := by
    simp [IsLower, IsUpper, IsDigit, Segment.isWordChar, or_assoc]
  rw [word, wordChar, mem_one_mul_kstar]
  cases cs with
  | nil => simp [Segment.isWord]
  | cons c rest => simp [Segment.isWord, hchar]

theorem mem_segment : cs ∈ segment ↔ cs = ['*'] ∨ Segment.isWord cs = true := by
  rw [segment, Language.mem_add, mem_word, or_comm]
  rfl

theorem mem_key : cs ∈ key {[c]} ↔ ∃ k : DomainKey, k.IsValid ∧
    cs = k.domain.toList ++ '.' :: (k.equipment.toList ++ '.' :: (k.location.toList ++
      c :: k.action.toList)) := by
  simp only [key, dot, mem_mul_char_mul, mem_word]
  constructor
  · rintro ⟨_, ⟨_, ⟨domain, hd, equipment, he, rfl⟩, location, hl, rfl⟩, action, ha, rfl⟩
    refine ⟨⟨String.ofList domain, String.ofList equipment, String.ofList location,
      String.ofList action⟩, DomainKey.isValid_iff.2 ?_, by simp⟩
    simp [hd, he, hl, ha]
  · rintro ⟨k, hk, rfl⟩
    obtain ⟨hd, he, hl, ha⟩ := DomainKey.isValid_iff.1 hk
    exact ⟨_, ⟨_, ⟨_, hd, _, he, rfl⟩, _, hl, rfl⟩, _, ha, by simp⟩

theorem mem_domainKey : cs ∈ domainKey ↔ ∃ k : DomainKey, k.IsValid ∧ cs = k.encode.toList := by
  simp only [DomainKey.toList_encode]
  exact mem_key

theorem mem_dottedKey :
    cs ∈ dottedKey ↔ ∃ k : DomainKey, k.IsValid ∧ cs = k.encodeDotted.toList := by
  simp only [DomainKey.toList_encodeDotted]
  exact mem_key

theorem mem_scopeType : cs ∈ scopeType ↔ Scope.isType cs = true := by
  rw [scopeType, mem_one_mul_kstar]
  cases cs with
  | nil => simp [Scope.isType]
  | cons c rest => simp [Scope.isType, Scope.isLower, isDigit, IsLower, IsDigit, or_assoc]

theorem mem_scopeId : cs ∈ scopeId ↔ Scope.isIdentifier cs = true := by
  rw [scopeId, mem_one_mul_kstar]
  cases cs with
  | nil => simp [Scope.isIdentifier]
  | cons c rest =>
    simp [Scope.isIdentifier, Scope.isAlphanumeric, Scope.isLower, isDigit, IsLower, IsUpper,
      IsDigit, or_assoc]

theorem mem_scope : cs ∈ scope ↔ ∃ type id, Scope.isType type = true ∧
    (id = ['*'] ∨ Scope.isIdentifier id = true) ∧ cs = type ++ ':' :: id := by
  rw [scope, colon, mem_mul_char_mul]
  simp only [mem_scopeType, Language.mem_add, mem_scopeId, wildcard]
  constructor
  · rintro ⟨type, htype, id, hid, rfl⟩
    exact ⟨type, id, htype, hid, rfl⟩
  · rintro ⟨type, id, htype, hid, rfl⟩
    exact ⟨type, htype, id, hid, rfl⟩

/-! ### Characters that a language does not use -/

/-- Is a character in no text of a language? -/
def Avoids (l : Language Char) (c : Char) : Prop := ∀ cs ∈ l, c ∉ cs

theorem Avoids.add (hl : Avoids l c) (hm : Avoids m c) : Avoids (l + m) c := by
  rintro cs (h | h)
  · exact hl cs h
  · exact hm cs h

theorem Avoids.mul (hl : Avoids l c) (hm : Avoids m c) : Avoids (l * m) c := by
  rintro _ ⟨before, hbefore, after, hafter, rfl⟩ hc
  rcases List.mem_append.1 hc with hc | hc
  · exact hl before hbefore hc
  · exact hm after hafter hc

theorem Avoids.kstar (hl : Avoids l c) : Avoids l∗ c := by
  rintro _ ⟨pieces, rfl, hpieces⟩ hc
  obtain ⟨piece, hpiece, hcpiece⟩ := List.mem_flatten.1 hc
  exact hl piece (hpieces piece hpiece) hcpiece

theorem avoids_one (h : ¬p c) : Avoids (one p) c := by
  rintro _ ⟨d, hd, rfl⟩ hc
  exact h (List.mem_singleton.1 hc ▸ hd)

theorem avoids_char {d : Char} (h : c ≠ d) : Avoids {[d]} c := by
  rintro _ rfl hc
  exact h (List.mem_singleton.1 hc)

theorem avoids_word (h : Segment.isWordChar c = false) : Avoids word c :=
  fun _ hcs => Segment.not_mem_of_isWord h (mem_word.1 hcs)

theorem avoids_key {d : Char} (h : Segment.isWordChar c = false) (hdot : c ≠ '.') (hd : c ≠ d) :
    Avoids (key {[d]}) c :=
  (((((((avoids_word h).mul (avoids_char hdot)).mul (avoids_word h)).mul
    (avoids_char hdot)).mul (avoids_word h)).mul (avoids_char hd)).mul (avoids_word h))

theorem avoids_segment (h : Segment.isWordChar c = false) (hwildcard : c ≠ '*') :
    Avoids segment c :=
  (avoids_word h).add (avoids_char hwildcard)

theorem avoids_scopeId (h : ¬(IsLower c ∨ IsUpper c ∨ IsDigit c ∨
    c = '_' ∨ c = '-' ∨ c = '.' ∨ c = '/')) : Avoids scopeId c :=
  (avoids_one fun hc => h (by tauto)).mul (avoids_one h).kstar

theorem avoids_scopeType (h : ¬(IsLower c ∨ IsDigit c ∨ c = '_')) : Avoids scopeType c :=
  (avoids_one fun hc => h (.inl hc)).mul (avoids_one h).kstar

theorem avoids_domainKey_break : Avoids domainKey '\n' :=
  avoids_key Segment.not_isWordChar_break (by decide) (by decide)

theorem avoids_dottedKey_break : Avoids dottedKey '\n' :=
  avoids_key Segment.not_isWordChar_break (by decide) (by decide)

theorem avoids_segment_break : Avoids segment '\n' :=
  avoids_segment Segment.not_isWordChar_break (by decide)

theorem avoids_scope_break : Avoids scope '\n' :=
  ((avoids_scopeType (by decide)).mul (avoids_char (by decide))).mul
    ((avoids_char (by decide)).add (avoids_scopeId (by decide)))

/-! ### A line break behind -/

theorem dropFinalBreak_of_not_mem (h : '\n' ∉ cs) : dropFinalBreak cs = cs := by
  rcases DomainKey.eq_or_eq_append_break cs with hcs | hcs
  · exact hcs.symm
  · rw [hcs] at h
    simp at h

theorem mem_lax_iff : cs ∈ lax l ↔ ∃ line ∈ l, cs = line ∨ cs = line ++ ['\n'] := by
  rw [lax, Language.mem_mul]
  constructor
  · rintro ⟨line, hline, _, rfl | rfl, rfl⟩
    · exact ⟨line, hline, .inl (List.append_nil line)⟩
    · exact ⟨line, hline, .inr rfl⟩
  · rintro ⟨line, hline, rfl | rfl⟩
    · exact ⟨cs, hline, [], .inl rfl, List.append_nil cs⟩
    · exact ⟨line, hline, ['\n'], .inr rfl, rfl⟩

theorem mem_lax (h : Avoids l '\n') : cs ∈ lax l ↔ dropFinalBreak cs ∈ l := by
  rw [mem_lax_iff]
  constructor
  · rintro ⟨line, hline, rfl | rfl⟩
    · rwa [dropFinalBreak_of_not_mem (h cs hline)]
    · rwa [DomainKey.dropFinalBreak_append_break]
  · exact fun hcs => ⟨_, hcs, DomainKey.eq_or_eq_append_break cs⟩

theorem Avoids.lax (h : Avoids l c) (hc : c ≠ '\n') : Avoids (lax l) c := by
  intro cs hcs
  obtain ⟨line, hline, rfl | rfl⟩ := mem_lax_iff.1 hcs
  · exact h cs hline
  · simp [h line hline, hc]

/-- Are the texts of one language those of another that hold no line break? -/
def IsBreakFree (l m : Language Char) : Prop := ∀ cs, cs ∈ l ↔ cs ∈ m ∧ '\n' ∉ cs

theorem IsBreakFree.of_avoids (h : Avoids l '\n') : IsBreakFree l l :=
  fun cs => ⟨fun hcs => ⟨hcs, h cs hcs⟩, And.left⟩

theorem IsBreakFree.lax (h : Avoids l '\n') : IsBreakFree l (lax l) := by
  intro cs
  rw [mem_lax h]
  constructor
  · intro hcs
    have hbreak := h cs hcs
    exact ⟨by rwa [dropFinalBreak_of_not_mem hbreak], hbreak⟩
  · rintro ⟨hcs, hbreak⟩
    rwa [dropFinalBreak_of_not_mem hbreak] at hcs

theorem IsBreakFree.add (hl : IsBreakFree l l') (hm : IsBreakFree m m') :
    IsBreakFree (l + m) (l' + m') := by
  intro cs
  rw [Language.mem_add, Language.mem_add, hl, hm, or_and_right]

theorem IsBreakFree.mul (hl : IsBreakFree l l') (hm : IsBreakFree m m') :
    IsBreakFree (l * m) (l' * m') := by
  intro cs
  simp only [Language.mem_mul, hl _, hm _]
  constructor
  · rintro ⟨before, ⟨hbefore, hbreak⟩, after, ⟨hafter, hbreak'⟩, rfl⟩
    exact ⟨⟨before, hbefore, after, hafter, rfl⟩, by simp [hbreak, hbreak']⟩
  · rintro ⟨⟨before, hbefore, after, hafter, rfl⟩, hbreak⟩
    rw [List.mem_append, not_or] at hbreak
    exact ⟨before, ⟨hbefore, hbreak.1⟩, after, ⟨hafter, hbreak.2⟩, rfl⟩

end Grammar

end Entitlements
