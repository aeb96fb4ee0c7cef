import Entitlements.Access.Basic
import Entitlements.Proofs.Permission.Grammar
import Entitlements.Proofs.Permission.PatternOrder
import Entitlements.Proofs.Permission.Shapes

/-!
What is accepted as a key, a pattern or a scope. The tests cut a text at its separators and look at
the pieces, and they accept the languages of the grammar and one thing more: a line break at the
end. A key or a scope may have one behind it, and in a pattern each of the three segments may,
since each is tested as a text of its own.

The break is not harmless everywhere. A key is read without it, but a wildcard followed by a break
is no wildcard when it comes to matching: such a segment, or such a scope, is accepted and covers
nothing but its own text.
-/

namespace Entitlements

open Text

/-! ### Reading three segments -/

/-- No piece between separators holds one. -/
theorem Text.not_mem_of_mem_split {sep : Char} {cs piece : List Char}
    (h : piece ∈ split sep cs) : sep ∉ piece := by
  induction cs generalizing piece with
  | nil =>
    rw [split, List.mem_singleton] at h
    rw [h]
    exact List.not_mem_nil
  | cons c cs ih =>
    by_cases hc : c = sep
    · rw [split, if_pos hc, List.mem_cons] at h
      rcases h with rfl | h
      · exact List.not_mem_nil
      · exact ih h
    · rw [split, if_neg hc] at h
      rcases hpieces : split sep cs with _ | ⟨first, rest⟩
      · exact absurd hpieces (split_ne_nil sep cs)
      · simp only [hpieces, List.mem_cons] at h ih
        rcases h with rfl | h
        · exact List.not_mem_cons_of_ne_of_not_mem (Ne.symm hc) (ih (.inl rfl))
        · exact ih (.inr h)

namespace FunctionPermission

variable {s : String} {p : FunctionPermission}

def segments (p : FunctionPermission) : List String := [p.domain, p.function, p.action]

theorem toList_text :
    p.text.toList =
      p.domain.toList ++ '.' :: (p.function.toList ++ '.' :: p.action.toList) := by
  simp [text]

theorem parse?_eq_some_iff :
    parse? s = some p ↔ s = p.text ∧ ∀ segment ∈ p.segments, '.' ∉ segment.toList := by
  constructor
  · intro h
    refine ⟨(text_of_parse? h).symm, ?_⟩
    unfold parse? at h
    split at h
    · next domain function action hs =>
      obtain rfl := Option.some.inj h
      have hpiece : ∀ piece ∈ [domain, function, action], '.' ∉ piece := by
        intro piece hpiece
        rw [← hs] at hpiece
        exact not_mem_of_mem_split hpiece
      simpa [segments] using hpiece
    · cases h
  · rintro ⟨rfl, h⟩
    simp only [segments, List.forall_mem_cons] at h
    obtain ⟨hd, hf, ha, -⟩ := h
    rw [parse?, toList_text, split_append hd, split_append hf, split_of_not_mem ha]
    simp

end FunctionPermission

/-! ### What is accepted -/

namespace Grammar

variable {s : String}

/-- The four tests of a whole text. -/
inductive Check
  | domainKey
  | dottedKey
  | pattern
  | scope

namespace Check

def Accepts : Check → String → Prop
  | .domainKey, s => ∃ k, DomainKey.decode? s = some k
  | .dottedKey, s => ∃ k, DomainKey.decodeDotted? s = some k
  | .pattern, s => checkPattern (.str s) = .ok s
  | .scope, s => checkScope (.str s) = .ok s

/-- What a test is meant to accept. -/
def language : Check → Language Char
  | .domainKey => Grammar.domainKey
  | .dottedKey => Grammar.dottedKey
  | .pattern => Grammar.domainKey + Grammar.dottedKey + functionPattern
  | .scope => Grammar.scope

/-- What a test accepts. -/
def accepted : Check → Language Char
  | .domainKey => lax Grammar.domainKey
  | .dottedKey => lax Grammar.dottedKey
  | .pattern => lax Grammar.domainKey + lax Grammar.dottedKey +
      lax segment * dot * lax segment * dot * lax segment
  | .scope => lax Grammar.scope

end Check

theorem isBreakFree_accepted (check : Check) : IsBreakFree check.language check.accepted := by
  have hdomain := IsBreakFree.lax avoids_domainKey_break
  have hdotted := IsBreakFree.lax avoids_dottedKey_break
  have hsegment := IsBreakFree.lax avoids_segment_break
  have hdot : IsBreakFree dot dot := .of_avoids (avoids_char (by decide))
  cases check with
  | domainKey => exact hdomain
  | dottedKey => exact hdotted
  | pattern =>
    exact (hdomain.add hdotted).add
      ((((hsegment.mul hdot).mul hsegment).mul hdot).mul hsegment)
  | scope => exact .lax avoids_scope_break

theorem exists_decode?_iff : (∃ k, DomainKey.decode? s = some k) ↔ s.toList ∈ lax domainKey := by
  rw [mem_lax avoids_domainKey_break, mem_domainKey]
  constructor
  · rintro ⟨k, h⟩
    exact ⟨k, DomainKey.drop_of_decode? h⟩
  · rintro ⟨k, hk, hdrop⟩
    exact ⟨k, DomainKey.decode?_of_drop hk hdrop⟩

theorem exists_decodeDotted?_iff :
    (∃ k, DomainKey.decodeDotted? s = some k) ↔ s.toList ∈ lax dottedKey := by
  rw [mem_lax avoids_dottedKey_break, mem_dottedKey]
  constructor
  · rintro ⟨k, h⟩
    exact ⟨k, DomainKey.drop_of_decodeDotted? h⟩
  · rintro ⟨k, hk, hdrop⟩
    exact ⟨k, DomainKey.decodeDotted?_of_drop hk hdrop⟩

theorem isPattern_segment_iff : Segment.isPattern s = true ↔ s.toList ∈ lax segment := by
  rw [mem_lax avoids_segment_break, mem_segment]
  simp [Segment.isPattern]

theorem isPattern_iff {p : FunctionPermission} :
    p.isPattern = true ↔ ∀ segment ∈ p.segments, segment.toList ∈ lax Grammar.segment := by
  simp [FunctionPermission.isPattern, FunctionPermission.segments, isPattern_segment_iff, and_assoc]

theorem isPatternText_iff : FunctionPermission.IsPatternText s ↔
    ∃ p : FunctionPermission, s = p.text ∧ p.isPattern = true := by
  constructor
  · rintro ⟨p, hp, hpattern⟩
    exact ⟨p, (FunctionPermission.parse?_eq_some_iff.1 hp).1, hpattern⟩
  · rintro ⟨p, hs, hpattern⟩
    refine ⟨p, FunctionPermission.parse?_eq_some_iff.2 ⟨hs, fun segment hsegment => ?_⟩, hpattern⟩
    have hlax := isPattern_segment_iff.2 (isPattern_iff.1 hpattern segment hsegment)
    exact Segment.not_mem_of_isPattern hlax Segment.not_isWordChar_dot (by decide) (by decide)

theorem isPatternText_iff_mem : FunctionPermission.IsPatternText s ↔
    s.toList ∈ lax segment * dot * lax segment * dot * lax segment := by
  rw [isPatternText_iff]
  simp only [dot, mem_mul_char_mul]
  constructor
  · rintro ⟨p, rfl, hpattern⟩
    simp only [isPattern_iff, FunctionPermission.segments, List.forall_mem_cons] at hpattern
    obtain ⟨hd, hf, ha, -⟩ := hpattern
    exact ⟨_, ⟨_, hd, _, hf, rfl⟩, _, ha, by simp [FunctionPermission.toList_text]⟩
  · rintro ⟨_, ⟨domain, hd, function, hf, rfl⟩, action, ha, hs⟩
    refine ⟨⟨String.ofList domain, String.ofList function, String.ofList action⟩,
      String.toList_injective ?_, isPattern_iff.2 ?_⟩
    · simp [FunctionPermission.toList_text, hs]
    · simp [FunctionPermission.segments, hd, hf, ha]

theorem checkPattern_iff : checkPattern (.str s) = .ok s ↔
    (∃ k, DomainKey.decode? s = some k) ∨ (∃ k, DomainKey.decodeDotted? s = some k) ∨
      FunctionPermission.IsPatternText s := by
  have hshape : checkPattern (.str s) = .ok s ↔ PermissionShape.of s ≠ .unknown := by
    simp [checkPattern]
  have hunknown : PermissionShape.Fits s .unknown ↔ DomainKey.decode? s = none ∧
      DomainKey.decodeDotted? s = none ∧ ¬FunctionPermission.IsPatternText s :=
    ⟨fun h => by cases h with | unknown hdomain hdotted hfunction =>
        exact ⟨hdomain, hdotted, hfunction⟩,
      fun ⟨hdomain, hdotted, hfunction⟩ => .unknown hdomain hdotted hfunction⟩
  rw [hshape, ne_eq, PermissionShape.of_eq_iff, hunknown]
  simp only [not_and_or, not_not, ← ne_eq, Option.ne_none_iff_exists']

/-! ### Scopes -/

theorem cut?_of_isType {type : List Char} (h : Scope.isType type = true) (rest : List Char) :
    cut? ':' (type ++ ':' :: rest) = some (type, rest) :=
  cut?_append (avoids_scopeType (by decide) type (mem_scopeType.2 h)) rest

theorem scope_isValid_iff : Scope.isValid s = true ↔ s.toList ∈ lax scope := by
  rw [mem_lax avoids_scope_break, mem_scope, Scope.isValid]
  constructor
  · intro h
    split at h
    · next type id hcut =>
      simp only [Bool.and_eq_true, Bool.or_eq_true, beq_iff_eq] at h
      exact ⟨type, id, h.1, h.2, (append_of_cut? hcut).symm⟩
    · cases h
  · rintro ⟨type, id, htype, hid, hs⟩
    simpa [hs, cut?_of_isType htype, htype] using hid

theorem checkScope_iff : checkScope (.str s) = .ok s ↔ s.toList ∈ lax scope := by
  simp [checkScope, ← scope_isValid_iff]

theorem parse?_of_isType {type id : List Char} (htype : Scope.isType type = true) (hid : id ≠ [])
    (hs : s.toList = type ++ ':' :: id) :
    Scope.parse? s = some ⟨String.ofList type, String.ofList id⟩ := by
  have hne : type ≠ [] := by
    rintro rfl
    cases htype
  simp [Scope.parse?, hs, cut?_of_isType htype, hne, hid]

theorem isWildcard_ofList {type id : List Char} :
    (⟨String.ofList type, String.ofList id⟩ : Scope).isWildcard = true ↔ id = ['*'] := by
  simp [Scope.isWildcard, ← String.toList_inj]

/-- An identifier that is no wildcard does not end in one. -/
theorem getLast?_of_isIdentifier {id : List Char} (h : Scope.isIdentifier id = true) :
    id.getLast? ≠ some '*' := by
  have hstar : '*' ∉ id := avoids_scopeId (by decide) id (mem_scopeId.2 h)
  exact fun hlast => hstar (List.mem_of_getLast? hlast)

/-- Any accepted scope can be read, and what is read is a wildcard when the text ends in one. -/
theorem parse?_of_mem_scope (h : s.toList ∈ lax scope) :
    ∃ p, Scope.parse? s = some p ∧ (p.isWildcard = true ↔ s.toList.getLast? = some '*') := by
  have hread {type id : List Char} (htype : Scope.isType type = true) (hne : id ≠ [])
      (hs : s.toList = type ++ ':' :: id) (hid : id = ['*'] ↔ id.getLast? = some '*') :
      ∃ p, Scope.parse? s = some p ∧ (p.isWildcard = true ↔ s.toList.getLast? = some '*') := by
    refine ⟨_, parse?_of_isType htype hne hs, isWildcard_ofList.trans (hid.trans ?_)⟩
    simp [hs, List.getLast?_cons_of_ne_nil hne, List.getLast?_eq_some_getLast hne]
  obtain ⟨line, hline, hs⟩ := mem_lax_iff.1 h
  obtain ⟨type, id, htype, hid, rfl⟩ := mem_scope.1 hline
  rcases hs with hs | hs
  · rcases hid with rfl | hid
    · exact hread htype (by simp) hs (by simp)
    · have hne : id ≠ [] := by
        rintro rfl
        cases hid
      refine hread htype hne hs (iff_of_false ?_ (getLast?_of_isIdentifier hid))
      rintro rfl
      exact getLast?_of_isIdentifier hid rfl
  · -- With the break behind it, the wildcard is neither the identifier nor the last character.
    rw [List.append_assoc, List.cons_append] at hs
    refine hread htype (by simp) hs (iff_of_false (fun heq => ?_) (by simp))
    have hlast := congrArg List.getLast? heq
    simp at hlast

/-! ### Patterns with a wildcard -/

/-- An accepted pattern that holds a wildcard character is no key. -/
theorem isPatternText_of_wildcard (h : checkPattern (.str s) = .ok s) (hw : '*' ∈ s.toList) :
    FunctionPermission.IsPatternText s := by
  have hstar {d : Char} (hd : '*' ≠ d) : Avoids (Grammar.lax (key {[d]})) '*' :=
    (avoids_key (by decide) (by decide) hd).lax (by decide)
  rcases checkPattern_iff.1 h with hk | hk | hp
  · exact absurd hw (hstar (by decide) _ (exists_decode?_iff.1 hk))
  · exact absurd hw (hstar (by decide) _ (exists_decodeDotted?_iff.1 hk))
  · exact hp

theorem isMatch_iff_segments {p : FunctionPermission} (h : FunctionPermission.parse? s = some p)
    (t : String) : Pattern.isMatch t s = true ↔
      s = Pattern.universal ∨ s = t ∨ ∃ q, FunctionPermission.parse? t = some q ∧
        (p.domain = "*" ∨ p.domain = q.domain) ∧ (p.function = "*" ∨ p.function = q.function) ∧
        (p.action = "*" ∨ p.action = q.action) := by
  simp [Pattern.isMatch_iff, Pattern.covers_iff, h, FunctionPermission.covers,
    FunctionPermission.segmentCovers, Segment.wildcard, and_assoc]

/-! ### The tests and the grammar -/

theorem accepts_iff (check : Check) : check.Accepts s ↔ s.toList ∈ check.accepted := by
  cases check with
  | domainKey => exact exists_decode?_iff
  | dottedKey => exact exists_decodeDotted?_iff
  | pattern =>
    rw [Check.Accepts, Check.accepted, Language.mem_add, Language.mem_add, checkPattern_iff,
      exists_decode?_iff, exists_decodeDotted?_iff, isPatternText_iff_mem, or_assoc]
  | scope => exact checkScope_iff

/-- The texts that a test accepts are those of its language and some with line breaks in them, so it
agrees with the grammar on every text without one. A key is read without the break. A pattern is
matched with its breaks, so of its segments those that are the wildcard and nothing else admit any
segment, and the others only themselves. A scope that ends in the wildcard is one. -/
theorem accepted_but_for_line_breaks (s : String) :
    (∀ check : Check, check.Accepts s ↔ s.toList ∈ check.accepted) ∧
    (∀ check : Check, s.toList ∈ check.language ↔ check.Accepts s ∧ '\n' ∉ s.toList) ∧
    (∀ k : DomainKey, DomainKey.decode? s = some k → s = k.encode ∨ s = k.encode ++ "\n") ∧
    (Check.pattern.Accepts s → '*' ∈ s.toList →
      ∃ p : FunctionPermission, s = p.text ∧
        (∀ segment ∈ p.segments, segment.toList ∈ lax Grammar.segment) ∧
        ∀ t, Pattern.isMatch t s = true ↔
          s = Pattern.universal ∨ ∃ q, FunctionPermission.parse? t = some q ∧
            (p.domain = "*" ∨ p.domain = q.domain) ∧
            (p.function = "*" ∨ p.function = q.function) ∧
            (p.action = "*" ∨ p.action = q.action)) ∧
    (Check.scope.Accepts s →
      ∃ p, Scope.parse? s = some p ∧ (p.isWildcard = true ↔ s.toList.getLast? = some '*')) := by
  refine ⟨accepts_iff, fun check => ?_, fun k hk => ?_, fun hs hw => ?_,
    fun hs => parse?_of_mem_scope (checkScope_iff.1 hs)⟩
  · rw [accepts_iff]
    exact isBreakFree_accepted check s.toList
  · exact (DomainKey.decode?_eq_some_iff.1 hk).2
  · obtain ⟨p, hp, hpattern⟩ := isPatternText_of_wildcard hs hw
    refine ⟨p, (FunctionPermission.text_of_parse? hp).symm, isPattern_iff.1 hpattern, fun t => ?_⟩
    rw [isMatch_iff_segments hp]
    refine or_congr_right (or_iff_right_of_imp ?_)
    rintro rfl
    exact ⟨p, hp, .inr rfl, .inr rfl, .inr rfl⟩

/-- A key outside the grammar, a pattern for all reports that matches none of them, and a scope for
all tenants that covers no single one. -/
theorem broken_wildcards_are_accepted :
    Check.domainKey.Accepts "hvac.fan.roof:start\n" ∧
      "hvac.fan.roof:start\n".toList ∉ Check.domainKey.language ∧
      Check.pattern.Accepts "reports.*.*\n" ∧
      "reports.*.*\n".toList ∉ Check.pattern.language ∧
      Pattern.isMatch "reports.export.execute" "reports.*.*\n" = false ∧
      Check.scope.Accepts "tenant:*\n" ∧
      "tenant:*\n".toList ∉ Check.scope.language ∧
      Scope.covers "tenant:*\n" "tenant:1" = false := by
  have houtside {check : Check} {s : String} (hbreak : '\n' ∈ s.toList) :
      s.toList ∉ check.language :=
    fun h => (((accepted_but_for_line_breaks s).2.1 check).1 h).2 hbreak
  exact ⟨⟨⟨"hvac", "fan", "roof", "start"⟩, by decide⟩, houtside (by decide), rfl,
    houtside (by decide), by decide, rfl, houtside (by decide), by decide⟩

end Grammar

end Entitlements
