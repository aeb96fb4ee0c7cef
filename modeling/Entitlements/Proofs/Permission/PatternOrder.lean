import Entitlements.Permission.Pattern

/-!
Matching composes. A pattern is a permission text like any other, so one pattern can match another,
and then it matches whatever that one matches. This is what lets an allow pattern that a deny
pattern covers be left out of a list without changing any answer: the permissions it would have
allowed are denied anyway.

Three rules are patched together in the test: equal texts, the universal pattern, and three
segments side by side. They fit because reading three segments loses nothing, so that the only text
whose segments are all wildcards is the universal pattern itself. For the same reason no two texts
match each other, and matching is a partial order on all texts.
-/

namespace Entitlements

namespace FunctionPermission

/-! ### Reading three segments loses nothing -/

theorem text_of_parse? {s : String} {p : FunctionPermission} (h : parse? s = some p) :
    p.text = s := by
  have hjoin := Text.intercalate_split '.' s.toList
  unfold parse? at h
  split at h
  · next domain function action hs =>
    rw [hs] at hjoin
    simp only [Option.some.injEq] at h
    subst h
    apply String.toList_injective
    rw [← hjoin]
    simp [text, List.intercalate, List.intersperse]
  · simp at h

theorem parse?_universal : parse? Pattern.universal = some ⟨"*", "*", "*"⟩ := by decide

/-! ### Segments side by side -/

theorem segmentCovers_trans {p q r : String} (hp : segmentCovers p q = true)
    (hq : segmentCovers q r = true) : segmentCovers p r = true := by
  simp only [segmentCovers, Bool.or_eq_true, beq_iff_eq] at hp hq ⊢
  rcases hp with hp | rfl
  · exact .inl hp
  · exact hq

/-- A wildcard covers a segment and is covered by it only if that segment is a wildcard too. -/
theorem segmentCovers_antisymm {p q : String} (hpq : segmentCovers p q = true)
    (hqp : segmentCovers q p = true) : p = q := by
  simp only [segmentCovers, Bool.or_eq_true, beq_iff_eq] at hpq hqp
  rcases hpq with hp | heq
  · rcases hqp with hq | heq
    · rw [hp, hq]
    · exact heq.symm
  · exact heq

theorem covers_trans {p q r : FunctionPermission} (hp : p.covers q = true)
    (hq : q.covers r = true) : p.covers r = true := by
  simp only [covers, Bool.and_eq_true] at hp hq ⊢
  exact ⟨⟨segmentCovers_trans hp.1.1 hq.1.1, segmentCovers_trans hp.1.2 hq.1.2⟩,
    segmentCovers_trans hp.2 hq.2⟩

theorem covers_antisymm {p q : FunctionPermission} (hpq : p.covers q = true)
    (hqp : q.covers p = true) : p = q := by
  simp only [covers, Bool.and_eq_true] at hpq hqp
  rcases p with ⟨domain, function, action⟩
  rcases q with ⟨domain', function', action'⟩
  obtain rfl : domain = domain' := segmentCovers_antisymm hpq.1.1 hqp.1.1
  obtain rfl : function = function' := segmentCovers_antisymm hpq.1.2 hqp.1.2
  obtain rfl : action = action' := segmentCovers_antisymm hpq.2 hqp.2
  rfl

theorem eq_of_covers_wildcards {p : FunctionPermission} (h : p.covers ⟨"*", "*", "*"⟩ = true) :
    p = ⟨"*", "*", "*"⟩ := by
  rcases p with ⟨domain, function, action⟩
  simpa [covers, segmentCovers, Segment.wildcard, and_assoc] using h

end FunctionPermission

namespace Pattern

theorem covers_iff {pattern permission : String} :
    covers pattern permission = true ↔
      ∃ p t, FunctionPermission.parse? pattern = some p ∧
        FunctionPermission.parse? permission = some t ∧ p.covers t = true := by
  unfold covers
  split
  · next p t hp ht => simp [hp, ht]
  · next hnone =>
    simp only [Bool.false_eq_true, false_iff]
    rintro ⟨p, t, hp, ht, -⟩
    exact hnone p t hp ht

theorem covers_trans {p q r : String} (hp : covers p q = true) (hq : covers q r = true) :
    covers p r = true := by
  obtain ⟨p', q', hp', hq', hpq⟩ := covers_iff.1 hp
  obtain ⟨q'', r', hq'', hr', hqr⟩ := covers_iff.1 hq
  obtain rfl : q' = q'' := by simpa [hq'] using hq''
  exact covers_iff.2 ⟨p', r', hp', hr', FunctionPermission.covers_trans hpq hqr⟩

/-- Texts that cover each other are the same text, since both are what is read from them. -/
theorem covers_antisymm {p q : String} (hpq : covers p q = true) (hqp : covers q p = true) :
    p = q := by
  obtain ⟨p', q', hp', hq', hcov⟩ := covers_iff.1 hpq
  obtain ⟨q'', p'', hq'', hp'', hcov'⟩ := covers_iff.1 hqp
  obtain rfl : q' = q'' := Option.some.inj (hq'.symm.trans hq'')
  obtain rfl : p' = p'' := Option.some.inj (hp'.symm.trans hp'')
  rw [← FunctionPermission.text_of_parse? hp', ← FunctionPermission.text_of_parse? hq',
    FunctionPermission.covers_antisymm hcov hcov']

/-- Nothing but the universal pattern covers the universal pattern. -/
theorem eq_universal_of_covers {p : String} (h : covers p universal = true) : p = universal := by
  obtain ⟨p', t, hp', ht, hcov⟩ := covers_iff.1 h
  obtain rfl : t = ⟨"*", "*", "*"⟩ := by
    simpa [FunctionPermission.parse?_universal] using ht.symm
  rw [← FunctionPermission.text_of_parse? hp', FunctionPermission.eq_of_covers_wildcards hcov]
  rfl

/-! ### The order -/

theorem isMatch_iff {permission pattern : String} :
    isMatch permission pattern = true ↔
      pattern = universal ∨ pattern = permission ∨ covers pattern permission = true := by
  simp [isMatch, or_assoc]

/-- A pattern matches whatever a pattern that it matches does. -/
theorem isMatch_trans {permission pattern wider : String} (h : isMatch permission pattern = true)
    (hw : isMatch pattern wider = true) : isMatch permission wider = true := by
  rw [isMatch_iff] at h hw ⊢
  rcases hw with rfl | rfl | hw
  · exact .inl rfl
  · exact h
  · rcases h with rfl | rfl | h
    · exact .inl (eq_universal_of_covers hw)
    · exact .inr (.inr hw)
    · exact .inr (.inr (covers_trans hw h))

/-- Nothing but the universal pattern matches the universal pattern. -/
theorem eq_universal_of_isMatch {pattern : String} (h : isMatch universal pattern = true) :
    pattern = universal := by
  rcases isMatch_iff.1 h with h | h | h
  · exact h
  · exact h
  · exact eq_universal_of_covers h

/-- Two texts that match each other are one text. -/
theorem isMatch_antisymm {permission pattern : String} (h : isMatch permission pattern = true)
    (h' : isMatch pattern permission = true) : permission = pattern := by
  rcases isMatch_iff.1 h with rfl | heq | hcov
  · exact eq_universal_of_isMatch h'
  · exact heq.symm
  · rcases isMatch_iff.1 h' with rfl | heq | hcov'
    · exact (eq_universal_of_covers hcov).symm
    · exact heq
    · exact covers_antisymm hcov' hcov

theorem isMatchGiven_trans {permission : Given} {pattern wider : String}
    (h : isMatchGiven permission pattern = true) (hw : isMatch pattern wider = true) :
    isMatchGiven permission wider = true := by
  cases permission with
  | none =>
    -- What is not named is matched by the universal pattern, which nothing else matches.
    obtain rfl : pattern = universal := by simpa [isMatchGiven] using h
    simpa [isMatchGiven] using eq_universal_of_isMatch hw
  | some permission => exact isMatch_trans h hw

end Pattern

end Entitlements
