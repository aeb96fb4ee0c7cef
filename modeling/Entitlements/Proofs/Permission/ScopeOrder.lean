import Entitlements.Scope

/-!
Covering orders the scopes. Whatever texts are compared, scopes or not, the test is a partial order
with the tenant-wide scope on top, so a grant can be moved up to a wider scope and a request down to
a narrower one without losing what held.

Four rules are patched together in the test: the tenant-wide scope, equal texts, the wildcard, and a
leading part of the identifier. The wildcard is also a text that identifiers may start with. What
keeps the rules from contradicting each other is that no identifier is empty: only the wildcard is a
leading part of the wildcard, so nothing narrower covers what a wildcard does.
-/

namespace Entitlements

namespace Scope

/-! ### Reading a scope loses nothing -/

theorem text_of_parse? {s : String} {p : Scope} (h : parse? s = some p) : p.text = s := by
  unfold parse? at h
  split at h
  · next type id hcut =>
    split at h
    · cases h
    · obtain rfl := Option.some.inj h
      apply String.toList_injective
      rw [← Text.append_of_cut? hcut]
      simp [text]
  · cases h

theorem id_ne_empty_of_parse? {s : String} {p : Scope} (h : parse? s = some p) : p.id ≠ "" := by
  unfold parse? at h
  split at h
  · next type id _ =>
    split at h
    · cases h
    · next hne =>
      obtain rfl := Option.some.inj h
      simp only [Bool.or_eq_true, List.isEmpty_iff, not_or] at hne
      intro hid
      exact hne.2 (by simpa using hid)
  · cases h

theorem parse?_tenantWide : parse? tenantWide = some ⟨"tenant", "*"⟩ := by decide

/-! ### Identifiers side by side -/

variable {p q r : Scope}

theorem admits_iff :
    p.admits q = true ↔ p.type = q.type ∧ (p.id = "*" ∨ p.id.toList <+: q.id.toList) := by
  simp [admits, isWildcard]

/-- Only the wildcard, which is one letter long, is a leading part of the wildcard. -/
theorem id_eq_wildcard_of_admits (hp : p.id ≠ "") (h : p.admits q = true) (hq : q.id = "*") :
    p.id = "*" := by
  obtain ⟨-, hwild | hlead⟩ := admits_iff.1 h
  · exact hwild
  · rw [hq] at hlead
    have hone : "*".toList = ['*'] := by decide
    rw [hone, List.prefix_cons_iff] at hlead
    rcases hlead with hnil | ⟨rest, hstar, hrest⟩
    · exact absurd (String.toList_eq_nil_iff.1 hnil) hp
    · rw [List.prefix_nil.1 hrest, ← hone] at hstar
      exact String.toList_injective hstar

theorem admits_trans (hp : p.id ≠ "") (hpq : p.admits q = true) (hqr : q.admits r = true) :
    p.admits r = true := by
  obtain ⟨htype, hid⟩ := admits_iff.1 hpq
  obtain ⟨htype', hid'⟩ := admits_iff.1 hqr
  refine admits_iff.2 ⟨htype.trans htype', ?_⟩
  rcases hid' with hwild | hlead'
  · exact .inl (id_eq_wildcard_of_admits hp hpq hwild)
  · exact hid.imp_right fun hlead => hlead.trans hlead'

theorem admits_antisymm (hp : p.id ≠ "") (hq : q.id ≠ "") (hpq : p.admits q = true)
    (hqp : q.admits p = true) : p = q := by
  obtain ⟨htype, hid⟩ := admits_iff.1 hpq
  obtain ⟨-, hid'⟩ := admits_iff.1 hqp
  have heq : p.id = q.id := by
    rcases hid with hwild | hlead
    · rw [hwild, id_eq_wildcard_of_admits hq hqp hwild]
    · rcases hid' with hwild | hlead'
      · rw [hwild, id_eq_wildcard_of_admits hp hpq hwild]
      · exact String.toList_injective
          (hlead.eq_of_length (Nat.le_antisymm hlead.length_le hlead'.length_le))
  cases p
  cases q
  simp_all

/-! ### The order -/

variable {granted between requested : String}

theorem covers_iff :
    covers granted requested = true ↔ granted = tenantWide ∨ granted = requested ∨
      ∃ g r, parse? granted = some g ∧ parse? requested = some r ∧ g.admits r = true := by
  simp only [covers, Bool.or_eq_true, beq_iff_eq, or_assoc]
  refine or_congr_right (or_congr_right ?_)
  rcases parse? granted with _ | g <;> rcases parse? requested with _ | r <;> simp

/-- Nothing but the tenant-wide scope covers the tenant-wide scope. -/
theorem eq_tenantWide_of_covers (h : covers granted tenantWide = true) : granted = tenantWide := by
  obtain h | h | ⟨g, r, hg, hr, hadm⟩ := covers_iff.1 h
  · exact h
  · exact h
  · obtain rfl : ⟨"tenant", "*"⟩ = r := Option.some.inj (parse?_tenantWide.symm.trans hr)
    have htype := (admits_iff.1 hadm).1
    have hid := id_eq_wildcard_of_admits (id_ne_empty_of_parse? hg) hadm rfl
    rw [← text_of_parse? hg, text, htype, hid]
    rfl

theorem covers_trans (h : covers granted between = true) (h' : covers between requested = true) :
    covers granted requested = true := by
  obtain rfl | rfl | ⟨g, b, hg, hb, hadm⟩ := covers_iff.1 h
  · exact tenantWide_covers requested
  · exact h'
  · obtain rfl | rfl | ⟨b', r, hb', hr, hadm'⟩ := covers_iff.1 h'
    · rw [eq_tenantWide_of_covers h]
      exact tenantWide_covers requested
    · exact h
    · obtain rfl : b = b' := Option.some.inj (hb.symm.trans hb')
      exact covers_iff.2
        (.inr (.inr ⟨g, r, hg, hr, admits_trans (id_ne_empty_of_parse? hg) hadm hadm'⟩))

/-- Texts that cover each other are the same text, since both are what is read from them. -/
theorem covers_antisymm (h : covers granted requested = true)
    (h' : covers requested granted = true) : granted = requested := by
  obtain rfl | rfl | ⟨g, r, hg, hr, hadm⟩ := covers_iff.1 h
  · exact (eq_tenantWide_of_covers h').symm
  · rfl
  · obtain rfl | rfl | ⟨r', g', hr', hg', hadm'⟩ := covers_iff.1 h'
    · exact eq_tenantWide_of_covers h
    · rfl
    · obtain rfl : r = r' := Option.some.inj (hr.symm.trans hr')
      obtain rfl : g = g' := Option.some.inj (hg.symm.trans hg')
      rw [← text_of_parse? hg, ← text_of_parse? hr,
        admits_antisymm (id_ne_empty_of_parse? hg) (id_ne_empty_of_parse? hr) hadm hadm']

end Scope

end Entitlements
