import Entitlements.Proofs.Access.Distinct
import Entitlements.Proofs.Access.Verdict
import Entitlements.Proofs.Permission.PatternOrder

/-!
What the enumeration of effective permissions says. Each text that some grant mentions has one
entry. An entry is explicitly denied exactly when a deny list holds its text, and allowed exactly
when an allow list holds it and no deny pattern matches it; neither depends on the order in which
the grants were credited.

From these the list of entries can be used in the place of the grants. Matching a permission
against the allowed entries and against the explicitly denied ones gives what a search through the
grants gives. One direction is not obvious: an allow pattern that is itself denied is no allowed
entry, and the search may still hit it. But then the deny pattern that matches the allow pattern
also matches the permission, and the search would have denied it before.
-/

namespace Entitlements

open EffectivePermission

variable {grants : List Grant} {e : EffectivePermission} {permission : String}

/-! ### Where entries come from -/

theorem mem_of_mem_effectivePermissions (h : e ∈ effectivePermissions grants) :
    e ∈ distinctBy (·.permission) [] (candidates (grants.mergeSort Grant.le)) := by
  simpa [effectivePermissions] using h

/-- An entry stands for a text of a deny list, or else for one of an allow list only. -/
theorem origin_of_mem_effectivePermissions (h : e ∈ effectivePermissions grants) :
    (∃ g ∈ grants, e.permission ∈ g.policy.deny ∧ e = ofDeny g e.permission) ∨
      ∃ g ∈ grants, e.permission ∈ g.policy.allow ∧
        e = ofAllow ((grants.mergeSort Grant.le).flatMap (·.policy.deny)) g e.permission ∧
        ∀ g ∈ grants, e.permission ∉ g.policy.deny := by
  rcases mem_or_new_of_mem_distinctBy_append (mem_of_mem_effectivePermissions h) with
    hd | ⟨ha, hnew⟩
  · left
    obtain ⟨g, hg, hm⟩ := List.mem_flatMap.1 hd
    obtain ⟨d, hmem, rfl⟩ := List.mem_map.1 hm
    exact ⟨g, List.mem_mergeSort.1 hg, hmem, rfl⟩
  · right
    obtain ⟨g, hg, hm⟩ := List.mem_flatMap.1 ha
    obtain ⟨a, hmem, rfl⟩ := List.mem_map.1 hm
    refine ⟨g, List.mem_mergeSort.1 hg, hmem, rfl, fun g' hg' hden => ?_⟩
    have hmem : ofDeny g' a ∈
        (grants.mergeSort Grant.le).flatMap fun g => g.policy.deny.map (ofDeny g) :=
      List.mem_flatMap.2 ⟨g', List.mem_mergeSort.2 hg', List.mem_map_of_mem hden⟩
    exact hnew _ hmem rfl

theorem exists_entry_of_candidate {c : EffectivePermission}
    (hc : c ∈ candidates (grants.mergeSort Grant.le)) :
    ∃ e ∈ effectivePermissions grants, e.permission = c.permission := by
  have hfirst : ∃ e ∈ distinctBy (·.permission) [] (candidates (grants.mergeSort Grant.le)),
      e.permission = c.permission := exists_mem_distinctBy hc (by simp)
  obtain ⟨e, he, hp⟩ := hfirst
  exact ⟨e, by simpa [effectivePermissions] using he, hp⟩

theorem exists_entry_of_mem_allow {g : Grant} (hg : g ∈ grants)
    (ha : permission ∈ g.policy.allow) :
    ∃ e ∈ effectivePermissions grants, e.permission = permission := by
  apply exists_entry_of_candidate
    (c := ofAllow ((grants.mergeSort Grant.le).flatMap (·.policy.deny)) g permission)
  apply List.mem_append_right
  exact List.mem_flatMap.2 ⟨g, List.mem_mergeSort.2 hg, List.mem_map_of_mem ha⟩

theorem exists_entry_of_mem_deny {g : Grant} (hg : g ∈ grants)
    (hd : permission ∈ g.policy.deny) :
    ∃ e ∈ effectivePermissions grants, e.permission = permission := by
  apply exists_entry_of_candidate (c := ofDeny g permission)
  apply List.mem_append_left
  exact List.mem_flatMap.2 ⟨g, List.mem_mergeSort.2 hg, List.mem_map_of_mem hd⟩

/-! ### The flags of an entry -/

theorem explicitlyDenied_iff (h : e ∈ effectivePermissions grants) :
    e.explicitlyDenied = true ↔ ∃ g ∈ grants, e.permission ∈ g.policy.deny := by
  rcases origin_of_mem_effectivePermissions h with ⟨g, hg, hd, he⟩ | ⟨g, -, -, he, hnone⟩
  · rw [he]
    exact ⟨fun _ => ⟨g, hg, hd⟩, fun _ => rfl⟩
  · constructor
    · intro hden
      rw [he] at hden
      cases hden
    · rintro ⟨g', hg', hd⟩
      exact absurd hd (hnone g' hg')

theorem anyMatch_flatMap_deny {permission : Given} :
    Pattern.anyMatch permission (grants.flatMap (·.policy.deny)) = true ↔
      ∃ g ∈ grants, g.denies permission = true := by
  simp only [Pattern.anyMatch, List.any_flatMap, List.any_eq_true, Grant.denies]

theorem denies_of_mem_deny {g : Grant} (hd : permission ∈ g.policy.deny) :
    g.denies (some permission) = true :=
  Grant.denies_iff.2 ⟨permission, hd, Pattern.isMatch_self permission⟩

theorem allows_of_mem_allow {g : Grant} (ha : permission ∈ g.policy.allow) :
    g.allows (some permission) = true :=
  Grant.allows_iff.2 ⟨permission, ha, Pattern.isMatch_self permission⟩

theorem allowed_iff (h : e ∈ effectivePermissions grants) :
    e.allowed = true ↔
      (∃ g ∈ grants, e.permission ∈ g.policy.allow) ∧
        ∀ g ∈ grants, g.denies (some e.permission) = false := by
  rcases origin_of_mem_effectivePermissions h with ⟨g, hg, hd, he⟩ | ⟨g, hg, ha, he, -⟩
  · -- An entry of a deny list is not allowed, and the text it came from denies itself.
    constructor
    · intro hallowed
      rw [he] at hallowed
      cases hallowed
    · rintro ⟨-, hnone⟩
      have hden := denies_of_mem_deny hd
      rw [hnone g hg] at hden
      cases hden
  · -- An entry of an allow list was decided by the deny lists of the sorted grants.
    have hsorted : e.allowed = true ↔
        ¬∃ g ∈ grants.mergeSort Grant.le, g.denies (some e.permission) = true := by
      rw [← anyMatch_flatMap_deny, he]
      simp [ofAllow]
    rw [hsorted]
    constructor
    · intro hnot
      refine ⟨⟨g, hg, ha⟩, fun g' hg' => ?_⟩
      cases hden : g'.denies (some e.permission)
      · rfl
      · exact absurd ⟨g', List.mem_mergeSort.2 hg', hden⟩ hnot
    · rintro ⟨-, hnone⟩ ⟨g', hg', hden⟩
      rw [hnone g' (List.mem_mergeSort.1 hg')] at hden
      cases hden

/-- No entry is both. -/
theorem not_explicitlyDenied_of_allowed (h : e ∈ effectivePermissions grants)
    (ha : e.allowed = true) : e.explicitlyDenied = false := by
  cases hd : e.explicitlyDenied
  · rfl
  · obtain ⟨g, hg, hm⟩ := (explicitlyDenied_iff h).1 hd
    have hden := ((allowed_iff h).1 ha).2 g hg
    rw [denies_of_mem_deny hm] at hden
    cases hden

/-! ### Deciding by entries -/

/-- Does a list of entries give access to a permission? -/
def EffectivePermission.Decide (entries : List EffectivePermission) (permission : String) : Prop :=
  (∃ e ∈ entries, e.allowed = true ∧ Pattern.isMatch permission e.permission = true) ∧
    ∀ d ∈ entries, d.explicitlyDenied = true → Pattern.isMatch permission d.permission = false

theorem exists_denied_entry_iff :
    (∃ d ∈ effectivePermissions grants,
        d.explicitlyDenied = true ∧ Pattern.isMatch permission d.permission = true) ↔
      ∃ g ∈ grants, g.denies (some permission) = true := by
  constructor
  · rintro ⟨d, hd, hden, hm⟩
    obtain ⟨g, hg, hmem⟩ := (explicitlyDenied_iff hd).1 hden
    exact ⟨g, hg, Grant.denies_iff.2 ⟨d.permission, hmem, hm⟩⟩
  · rintro ⟨g, hg, hden⟩
    obtain ⟨pattern, hmem, hm⟩ := Grant.denies_iff.1 hden
    obtain ⟨d, hd, rfl⟩ := exists_entry_of_mem_deny hg hmem
    exact ⟨d, hd, (explicitlyDenied_iff hd).2 ⟨g, hg, hmem⟩, hm⟩

/-- The entries give access to exactly what the grants give access to. -/
theorem decide_effectivePermissions_iff :
    Decide (effectivePermissions grants) permission ↔
      (Verdict.ofGrants grants (some permission)).isAllowed = true := by
  rw [Verdict.isAllowed_ofGrants]
  constructor
  · rintro ⟨⟨e, he, ha, hm⟩, hnone⟩
    obtain ⟨⟨g, hg, hmem⟩, -⟩ := (allowed_iff he).1 ha
    refine ⟨fun g' hg' => ?_, g, hg, Grant.allows_iff.2 ⟨e.permission, hmem, hm⟩⟩
    cases hden : g'.denies (some permission)
    · rfl
    · obtain ⟨d, hd, hdd, hdm⟩ := exists_denied_entry_iff.2 ⟨g', hg', hden⟩
      rw [hnone d hd hdd] at hdm
      cases hdm
  · rintro ⟨hnone, g, hg, hallow⟩
    obtain ⟨pattern, hmem, hm⟩ := Grant.allows_iff.1 hallow
    obtain ⟨e, he, rfl⟩ := exists_entry_of_mem_allow hg hmem
    constructor
    · refine ⟨e, he, (allowed_iff he).2 ⟨⟨g, hg, hmem⟩, fun g' hg' => ?_⟩, hm⟩
      -- A deny pattern that matches the entry would match the permission as well.
      cases hden : g'.denies (some e.permission)
      · rfl
      · obtain ⟨wider, hw, hwm⟩ := Grant.denies_iff.1 hden
        have hp : g'.denies (some permission) = true :=
          Grant.denies_iff.2 ⟨wider, hw, Pattern.isMatch_trans hm hwm⟩
        rw [hnone g' hg'] at hp
        cases hp
    · intro d hd hdd
      cases hdm : Pattern.isMatch permission d.permission
      · rfl
      · obtain ⟨g', hg', hden⟩ := exists_denied_entry_iff.1 ⟨d, hd, hdd, hdm⟩
        rw [hnone g' hg'] at hden
        cases hden

/-- The flag of an entry is what the grants decide about its own text. -/
theorem allowed_eq_isAllowed (h : e ∈ effectivePermissions grants) :
    e.allowed = (Verdict.ofGrants grants (some e.permission)).isAllowed := by
  rw [Bool.eq_iff_iff, allowed_iff h, Verdict.isAllowed_ofGrants, and_comm]
  refine and_congr_right fun hnone => ?_
  constructor
  · rintro ⟨g, hg, hmem⟩
    exact ⟨g, hg, allows_of_mem_allow hmem⟩
  · intro _
    rcases origin_of_mem_effectivePermissions h with ⟨g, hg, hd, -⟩ | ⟨g, hg, ha, -, -⟩
    · have hden := denies_of_mem_deny hd
      rw [hnone g hg] at hden
      cases hden
    · exact ⟨g, hg, ha⟩

end Entitlements
