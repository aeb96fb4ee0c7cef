import Entitlements.Access.Grant

/-!
What a list of grants decides. A verdict is found by two searches, one through the deny lists and
one through the allow lists, and a search stops at the first grant it likes. Whether access is
given depends on neither the order of the grants nor their number, only on which of them are there;
which grant is named may depend on it, but what is named is always a grant that did decide.
-/

namespace Entitlements

namespace Grant

theorem denies_iff {g : Grant} {permission : Given} :
    g.denies permission = true ↔
      ∃ pattern ∈ g.policy.deny, Pattern.isMatchGiven permission pattern = true := by
  simp [denies, Pattern.anyMatch]

theorem allows_iff {g : Grant} {permission : Given} :
    g.allows permission = true ↔
      ∃ pattern ∈ g.policy.allow, Pattern.isMatchGiven permission pattern = true := by
  simp [allows, Pattern.anyMatch]

end Grant

namespace Verdict

variable {grants : List Grant} {permission : Given} {role policy : String}

theorem ofGrants_eq_denied (h : ofGrants grants permission = .denied role policy) :
    ∃ g ∈ grants, g.denies permission = true ∧ g.role.key = role ∧ g.policy.key = policy := by
  unfold ofGrants at h
  split at h
  · next g hg =>
    cases h
    have hd := List.find?_some hg
    exact ⟨g, List.mem_of_find?_eq_some hg, hd, rfl, rfl⟩
  · split at h <;> cases h

theorem ofGrants_eq_allowed (h : ofGrants grants permission = .allowed role policy) :
    ∃ g ∈ grants, g.allows permission = true ∧ g.role.key = role ∧ g.policy.key = policy := by
  unfold ofGrants at h
  split at h
  · cases h
  · split at h
    · next g hg =>
      cases h
      have ha := List.find?_some hg
      exact ⟨g, List.mem_of_find?_eq_some hg, ha, rfl, rfl⟩
    · cases h

theorem ofGrants_ne_noAssignments : ofGrants grants permission ≠ .noAssignments := by
  unfold ofGrants
  split
  · simp
  · split <;> simp

/-- A single denying grant is enough, wherever it stands. -/
theorem exists_ofGrants_eq_denied {g : Grant} (hg : g ∈ grants)
    (hd : g.denies permission = true) :
    ∃ role policy, ofGrants grants permission = .denied role policy := by
  have hfound : (grants.find? (·.denies permission)).isSome :=
    List.find?_isSome.2 ⟨g, hg, by simpa using hd⟩
  obtain ⟨g', hg'⟩ := Option.isSome_iff_exists.1 hfound
  exact ⟨g'.role.key, g'.policy.key, by rw [ofGrants, hg']⟩

theorem isAllowed_iff {v : Verdict} :
    v.isAllowed = true ↔ ∃ role policy, v = .allowed role policy := by
  cases v <;> simp [isAllowed]

/-- Access is given when no grant denies it and some grant allows it. -/
theorem isAllowed_ofGrants :
    (ofGrants grants permission).isAllowed = true ↔
      (∀ g ∈ grants, g.denies permission = false) ∧
        ∃ g ∈ grants, g.allows permission = true := by
  constructor
  · intro h
    obtain ⟨role, policy, hv⟩ := isAllowed_iff.1 h
    constructor
    · intro g hg
      cases hd : g.denies permission
      · rfl
      · obtain ⟨_, _, hden⟩ := exists_ofGrants_eq_denied hg hd
        rw [hv] at hden
        cases hden
    · obtain ⟨g, hg, ha, -⟩ := ofGrants_eq_allowed hv
      exact ⟨g, hg, ha⟩
  · rintro ⟨hden, g, hg, ha⟩
    have hnone : grants.find? (·.denies permission) = none :=
      List.find?_eq_none.2 fun g hg => by simp [hden g hg]
    have hfound : (grants.find? (·.allows permission)).isSome :=
      List.find?_isSome.2 ⟨g, hg, by simpa using ha⟩
    obtain ⟨g', hg'⟩ := Option.isSome_iff_exists.1 hfound
    rw [ofGrants, hnone, hg']
    rfl

end Verdict

end Entitlements
