import Entitlements.Proofs.Access.Credit

/-!
The enumeration of effective permissions, told without its steps. The sort of the grants and the
passes over their allow and deny lists leave nothing behind but this: the entries ascend strictly,
their texts are those that some grant lists, and each entry resolves its text. What it is to resolve
a text is said of all grants at once, with a least carrier in the place of a first one, so no order
is in it, and no two entries resolve one text.
-/

namespace Entitlements

variable {grants others : List Grant} {e e' : EffectivePermission} {text : String}

/-! ### The order of entries -/

theorem ascending_effectivePermissions (grants : List Grant) :
    ((effectivePermissions grants).map (·.permission)).Pairwise (· < ·) := by
  have hle : (effectivePermissions grants).Pairwise fun a b => a.permission ≤ b.permission :=
    pairwise_mergeSort_of_key (fun _ _ => decide_eq_true_iff) _
  have hne : ((effectivePermissions grants).map (·.permission)).Nodup :=
    ((List.mergeSort_perm _ _).map _).nodup_iff.2 nodup_map_distinctBy
  exact ((List.pairwise_map.2 hle).and hne).imp fun ⟨hle, hne⟩ => lt_of_le_of_ne hle hne

namespace EffectivePermission

/-- The list of a policy that an entry stands for. -/
def source (e : EffectivePermission) (p : Policy) : List String :=
  if e.explicitlyDenied then p.deny else p.allow

/-- Does an entry say of its text what the grants, taken together, decide about it? -/
structure Resolves (grants : List Grant) (e : EffectivePermission) : Prop where
  explicitlyDenied_iff : e.explicitlyDenied = true ↔ ∃ g ∈ grants, e.permission ∈ g.policy.deny
  not_allowed : e.explicitlyDenied = true → e.allowed = false
  allowed_iff : e.explicitlyDenied = false → (e.allowed = true ↔
    ∀ g ∈ grants, ∀ pattern ∈ g.policy.deny, Pattern.isMatch e.permission pattern = false)
  carried : ∃ g ∈ grants, e.permission ∈ e.source g.policy ∧
    g.role.key = e.role ∧ g.policy.key = e.policy
  least : ∀ g ∈ grants, e.permission ∈ e.source g.policy → toLex (e.role, e.policy) ≤ g.pair
  conditions : ∀ g ∈ grants, g.policy.key = e.policy → g.policy.conditions = e.conditions

/-- Two entries that resolve one text are one entry. -/
theorem Resolves.unique (h : Resolves grants e) (h' : Resolves grants e')
    (htext : e.permission = e'.permission) : e = e' := by
  have hdenied : e.explicitlyDenied = e'.explicitlyDenied := by
    rw [Bool.eq_iff_iff, h.explicitlyDenied_iff, h'.explicitlyDenied_iff, htext]
  have hallowed : e.allowed = e'.allowed := by
    cases hd : e'.explicitlyDenied with
    | true => rw [h.not_allowed (hdenied.trans hd), h'.not_allowed hd]
    | false => rw [Bool.eq_iff_iff, h.allowed_iff (hdenied.trans hd), h'.allowed_iff hd, htext]
  have hsource : e.source = e'.source := by
    funext p
    rw [source, source, hdenied]
  obtain ⟨g, hg, hlisted, hrole, hpolicy⟩ := h.carried
  obtain ⟨g', hg', hlisted', hrole', hpolicy'⟩ := h'.carried
  have hpair : (e.role, e.policy) = (e'.role, e'.policy) := by
    refine toLex.injective (le_antisymm ?_ ?_)
    · have hle := h.least g' hg' (by rwa [htext, hsource])
      rwa [Grant.pair, hrole', hpolicy'] at hle
    · have hle := h'.least g hg (by rwa [← htext, ← hsource])
      rwa [Grant.pair, hrole, hpolicy] at hle
  obtain ⟨hr, hp⟩ := Prod.mk.inj hpair
  have hconditions : e.conditions = e'.conditions :=
    (h.conditions g hg hpolicy).symm.trans (h'.conditions g hg (hpolicy.trans hp))
  cases e
  cases e'
  simp only [mk.injEq]
  exact ⟨htext, hallowed, hr, hp, hdenied, hconditions⟩

end EffectivePermission

open EffectivePermission

/-! ### Entries resolve their texts -/

/-- An entry takes its role, policy and conditions from the grant credited with its text. -/
theorem credited?_source (h : e ∈ effectivePermissions grants) :
    ∃ g, credited? grants e.source e.permission = some g ∧ g.role.key = e.role ∧
      g.policy.key = e.policy ∧ g.policy.conditions = e.conditions := by
  rcases mem_effectivePermissions_iff.1 h with ⟨g, hg, he⟩ | ⟨-, g, hg, he⟩
  · have hsource : e.source = (·.deny) := by rw [he]; rfl
    rw [hsource]
    exact ⟨g, hg, by rw [he]; rfl, by rw [he]; rfl, by rw [he]; rfl⟩
  · have hsource : e.source = (·.allow) := by rw [he]; rfl
    rw [hsource]
    exact ⟨g, hg, by rw [he]; rfl, by rw [he]; rfl, by rw [he]; rfl⟩

theorem resolves_of_mem (hkeys : Grant.KeysPolicies grants)
    (h : e ∈ effectivePermissions grants) : Resolves grants e := by
  obtain ⟨g, hcredited, hrole, hpolicy, hconditions⟩ := credited?_source h
  obtain ⟨hg, hlisted, hleast⟩ := of_credited? hcredited
  refine ⟨explicitlyDenied_iff h, fun hd => ?_, fun hd => ?_, ⟨g, hg, hlisted, hrole, hpolicy⟩,
    ?_, fun g' hg' hkey => ?_⟩
  · cases ha : e.allowed with
    | false => rfl
    | true => rw [not_explicitlyDenied_of_allowed h ha] at hd; cases hd
  · have hallow : e.permission ∈ g.policy.allow := by simpa [source, hd] using hlisted
    rw [allowed_iff h, and_iff_right ⟨g, hg, hallow⟩]
    simp [Grant.denies, Pattern.anyMatch, Pattern.isMatchGiven]
  · simpa [Grant.pair, hrole, hpolicy] using hleast
  · rw [hkeys g' hg' g hg (hkey.trans hpolicy.symm), hconditions]

theorem exists_entry_iff : text ∈ (effectivePermissions grants).map (·.permission) ↔
    ∃ g ∈ grants, text ∈ g.policy.allow ∨ text ∈ g.policy.deny := by
  rw [List.mem_map]
  constructor
  · rintro ⟨e, he, rfl⟩
    rcases origin_of_mem_effectivePermissions he with ⟨g, hg, hd, -⟩ | ⟨g, hg, ha, -, -⟩
    · exact ⟨g, hg, .inr hd⟩
    · exact ⟨g, hg, .inl ha⟩
  · rintro ⟨g, hg, ha | hd⟩
    · exact exists_entry_of_mem_allow hg ha
    · exact exists_entry_of_mem_deny hg hd

theorem mem_iff_resolves (hkeys : Grant.KeysPolicies grants) :
    e ∈ effectivePermissions grants ↔ Resolves grants e := by
  refine ⟨resolves_of_mem hkeys, fun h => ?_⟩
  obtain ⟨g, hg, hlisted, -, -⟩ := h.carried
  have hmentioned : e.permission ∈ g.policy.allow ∨ e.permission ∈ g.policy.deny := by
    rw [source] at hlisted
    split at hlisted
    · exact .inr hlisted
    · exact .inl hlisted
  obtain ⟨e', he', htext⟩ := List.mem_map.1 (exists_entry_iff.2 ⟨g, hg, hmentioned⟩)
  rwa [← (resolves_of_mem hkeys he').unique h htext]

/-! ### The content -/

theorem Grant.KeysPolicies.of_pairsIn (hkeys : KeysPolicies grants) (h : PairsIn others grants) :
    KeysPolicies others := by
  intro g hg g' hg' hkey
  obtain ⟨m, hm, -, hpolicy⟩ := h g hg
  obtain ⟨m', hm', -, hpolicy'⟩ := h g' hg'
  rw [← hpolicy, ← hpolicy'] at hkey ⊢
  exact hkeys m hm m' hm' hkey

/-- The entries ascend strictly, one for each text that some grant allows or denies, and are those
that resolve a text; and lists of grants with the same pairs of a role key and a policy have the
same entries. -/
theorem effectivePermissions_exact (hkeys : Grant.KeysPolicies grants) :
    ((effectivePermissions grants).map (·.permission)).Pairwise (· < ·) ∧
    (∀ text, text ∈ (effectivePermissions grants).map (·.permission) ↔
      ∃ g ∈ grants, text ∈ g.policy.allow ∨ text ∈ g.policy.deny) ∧
    (∀ e, e ∈ effectivePermissions grants ↔ Resolves grants e) ∧
    ∀ others, Grant.PairsIn grants others → Grant.PairsIn others grants →
      effectivePermissions others = effectivePermissions grants :=
  ⟨ascending_effectivePermissions grants, fun _ => exists_entry_iff,
    fun _ => mem_iff_resolves hkeys, fun _ hin hof =>
      effectivePermissions_congr hof hin (hkeys.of_pairsIn hof) hkeys⟩

/-- A role by which reports may be exported but not purged, whatever the allow list says. -/
def Grant.exporting (assignment role : String) : Grant where
  assignment :=
    { id := assignment, userId := "alice", roleKey := role, scope := "tenant:*", status := .active
      grantedBy := "system", grantedAt := ⟨0⟩, expiresAt := none, reason := none }
  role :=
    { id := role, key := role, policyKeys := ["exports"], risk := .low, displayName := role
      description := "", tags := [], isSystem := false }
  policy :=
    { id := "exports", key := "exports"
      allow := ["reports.export.execute", "reports.purge.execute"], deny := ["reports.purge.*"]
      risk := .low, conditions := none, displayName := "exports", description := ""
      isSystem := false }

/-- The auditor comes before the viewer, wherever the grants of either stand. -/
theorem auditor_is_credited :
    Grant.KeysPolicies [.exporting "ra-0001" "viewer", .exporting "ra-0002" "auditor"] ∧
      ⟨"reports.purge.execute", false, "auditor", "exports", false, none⟩ ∈
        effectivePermissions [.exporting "ra-0001" "viewer", .exporting "ra-0002" "auditor"] ∧
      effectivePermissions [.exporting "ra-0002" "auditor", .exporting "ra-0003" "viewer",
          .exporting "ra-0001" "viewer"] =
        effectivePermissions [.exporting "ra-0001" "viewer", .exporting "ra-0002" "auditor"] := by
  have hkeys : Grant.KeysPolicies
      [.exporting "ra-0001" "viewer", .exporting "ra-0002" "auditor"] := by
    unfold Grant.KeysPolicies
    decide
  obtain ⟨-, -, hentry, hpairs⟩ := effectivePermissions_exact hkeys
  refine ⟨hkeys, (hentry _).2 ?_, hpairs _ ?_ ?_⟩
  · refine ⟨?_, ?_, ?_, ?_, ?_, ?_⟩
    all_goals decide
  · unfold Grant.PairsIn
    decide
  · unfold Grant.PairsIn
    decide

end Entitlements
