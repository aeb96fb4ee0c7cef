import Entitlements.Proofs.Access.Enumeration
import Mathlib.Data.Prod.Lex

/-!
Who is credited with an effective permission. Of the grants that list a text, the one with the least
role and policy is credited, and it is the least whatever order they came in. Where a policy key
stands for one policy, the role and the policy of a grant are all that an entry takes from it: the
assignment breaks ties only between grants that agree on both. So the enumeration is a function of
the pairs of a role key and a policy that the grants hold, as a set.
-/

namespace Entitlements

open EffectivePermission

/-! ### The order of grants -/

namespace Grant

/-- What a grant is credited by, before its assignment. -/
def pair (g : Grant) : Lex (String × String) := toLex (g.role.key, g.policy.key)

theorem le_iff (g h : Grant) :
    g.le h = true ↔ toLex (g.pair, g.assignment.id) ≤ toLex (h.pair, h.assignment.id) := by
  simp only [Prod.Lex.toLex_le_toLex, Prod.Lex.toLex_lt_toLex, pair, le, toLex_inj, Prod.mk.injEq]
  by_cases hr : g.role.key = h.role.key
  · by_cases hp : g.policy.key = h.policy.key
    · simp [hr, hp]
    · simp [hr, hp]
  · simp [hr]

theorem pair_le_of_le {g h : Grant}
    (hle : toLex (g.pair, g.assignment.id) ≤ toLex (h.pair, h.assignment.id)) :
    g.pair ≤ h.pair := by
  rcases Prod.Lex.toLex_le_toLex.1 hle with hlt | ⟨heq, -⟩
  · exact le_of_lt hlt
  · exact le_of_eq heq

end Grant

/-! ### Credit -/

variable {grants others : List Grant} {lists : Policy → List String} {permission : String}
  {g : Grant} {e : EffectivePermission}

/-- The grant that is credited with a text, of those whose policy lists it. -/
def credited? (grants : List Grant) (lists : Policy → List String) (permission : String) :
    Option Grant :=
  (grants.mergeSort Grant.le).find? fun g => (lists g.policy).contains permission

theorem of_credited? (h : credited? grants lists permission = some g) :
    g ∈ grants ∧ permission ∈ lists g.policy ∧
      ∀ g' ∈ grants, permission ∈ lists g'.policy → g.pair ≤ g'.pair := by
  have hlists := List.find?_some h
  refine ⟨List.mem_mergeSort.1 (List.mem_of_find?_eq_some h), List.contains_iff_mem.1 hlists, ?_⟩
  intro g' hg' hmem
  exact Grant.pair_le_of_le
    (le_of_find?_mergeSort Grant.le_iff h g' hg' (List.contains_iff_mem.2 hmem))

theorem credited?_eq_none_iff :
    credited? grants lists permission = none ↔ ∀ g ∈ grants, permission ∉ lists g.policy := by
  rw [credited?, List.find?_eq_none]
  constructor
  · intro h g hg hmem
    exact h g (List.mem_mergeSort.2 hg) (List.contains_iff_mem.2 hmem)
  · intro h g hg hcontains
    exact h g (List.mem_mergeSort.1 hg) (List.contains_iff_mem.1 hcontains)

/-- The first entry of a text among those of one kind is the entry of the grant that is credited. -/
theorem find?_entries (entry : Grant → String → EffectivePermission)
    (hentry : ∀ g p, (entry g p).permission = p) :
    ((grants.mergeSort Grant.le).flatMap fun g => (lists g.policy).map (entry g)).find?
        (·.permission == permission) =
      (credited? grants lists permission).map (entry · permission) := by
  rw [credited?]
  induction grants.mergeSort Grant.le with
  | nil => rfl
  | cons g rest ih =>
    rw [List.flatMap_cons, List.find?_append, List.find?_cons, ih, List.find?_map]
    have hsame : (fun e : EffectivePermission => e.permission == permission) ∘ entry g =
        (· == permission) := by
      funext p
      simp [hentry]
    rw [hsame]
    by_cases hmem : permission ∈ lists g.policy
    · have hfound : (lists g.policy).find? (· == permission) = some permission := by
        obtain ⟨p, hp⟩ : ∃ p, (lists g.policy).find? (· == permission) = some p :=
          Option.isSome_iff_exists.1
            (List.find?_isSome.2 ⟨permission, hmem, beq_self_eq_true permission⟩)
        have hsame : (p == permission) = true := List.find?_some (p := (· == permission)) hp
        rw [hp, beq_iff_eq.1 hsame]
      rw [hfound, List.contains_iff_mem.2 hmem]
      rfl
    · have hnone : (lists g.policy).find? (· == permission) = none := by
        refine List.find?_eq_none.2 fun p hp heq => hmem ?_
        exact beq_iff_eq.1 heq ▸ hp
      rw [hnone, Bool.eq_false_iff.2 fun h => hmem (List.contains_iff_mem.1 h)]
      rfl

/-- An entry is the one of the grant that is credited, of those that deny its text if there is one,
and otherwise of those that allow it. -/
theorem mem_effectivePermissions_iff :
    e ∈ effectivePermissions grants ↔
      (∃ g, credited? grants (·.deny) e.permission = some g ∧ e = ofDeny g e.permission) ∨
        credited? grants (·.deny) e.permission = none ∧
          ∃ g, credited? grants (·.allow) e.permission = some g ∧
            e = ofAllow ((grants.mergeSort Grant.le).flatMap (·.policy.deny)) g e.permission := by
  have hmem : e ∈ effectivePermissions grants ↔
      (candidates (grants.mergeSort Grant.le)).find? (·.permission == e.permission) = some e := by
    rw [effectivePermissions, List.mem_mergeSort, mem_distinctBy_iff]
    exact and_iff_right (List.not_mem_nil)
  rw [hmem, candidates, List.find?_append, find?_entries ofDeny fun _ _ => rfl,
    find?_entries (ofAllow _) fun _ _ => rfl]
  rcases credited? grants (·.deny) e.permission with _ | g
  · simp [eq_comm]
  · simp [eq_comm]

/-! ### Pairs -/

/-- Do the grants of one list hold pairs of a role key and a policy that those of another hold? -/
def Grant.PairsIn (grants others : List Grant) : Prop :=
  ∀ g ∈ grants, ∃ h ∈ others, h.role.key = g.role.key ∧ h.policy = g.policy

/-- Does a policy key stand for one policy? -/
def Grant.KeysPolicies (grants : List Grant) : Prop :=
  ∀ g ∈ grants, ∀ h ∈ grants, g.policy.key = h.policy.key → g.policy = h.policy

section

variable (hin : Grant.PairsIn grants others) (hof : Grant.PairsIn others grants)
  (hkeys : Grant.KeysPolicies others)

include hin hof hkeys

/-- Lists that hold the same pairs credit the same pairs. -/
theorem exists_credited (hg : credited? grants lists permission = some g) :
    ∃ h, credited? others lists permission = some h ∧ h.role.key = g.role.key ∧
      h.policy = g.policy := by
  obtain ⟨hmem, hlisted, hleast⟩ := of_credited? hg
  obtain ⟨g', hg', hrole, hpolicy⟩ := hin g hmem
  rcases hh : credited? others lists permission with _ | h
  · exact absurd (hpolicy ▸ hlisted) (credited?_eq_none_iff.1 hh g' hg')
  obtain ⟨hmem', hlisted', hleast'⟩ := of_credited? hh
  obtain ⟨h', hh', hrole', hpolicy'⟩ := hof h hmem'
  -- Each is the least on its own side, and has its like on the other.
  have hle : h.pair ≤ g.pair := by
    have h₁ := hleast' g' hg' (hpolicy ▸ hlisted)
    rwa [Grant.pair, Grant.pair, hrole, hpolicy] at h₁
  have hge : g.pair ≤ h.pair := by
    have h₁ := hleast h' hh' (hpolicy' ▸ hlisted')
    rwa [Grant.pair, Grant.pair, hrole', hpolicy'] at h₁
  have hpair : (h.role.key, h.policy.key) = (g.role.key, g.policy.key) :=
    toLex.injective (le_antisymm hle hge)
  obtain ⟨hr, hp⟩ := Prod.mk.injEq .. ▸ hpair
  refine ⟨h, rfl, hr, ?_⟩
  rw [← hpolicy]
  exact hkeys h hmem' g' hg' (hp.trans (congrArg Policy.key hpolicy.symm))

omit hin hkeys in
theorem credited?_eq_none (hnone : credited? grants lists permission = none) :
    credited? others lists permission = none := by
  rw [credited?_eq_none_iff] at hnone ⊢
  intro h hh hmem
  obtain ⟨g, hg, -, hpolicy⟩ := hof h hh
  exact hnone g hg (hpolicy ▸ hmem)

omit hkeys in
theorem anyMatch_deny_congr (permission : Given) :
    Pattern.anyMatch permission ((grants.mergeSort Grant.le).flatMap (·.policy.deny)) =
      Pattern.anyMatch permission ((others.mergeSort Grant.le).flatMap (·.policy.deny)) := by
  have hdenied {xs ys : List Grant} (hpairs : Grant.PairsIn xs ys)
      (h : ∃ g ∈ xs.mergeSort Grant.le, g.denies permission = true) :
      ∃ g ∈ ys.mergeSort Grant.le, g.denies permission = true := by
    obtain ⟨g, hg, hden⟩ := h
    obtain ⟨g', hg', -, hpolicy⟩ := hpairs g (List.mem_mergeSort.1 hg)
    rw [Grant.denies, ← hpolicy] at hden
    exact ⟨g', List.mem_mergeSort.2 hg', hden⟩
  rw [Bool.eq_iff_iff, anyMatch_flatMap_deny, anyMatch_flatMap_deny]
  exact ⟨hdenied hin, hdenied hof⟩

theorem mem_effectivePermissions_of_pairs (h : e ∈ effectivePermissions grants) :
    e ∈ effectivePermissions others := by
  rw [mem_effectivePermissions_iff] at h ⊢
  rcases h with ⟨g, hg, he⟩ | ⟨hnone, g, hg, he⟩
  · obtain ⟨g', hg', hrole, hpolicy⟩ := exists_credited hin hof hkeys hg
    refine .inl ⟨g', hg', ?_⟩
    rw [ofDeny, hrole, hpolicy]
    exact he
  · obtain ⟨g', hg', hrole, hpolicy⟩ := exists_credited hin hof hkeys hg
    refine .inr ⟨credited?_eq_none hof hnone, g', hg', ?_⟩
    rw [ofAllow, hrole, hpolicy, ← anyMatch_deny_congr hin hof]
    exact he

end

/-- The enumeration of effective permissions depends on the pairs of a role key and a policy alone:
not on assignments, on repetitions, or on the order of the grants. -/
theorem effectivePermissions_congr (hin : Grant.PairsIn grants others)
    (hof : Grant.PairsIn others grants) (hkeys : Grant.KeysPolicies grants)
    (hkeys' : Grant.KeysPolicies others) :
    effectivePermissions grants = effectivePermissions others := by
  rw [effectivePermissions, effectivePermissions]
  refine mergeSort_eq_of_perm (·.permission) (fun a b => decide_eq_true_iff)
    (fun a ha b hb hab => List.inj_on_of_nodup_map nodup_map_distinctBy ha hb hab) ?_
  refine (List.perm_ext_iff_of_nodup nodup_map_distinctBy.of_map
    nodup_map_distinctBy.of_map).2 fun e => ?_
  have hmem : e ∈ effectivePermissions grants ↔ e ∈ effectivePermissions others :=
    ⟨mem_effectivePermissions_of_pairs hin hof hkeys',
      mem_effectivePermissions_of_pairs hof hin hkeys⟩
  simpa only [effectivePermissions, List.mem_mergeSort] using hmem

end Entitlements
