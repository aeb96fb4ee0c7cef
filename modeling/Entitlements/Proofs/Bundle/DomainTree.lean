import Entitlements.Bundle.DomainTree
import Entitlements.Proofs.Access.Distinct

/-!
What the domain view permits. The tree is made by grouping the leaves three times over, and looking
up a group gives back the leaves that were put into it. So the way down to an action is open exactly
when some leaf has all four parts, that is, when some allowed entry is read as the key.
-/

namespace Entitlements

namespace Keyed

/-- Looking up in a map that is tabulated over its keys. -/
theorem get?_tabulate (f : String → α) (names : List String) (key : String) :
    get? (names.map fun name => (name, f name)) key =
      if key ∈ names then some (f key) else none := by
  induction names with
  | nil => simp
  | cons name names ih =>
    rw [List.map_cons, get?_cons, ih]
    by_cases h : key = name
    · subst h
      simp
    · simp [h]

end Keyed

namespace DomainTree

variable {part : DomainKey → String} {build : List Leaf → β} {leaves : List Leaf}

@[simp] theorem mem_ascending {texts : List String} {s : String} :
    s ∈ ascending texts ↔ s ∈ texts := by
  simp [ascending]

theorem nodup_ascending (texts : List String) : (ascending texts).Nodup :=
  nodup_sortTexts (nodup_distinct texts)

theorem keys_groupBy (part : DomainKey → String) (build : List Leaf → β) (leaves : List Leaf) :
    Keyed.keys (groupBy part build leaves) = ascending (leaves.map (part ·.1)) := by
  rw [groupBy, Keyed.keys, List.map_map]
  exact List.map_id _

theorem get?_groupBy (name : String) :
    Keyed.get? (groupBy part build leaves) name =
      if ∃ leaf ∈ leaves, part leaf.1 = name then
        some (build (leaves.filter (part ·.1 == name)))
      else none := by
  rw [groupBy, Keyed.get?_tabulate (fun name => build (leaves.filter (part ·.1 == name)))]
  simp only [mem_ascending, List.mem_map]

/-- The leaves below a location. -/
def leavesAt (leaves : List Leaf) (domain equipment location : String) : List Leaf :=
  ((leaves.filter (·.1.domain == domain)).filter (·.1.equipment == equipment)).filter
    (·.1.location == location)

theorem mem_leavesAt {domain equipment location : String} {leaf : Leaf} :
    leaf ∈ leavesAt leaves domain equipment location ↔
      leaf ∈ leaves ∧ leaf.1.domain = domain ∧ leaf.1.equipment = equipment ∧
        leaf.1.location = location := by
  simp only [leavesAt, List.mem_filter, beq_iff_eq, and_assoc]

theorem get?_groupBy_eq_ite (name : String) :
    Keyed.get? (groupBy part build leaves) name =
      if (leaves.filter (part ·.1 == name)).isEmpty then none
      else some (build (leaves.filter (part ·.1 == name))) := by
  rw [get?_groupBy]
  by_cases h : ∃ leaf ∈ leaves, part leaf.1 = name
  · obtain ⟨leaf, hleaf, hpart⟩ := h
    have hne : (leaves.filter (part ·.1 == name)).isEmpty = false := by
      simp only [List.isEmpty_eq_false_iff_exists_mem, List.mem_filter, beq_iff_eq]
      exact ⟨leaf, hleaf, hpart⟩
    rw [if_pos ⟨leaf, hleaf, hpart⟩, hne]
    rfl
  · have hempty : (leaves.filter (part ·.1 == name)).isEmpty = true := by
      simp only [List.isEmpty_iff, List.filter_eq_nil_iff, beq_iff_eq]
      exact fun leaf hleaf hpart => h ⟨leaf, hleaf, hpart⟩
    rw [if_neg h, hempty]
    rfl

/-- A location is there when leaves are put below it, and then it holds all of them. -/
theorem node?_ofLeaves (domain equipment place : String) :
    node? (ofLeaves leaves) domain equipment place =
      if (leavesAt leaves domain equipment place).isEmpty then none
      else some (location (leavesAt leaves domain equipment place)) := by
  unfold node? ofLeaves leavesAt
  rw [get?_groupBy_eq_ite]
  split
  · next hd => simp [List.isEmpty_iff.1 hd]
  · rw [Option.bind_eq_bind, Option.bind_some, get?_groupBy_eq_ite]
    split
    · next he => simp [List.isEmpty_iff.1 he]
    · rw [Option.bind_eq_bind, Option.bind_some, get?_groupBy_eq_ite]

theorem permits_ofLeaves {key : DomainKey} :
    permits (ofLeaves leaves) key = true ↔ ∃ leaf ∈ leaves, leaf.1 = key := by
  unfold permits
  rw [node?_ofLeaves]
  constructor
  · intro h
    split at h
    · next node hnode =>
      split at hnode
      · cases hnode
      · cases hnode
        simp only [location, List.contains_iff_mem, mem_ascending, List.mem_map] at h
        -- The action comes from a leaf below the same location, so that leaf is the key.
        obtain ⟨leaf, hleaf, ha⟩ := h
        obtain ⟨hmem, hd, he, hl⟩ := mem_leavesAt.1 hleaf
        refine ⟨leaf, hmem, ?_⟩
        rcases leaf with ⟨⟨_, _, _, _⟩, _⟩
        rcases key with ⟨_, _, _, _⟩
        simp_all
    · cases h
  · rintro ⟨leaf, hmem, rfl⟩
    have hleaf : leaf ∈ leavesAt leaves leaf.1.domain leaf.1.equipment leaf.1.location :=
      mem_leavesAt.2 ⟨hmem, rfl, rfl, rfl⟩
    have hne : (leavesAt leaves leaf.1.domain leaf.1.equipment leaf.1.location).isEmpty = false :=
      List.isEmpty_eq_false_iff_exists_mem.2 ⟨leaf, hleaf⟩
    rw [hne]
    simp only [location, Bool.false_eq_true, ↓reduceIte, List.contains_iff_mem, mem_ascending]
    exact List.mem_map.2 ⟨leaf, hleaf, rfl⟩

theorem leaf?_eq_some_iff {e : EffectivePermission} {leaf : Leaf} :
    leaf? e = some leaf ↔
      e.allowed = true ∧ DomainKey.ofPermission? e.permission = some leaf.1 ∧
        e.conditions = leaf.2 := by
  rcases leaf with ⟨key, conditions⟩
  cases h : e.allowed
  · simp [leaf?, h]
  · cases hkey : DomainKey.ofPermission? e.permission <;> simp [leaf?, h, hkey]

/-- The domain view permits a key when an allowed entry is read as that key. -/
theorem permits_ofPermissions {entries : List EffectivePermission} {key : DomainKey} :
    permits (ofPermissions entries) key = true ↔
      ∃ e ∈ entries, e.allowed = true ∧ DomainKey.ofPermission? e.permission = some key := by
  simp only [ofPermissions, permits_ofLeaves, List.mem_filterMap, leaf?_eq_some_iff]
  constructor
  · rintro ⟨leaf, ⟨e, he, ha, hkey, -⟩, rfl⟩
    exact ⟨e, he, ha, hkey⟩
  · rintro ⟨e, he, ha, hkey⟩
    exact ⟨(key, e.conditions), ⟨e, he, ha, hkey, rfl⟩, rfl⟩

end DomainTree

end Entitlements
