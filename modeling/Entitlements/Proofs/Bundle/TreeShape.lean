import Entitlements.Proofs.Bundle.DomainTree
import Entitlements.Proofs.Permission.DomainSpelling

/-!
What the domain view is made of. Grouping by a part of the keys gives a map with its keys in order,
and a member of it is built from a group, which is never empty. Both hold at each of the three
levels, so no inner map of the tree is empty and no location is without actions. The conditions of a
location are those of the first entry below it that carries any; entries that belong elsewhere do
not count, wherever they stand.
-/

namespace Entitlements

/-! ### Order -/

/-- Are the keys of a map in strictly ascending order, and is something true of each member? -/
structure Keyed.Ordered (P : α → Prop) (map : Keyed α) : Prop where
  ascending : (keys map).Pairwise (· < ·)
  members : ∀ entry ∈ map, P entry.2

/-- The actions of a location: at least one, and each of them once. -/
structure LocationActions.Ordered (node : LocationActions) : Prop where
  nonempty : node.actions ≠ []
  ascending : node.actions.Pairwise (· < ·)

namespace DomainTree

/-- Is a tree in order at every level, with nothing empty below its domains? -/
def Ordered : DomainTree → Prop :=
  Keyed.Ordered fun equipments => equipments ≠ [] ∧
    Keyed.Ordered (fun locations => locations ≠ [] ∧
      Keyed.Ordered LocationActions.Ordered locations) equipments

section

variable {part : DomainKey → String} {build : List Leaf → β} {leaves : List Leaf}

theorem ascending_pairwise (texts : List String) : (ascending texts).Pairwise (· < ·) :=
  pairwise_lt_sortTexts (nodup_distinct texts)

theorem ascending_ne_nil {texts : List String} (h : texts ≠ []) : ascending texts ≠ [] := by
  obtain ⟨text, rest, rfl⟩ := List.exists_cons_of_ne_nil h
  exact List.ne_nil_of_mem (mem_ascending.2 List.mem_cons_self)

theorem groupBy_ne_nil (h : leaves ≠ []) : groupBy part build leaves ≠ [] := by
  have hkeys : ascending (leaves.map (part ·.1)) ≠ [] := ascending_ne_nil (by simpa using h)
  simpa [groupBy] using hkeys

/-- What holds of everything that is built from a group holds of each member. -/
theorem ordered_groupBy {P : β → Prop} (h : ∀ group, group ≠ [] → P (build group)) :
    Keyed.Ordered P (groupBy part build leaves) where
  ascending := by
    rw [keys_groupBy]
    exact ascending_pairwise _
  members entry hentry := by
    obtain ⟨name, hname, rfl⟩ := List.mem_map.1 hentry
    obtain ⟨leaf, hleaf, hpart⟩ := List.mem_map.1 (mem_ascending.1 hname)
    exact h _ (List.ne_nil_of_mem (List.mem_filter.2 ⟨hleaf, beq_iff_eq.2 hpart⟩))

theorem ordered_location (h : leaves ≠ []) : (location leaves).Ordered where
  nonempty := ascending_ne_nil (by simpa using h)
  ascending := ascending_pairwise _

end

theorem ordered_ofPermissions (entries : List EffectivePermission) :
    (ofPermissions entries).Ordered :=
  ordered_groupBy fun _ hequipments => ⟨groupBy_ne_nil hequipments,
    ordered_groupBy fun _ hlocations => ⟨groupBy_ne_nil hlocations,
      ordered_groupBy fun _ => ordered_location⟩⟩

end DomainTree

/-! ### Conditions -/

section

variable {entries : List EffectivePermission} {e : EffectivePermission}
  {domain equipment place : String} {node : LocationActions} {c : Conditions}

/-- Does an entry put an action at a location? -/
def EffectivePermission.PutsAt (e : EffectivePermission) (domain equipment place : String) : Prop :=
  e.allowed = true ∧ ∃ action, DomainKey.IsReadFrom ⟨domain, equipment, place, action⟩ e.permission

namespace DomainTree

/-- The leaf that an entry puts at a location. -/
def leafAt? (domain equipment place : String) (e : EffectivePermission) : Option Leaf :=
  (leaf? e).filter fun leaf =>
    leaf.1.domain == domain && leaf.1.equipment == equipment && leaf.1.location == place

theorem leavesAt_filterMap :
    leavesAt (entries.filterMap leaf?) domain equipment place =
      entries.filterMap (leafAt? domain equipment place) := by
  rw [leavesAt, List.filter_filter, List.filter_filter, List.filter_filterMap]
  congr 1
  funext e
  rw [leafAt?]
  congr 1
  funext leaf
  ac_rfl

theorem leafAt?_eq_some_iff {leaf : Leaf} :
    leafAt? domain equipment place e = some leaf ↔
      e.allowed = true ∧ leaf.1.IsReadFrom e.permission ∧ e.conditions = leaf.2 ∧
        leaf.1.domain = domain ∧ leaf.1.equipment = equipment ∧ leaf.1.location = place := by
  simp only [leafAt?, Option.filter_eq_some_iff, leaf?_eq_some_iff,
    DomainKey.ofPermission?_eq_some_iff_isReadFrom, Bool.and_eq_true, beq_iff_eq, and_assoc]

theorem bind_leafAt?_eq_some_iff :
    (leafAt? domain equipment place e).bind (·.2) = some c ↔
      e.PutsAt domain equipment place ∧ e.conditions = some c := by
  simp only [Option.bind_eq_some_iff, leafAt?_eq_some_iff]
  constructor
  · rintro ⟨⟨key, conditions⟩, ⟨ha, hread, hc, rfl, rfl, rfl⟩, rfl⟩
    exact ⟨⟨ha, key.action, hread⟩, hc⟩
  · rintro ⟨⟨ha, action, hread⟩, hc⟩
    exact ⟨⟨_, some c⟩, ⟨ha, hread, hc, rfl, rfl, rfl⟩, rfl⟩

theorem bind_leafAt?_eq_none_iff :
    (leafAt? domain equipment place e).bind (·.2) = none ↔
      (e.PutsAt domain equipment place → e.conditions = none) := by
  constructor
  · intro hnone hputs
    rcases hc : e.conditions with _ | c
    · rfl
    · rw [bind_leafAt?_eq_some_iff.2 ⟨hputs, hc⟩] at hnone
      cases hnone
  · intro h
    rcases hbind : (leafAt? domain equipment place e).bind (·.2) with _ | c
    · rfl
    · obtain ⟨hputs, hc⟩ := bind_leafAt?_eq_some_iff.1 hbind
      rw [h hputs] at hc
      cases hc

/-- A location of the tree has what the entries say of it, in their order. -/
theorem conditions_of_node? (h : node? (ofPermissions entries) domain equipment place = some node) :
    node.conditions =
      entries.findSome? fun e => (leafAt? domain equipment place e).bind (·.2) := by
  rw [ofPermissions, node?_ofLeaves] at h
  split at h
  · cases h
  · cases h
    rw [location, leavesAt_filterMap, ← List.head?_filterMap, List.filterMap_filterMap,
      List.head?_filterMap]

theorem conditions_eq_some_iff
    (h : node? (ofPermissions entries) domain equipment place = some node) :
    node.conditions = some c ↔ ∃ before e after, entries = before ++ e :: after ∧
      e.PutsAt domain equipment place ∧ e.conditions = some c ∧
        ∀ x ∈ before, x.PutsAt domain equipment place → x.conditions = none := by
  simp only [conditions_of_node? h, List.findSome?_eq_some_iff, bind_leafAt?_eq_some_iff,
    bind_leafAt?_eq_none_iff, and_assoc]

theorem conditions_eq_none_iff
    (h : node? (ofPermissions entries) domain equipment place = some node) :
    node.conditions = none ↔
      ∀ e ∈ entries, e.PutsAt domain equipment place → e.conditions = none := by
  simp only [conditions_of_node? h, List.findSome?_eq_none_iff, bind_leafAt?_eq_none_iff]

/-- What an action is allowed under, some conditions of its location stand for. -/
theorem conditions_ne_none_of_mem
    (h : node? (ofPermissions entries) domain equipment place = some node) (he : e ∈ entries)
    (hputs : e.PutsAt domain equipment place) (hc : e.conditions ≠ none) :
    node.conditions ≠ none :=
  fun hnone => hc ((conditions_eq_none_iff h).1 hnone e he hputs)

end DomainTree

end

end Entitlements
