import Entitlements.Access.Grant
import Mathlib.Data.List.Perm.Basic
import Mathlib.Data.List.Sort
import Mathlib.Data.String.Basic

/-!
Lists without repetitions, and lists in order. `distinctBy` keeps, of the members that share a key,
the one that comes first, so a key occurs among what is kept exactly when it occurs at all, and
occurs there once. Sorting by a key that tells the members apart leaves no trace of the order
before, and the first of its kind in a sorted list is the least of its kind.
-/

namespace Entitlements

section

variable [BEq κ] {key : α → κ} {seen : List κ} {xs ys : List α} {x : α}

theorem mem_of_mem_distinctBy (h : x ∈ distinctBy key seen xs) : x ∈ xs := by
  induction xs generalizing seen with
  | nil => simp [distinctBy] at h
  | cons y xs ih =>
    rw [distinctBy] at h
    split at h
    · exact List.mem_cons_of_mem _ (ih h)
    · rcases List.mem_cons.1 h with rfl | h
      · exact List.mem_cons_self
      · exact List.mem_cons_of_mem _ (ih h)

variable [LawfulBEq κ]

/-- What is kept has a key that was not seen before. -/
theorem not_seen_of_mem_distinctBy (h : x ∈ distinctBy key seen xs) : key x ∉ seen := by
  induction xs generalizing seen with
  | nil => simp [distinctBy] at h
  | cons y xs ih =>
    rw [distinctBy] at h
    split at h
    · exact ih h
    · next hy =>
      rcases List.mem_cons.1 h with rfl | h
      · simpa using hy
      · exact fun hs => ih h (List.mem_cons_of_mem _ hs)

theorem exists_mem_distinctBy (hx : x ∈ xs) (hs : key x ∉ seen) :
    ∃ y ∈ distinctBy key seen xs, key y = key x := by
  induction xs generalizing seen with
  | nil => simp at hx
  | cons y xs ih =>
    rw [distinctBy]
    split
    · next hy =>
      rcases List.mem_cons.1 hx with rfl | hx
      · exact absurd (by simpa using hy) hs
      · exact ih hx hs
    · by_cases hk : key x = key y
      · exact ⟨y, List.mem_cons_self, hk.symm⟩
      · have hx : x ∈ xs := by
          rcases List.mem_cons.1 hx with rfl | hx
          · exact absurd rfl hk
          · exact hx
        have hs' : key x ∉ key y :: seen := by simp [hk, hs]
        obtain ⟨z, hz, hzk⟩ := ih hx hs'
        exact ⟨z, List.mem_cons_of_mem _ hz, hzk⟩

/-- What is kept is what a search by its key finds first. -/
theorem mem_distinctBy_iff :
    x ∈ distinctBy key seen xs ↔ key x ∉ seen ∧ xs.find? (key · == key x) = some x := by
  induction xs generalizing seen with
  | nil => simp [distinctBy]
  | cons y xs ih =>
    rw [distinctBy, List.find?_cons]
    by_cases hyx : key y = key x
    · -- The head is what the search finds, and it is kept unless its key was seen.
      rw [beq_iff_eq.2 hyx]
      split
      · next hy =>
        rw [hyx, List.contains_iff_mem] at hy
        exact iff_of_false (fun h => not_seen_of_mem_distinctBy h hy) fun h => h.1 hy
      · next hy =>
        rw [hyx, List.contains_iff_mem] at hy
        constructor
        · intro h
          rcases List.mem_cons.1 h with rfl | h
          · exact ⟨hy, rfl⟩
          · exact absurd (hyx ▸ List.mem_cons_self) (not_seen_of_mem_distinctBy h)
        · rintro ⟨-, h⟩
          rw [Option.some.inj h]
          exact List.mem_cons_self
    · have hne : (key y == key x) = false := by simpa using hyx
      have hxy : x ≠ y := fun h => hyx (congrArg key h.symm)
      rw [hne]
      split
      · exact ih
      · rw [List.mem_cons, ih, List.mem_cons]
        simp [hxy, Ne.symm hyx]

theorem nodup_map_distinctBy : ((distinctBy key seen xs).map key).Nodup := by
  induction xs generalizing seen with
  | nil => simp [distinctBy]
  | cons y xs ih =>
    rw [distinctBy]
    split
    · exact ih
    · rw [List.map_cons, List.nodup_cons]
      refine ⟨fun hm => ?_, ih⟩
      obtain ⟨z, hz, hzk⟩ := List.mem_map.1 hm
      exact not_seen_of_mem_distinctBy hz (by simp [hzk])

/-- A second list adds only members whose key the first one does not have. -/
theorem mem_or_new_of_mem_distinctBy_append (h : x ∈ distinctBy key seen (xs ++ ys)) :
    x ∈ xs ∨ x ∈ ys ∧ ∀ y ∈ xs, key y ≠ key x := by
  induction xs generalizing seen with
  | nil => exact .inr ⟨mem_of_mem_distinctBy h, by simp⟩
  | cons y xs ih =>
    rw [List.cons_append, distinctBy] at h
    split at h
    · next hy =>
      rcases ih h with hx | ⟨hx, hnew⟩
      · exact .inl (List.mem_cons_of_mem _ hx)
      · have hyx : key y ≠ key x := by
          intro hk
          exact not_seen_of_mem_distinctBy h (hk ▸ by simpa using hy)
        exact .inr ⟨hx, List.forall_mem_cons.2 ⟨hyx, hnew⟩⟩
    · rcases List.mem_cons.1 h with rfl | h
      · exact .inl List.mem_cons_self
      · have hyx : key y ≠ key x := by
          intro hk
          exact not_seen_of_mem_distinctBy h (by simp [hk])
        rcases ih h with hx | ⟨hx, hnew⟩
        · exact .inl (List.mem_cons_of_mem _ hx)
        · exact .inr ⟨hx, List.forall_mem_cons.2 ⟨hyx, hnew⟩⟩

@[simp] theorem mem_distinct [BEq α] [LawfulBEq α] {xs : List α} {x : α} :
    x ∈ distinct xs ↔ x ∈ xs := by
  constructor
  · exact mem_of_mem_distinctBy
  · intro hx
    have hfirst : ∃ y ∈ distinctBy id [] xs, id y = id x := exists_mem_distinctBy hx (by simp)
    obtain ⟨y, hy, rfl⟩ := hfirst
    exact hy

theorem nodup_distinct [BEq α] [LawfulBEq α] (xs : List α) : (distinct xs).Nodup := by
  have h : ((distinct xs).map id).Nodup := nodup_map_distinctBy
  rwa [List.map_id] at h

end

/-! ### Sorted texts -/

@[simp] theorem mem_sortTexts {texts : List String} {s : String} :
    s ∈ sortTexts texts ↔ s ∈ texts := List.mem_mergeSort

theorem nodup_sortTexts {texts : List String} (h : texts.Nodup) : (sortTexts texts).Nodup :=
  (List.mergeSort_perm texts _).nodup_iff.2 h

/-! ### Sorting by a key -/

section

variable {κ : Type} [LinearOrder κ] {le : α → α → Bool} {key : α → κ} {xs ys : List α} {x : α}

theorem pairwise_mergeSort_of_key (hle : ∀ a b, le a b = true ↔ key a ≤ key b) (xs : List α) :
    (xs.mergeSort le).Pairwise fun a b => key a ≤ key b := by
  have hsorted : (xs.mergeSort le).Pairwise fun a b => le a b = true := by
    refine List.pairwise_mergeSort ?_ ?_ xs
    · intro a b c hab hbc
      exact (hle a c).2 (le_trans ((hle a b).1 hab) ((hle b c).1 hbc))
    · intro a b
      rw [Bool.or_eq_true, hle, hle]
      exact le_total _ _
  exact hsorted.imp fun {a b} h => (hle a b).1 h

/-- Sorting by what tells members apart leaves no trace of the order before. -/
theorem mergeSort_eq_of_perm (key : α → κ) (hle : ∀ a b, le a b = true ↔ key a ≤ key b)
    (hkey : ∀ a ∈ xs, ∀ b ∈ xs, key a = key b → a = b) (h : xs.Perm ys) :
    xs.mergeSort le = ys.mergeSort le := by
  have hperm := (List.mergeSort_perm xs le).trans (h.trans (List.mergeSort_perm ys le).symm)
  refine List.Perm.eq_of_pairwise ?_ (pairwise_mergeSort_of_key hle xs)
    (pairwise_mergeSort_of_key hle ys) hperm
  intro a b ha hb hab hba
  exact hkey a (List.mem_mergeSort.1 ha) b (h.mem_iff.2 (List.mem_mergeSort.1 hb))
    (le_antisymm hab hba)

/-- The first of its kind in a sorted list is the least of its kind. -/
theorem le_of_find?_mergeSort (hle : ∀ a b, le a b = true ↔ key a ≤ key b) {p : α → Bool}
    (h : (xs.mergeSort le).find? p = some x) : ∀ y ∈ xs, p y = true → key x ≤ key y := by
  intro y hy hp
  obtain ⟨-, before, after, hsplit, hnone⟩ := List.find?_eq_some_iff_append.1 h
  have hsorted := pairwise_mergeSort_of_key hle xs
  rw [hsplit] at hsorted
  have hmem : y ∈ before ++ x :: after := hsplit ▸ List.mem_mergeSort.2 hy
  rcases List.mem_append.1 hmem with hbefore | hrest
  · have hother := hnone y hbefore
    rw [hp] at hother
    cases hother
  · rcases List.mem_cons.1 hrest with rfl | hafter
    · exact le_refl _
    · exact (List.pairwise_cons.1 (List.pairwise_append.1 hsorted).2.1).1 y hafter

end

/-- Sorted texts without repetitions ascend strictly. -/
theorem pairwise_lt_sortTexts {texts : List String} (h : texts.Nodup) :
    (sortTexts texts).Pairwise (· < ·) := by
  have hle : (sortTexts texts).Pairwise fun a b => id a ≤ id b :=
    pairwise_mergeSort_of_key (fun _ _ => decide_eq_true_iff) texts
  exact (hle.and (nodup_sortTexts h)).imp fun ⟨hle, hne⟩ => lt_of_le_of_ne hle hne

/-- Sorted texts without repetitions are the set of their members. -/
theorem sortTexts_distinct_congr {texts others : List String}
    (h : ∀ s, s ∈ texts ↔ s ∈ others) :
    sortTexts (distinct texts) = sortTexts (distinct others) := by
  refine mergeSort_eq_of_perm id (fun a b => decide_eq_true_iff) (fun a _ b _ hab => hab) ?_
  refine (List.perm_ext_iff_of_nodup (nodup_distinct texts) (nodup_distinct others)).2 fun s => ?_
  rw [mem_distinct, mem_distinct]
  exact h s

end Entitlements
