import Entitlements.Proofs.Json.ReadBack
import Entitlements.Proofs.Schema.Fields
import Mathlib.Data.List.Sort

/-!
What the canonical text tells. It is the text of the sorted value, so for values without fractions
two canonical texts are equal exactly when the sorted values are. Sorting forgets the order of
fields and nothing else: objects with different keys become equal exactly when they are equal as
maps, their members sorted.
-/

namespace Entitlements

namespace Keyed

variable {entries others : Keyed α}

/-! ### Maps with different keys -/

theorem mem_iff_get? (h : entries.keys.Nodup) {key : String} {a : α} :
    (key, a) ∈ entries ↔ entries.get? key = some a := by
  induction entries generalizing a with
  | nil => simp
  | cons e entries ih =>
    obtain ⟨k, b⟩ := e
    simp only [keys, List.map_cons, List.nodup_cons] at h
    rw [List.mem_cons, get?_cons, ih h.2]
    by_cases hk : key = k
    · subst hk
      have hrest : ∀ a, get? entries key ≠ some a := fun a ha =>
        h.1 (List.mem_map_of_mem (f := (·.1)) ((ih h.2).2 ha))
      simp [hrest, eq_comm]
    · simp [hk]

theorem perm_iff_get? (h : entries.keys.Nodup) (ho : others.keys.Nodup) :
    entries.Perm others ↔ ∀ key, entries.get? key = others.get? key := by
  rw [List.perm_ext_iff_of_nodup (h.of_map _) (ho.of_map _)]
  constructor
  · intro hmem key
    ext a
    rw [← mem_iff_get? h, ← mem_iff_get? ho, hmem]
  · rintro hget ⟨key, a⟩
    rw [mem_iff_get? h, mem_iff_get? ho, hget]

theorem get?_map (f : α → β) (entries : Keyed α) (key : String) :
    get? (entries.map fun e => (e.1, f e.2)) key = (entries.get? key).map f := by
  induction entries with
  | nil => rfl
  | cons e entries ih =>
    rw [List.map_cons, get?_cons, ih, get?_cons]
    split <;> rfl

end Keyed

namespace Json

/-! ### Sorting -/

theorem sortedItems_eq_map (xs : List Json) : sortedItems xs = xs.map sorted := by
  induction xs with
  | nil => rfl
  | cons x xs ih => rw [sortedItems, ih, List.map_cons]

theorem sortedFields_eq_map (fields : Fields) :
    sortedFields fields = fields.map fun e => (e.1, sorted e.2) := by
  induction fields with
  | nil => rfl
  | cons e fields ih => rw [sortedFields, ih, List.map_cons]

@[simp] theorem sorted_null : sorted .null = .null := rfl

@[simp] theorem sorted_bool (b : Bool) : sorted (.bool b) = .bool b := rfl

@[simp] theorem sorted_int (n : Int) : sorted (.int n) = .int n := rfl

@[simp] theorem sorted_str (s : String) : sorted (.str s) = .str s := rfl

@[simp] theorem sorted_arr (xs : List Json) : sorted (.arr xs) = .arr (xs.map sorted) := by
  rw [sorted, sortedItems_eq_map]

theorem sorted_obj (fields : Fields) :
    sorted (.obj fields) = .obj ((fields.map fun e => (e.1, sorted e.2)).mergeSort keyLe) := by
  rw [sorted, sortedFields_eq_map]

@[simp] theorem sorted_ofTexts (texts : List String) :
    sorted (.ofTexts texts) = .ofTexts texts := by
  simp [ofTexts]

theorem pairwise_mergeSort_keyLe (fields : Fields) :
    (fields.mergeSort keyLe).Pairwise fun a b => keyLe a b = true := by
  refine List.pairwise_mergeSort ?_ ?_ fields
  · intro a b c hab hbc
    exact decide_eq_true (String.le_trans (of_decide_eq_true hab) (of_decide_eq_true hbc))
  · intro a b
    rcases String.le_total a.1 b.1 with h | h
    · rw [keyLe, decide_eq_true h, Bool.true_or]
    · rw [Bool.or_eq_true]
      exact .inr (decide_eq_true h)

/-- Fields with different keys have one order, so sorting forgets no more than the order. -/
theorem mergeSort_keyLe_eq_iff {fields others : Fields} (h : (Keyed.keys fields).Nodup)
    (ho : (Keyed.keys others).Nodup) :
    fields.mergeSort keyLe = others.mergeSort keyLe ↔
      ∀ key, Keyed.get? fields key = Keyed.get? others key := by
  rw [← Keyed.perm_iff_get? h ho]
  have hf := List.mergeSort_perm fields keyLe
  have hg := List.mergeSort_perm others keyLe
  constructor
  · intro heq
    exact (heq ▸ hf.symm).trans hg
  · intro hperm
    refine List.Perm.eq_of_pairwise ?_ (pairwise_mergeSort_keyLe fields)
      (pairwise_mergeSort_keyLe others) ((hf.trans hperm).trans hg.symm)
    intro a b ha hb hab hba
    have hkey : a.1 = b.1 :=
      String.le_antisymm (of_decide_eq_true hab) (of_decide_eq_true hba)
    exact List.inj_on_of_nodup_map h (hf.mem_iff.1 ha)
      (hperm.mem_iff.2 (hg.mem_iff.1 hb)) hkey

/-- Objects are equal when sorted if and only if they are equal as maps of sorted members. -/
theorem sorted_obj_eq_iff {fields others : Fields} (h : (Keyed.keys fields).Nodup)
    (ho : (Keyed.keys others).Nodup) :
    sorted (.obj fields) = sorted (.obj others) ↔
      ∀ key, (Keyed.get? fields key).map sorted = (Keyed.get? others key).map sorted := by
  rw [sorted_obj, sorted_obj, Json.obj.injEq, mergeSort_keyLe_eq_iff]
  · simp only [Keyed.get?_map]
  · rwa [Keyed.keys_map]
  · rwa [Keyed.keys_map]

/-! ### Canonical text -/

theorem IsExact.sorted {x : Json} (h : x.IsExact) : x.sorted.IsExact := by
  induction h with
  | null => exact .null
  | bool b => exact .bool b
  | int n => exact .int n
  | str s => exact .str s
  | arr _ ih =>
    rw [sorted_arr]
    refine .arr fun y hy => ?_
    obtain ⟨x, hx, rfl⟩ := List.mem_map.1 hy
    exact ih x hx
  | obj _ ih =>
    rw [sorted_obj]
    refine .obj fun e he => ?_
    obtain ⟨e', he', rfl⟩ := List.mem_map.1 (List.mem_mergeSort.1 he)
    exact ih e' he'

theorem canonical_eq_iff {x y : Json} (hx : x.IsExact) (hy : y.IsExact) :
    x.canonical = y.canonical ↔ x.sorted = y.sorted :=
  ⟨fun h => hx.sorted.eq_of_text hy.sorted h, fun h => congrArg text h⟩

end Json

end Entitlements
