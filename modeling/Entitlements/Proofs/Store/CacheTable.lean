import Entitlements.Store.BundleCache
import Mathlib.Data.List.Nodup

/-!
The table of cached bundles as a map. Rows are found by tenant, user and scope, and no two rows
share all three, so the table is what its look-ups answer. Each thing that is done to it shows in
the look-ups by an equation of its own: a written row is found in the place of the one before it,
and what happens to every row in the same way happens to the row that is found.
-/

namespace Entitlements

open Time

namespace CacheRow

variable {r q : CacheRow} {tenant user scope : Given}

/-- What a row is found by. -/
def key (r : CacheRow) : String × String × String := (r.tenant, r.userId, r.scope)

theorem hasKey_iff :
    r.hasKey tenant user scope = true ↔
      some r.tenant = tenant ∧ some r.userId = user ∧ some r.scope = scope := by
  simp [hasKey, and_assoc]

theorem hasKey_some_iff {tenant user scope : String} :
    r.hasKey (some tenant) (some user) (some scope) = true ↔ r.key = (tenant, user, scope) := by
  simp [hasKey_iff, key]

theorem hasKey_self (r : CacheRow) :
    r.hasKey (some r.tenant) (some r.userId) (some r.scope) = true := by
  simp [hasKey]

theorem hasKey_congr (h : r.key = q.key) (tenant user scope : Given) :
    r.hasKey tenant user scope = q.hasKey tenant user scope := by
  simp only [key, Prod.mk.injEq] at h
  rw [hasKey, hasKey, h.1, h.2.1, h.2.2]

/-- A row is found by one key only. -/
theorem key_eq_of_hasKey (hr : r.hasKey tenant user scope = true)
    (hq : q.hasKey tenant user scope = true) : r.key = q.key := by
  obtain ⟨rfl, rfl, rfl⟩ := hasKey_iff.1 hr
  exact (hasKey_some_iff.1 hq).symm

/-- What is a hit has been one since it was written. -/
theorem isHit_of_later {now later : Instant} (hle : now ≤ later) (h : r.isHit later = true) :
    r.isHit now = true := by
  simp only [isHit, Bool.and_eq_true, decide_eq_true_eq] at h ⊢
  exact ⟨h.1, Int.lt_of_le_of_lt hle h.2⟩

end CacheRow

theorem Store.mem_putCacheRow {r row : CacheRow} {rows : List CacheRow}
    (h : r ∈ putCacheRow row rows) : r = row ∨ r ∈ rows := by
  induction rows with
  | nil => exact .inl (List.mem_singleton.1 h)
  | cons q rest ih =>
    rw [putCacheRow] at h
    split at h
    · rcases List.mem_cons.1 h with rfl | h
      · exact .inl rfl
      · exact .inr (List.mem_cons_of_mem _ h)
    · rcases List.mem_cons.1 h with rfl | h
      · exact .inr List.mem_cons_self
      · exact (ih h).imp id (List.mem_cons_of_mem _)

/-- A row that is written is there. -/
theorem Store.mem_putCacheRow_self (row : CacheRow) (rows : List CacheRow) :
    row ∈ putCacheRow row rows := by
  induction rows with
  | nil => exact List.mem_singleton_self row
  | cons r rest ih =>
    rw [putCacheRow]
    split
    · exact List.mem_cons_self
    · exact List.mem_cons_of_mem _ ih

namespace CacheTable

variable {rows : List CacheRow} {r row : CacheRow} {tenant user scope : Given}

/-- The row of a key. -/
def row? (rows : List CacheRow) (tenant user scope : Given) : Option CacheRow :=
  rows.find? fun r => r.hasKey tenant user scope

/-- Is there one row for each key at most? -/
def HasDistinctKeys (rows : List CacheRow) : Prop := (rows.map CacheRow.key).Nodup

/-- Searching for a row of a key finds it whatever else is asked of it. -/
theorem find?_eq_some_iff (h : HasDistinctKeys rows) (p : CacheRow → Bool) :
    (rows.find? fun r => r.hasKey tenant user scope && p r) = some row ↔
      row ∈ rows ∧ row.hasKey tenant user scope = true ∧ p row = true := by
  constructor
  · intro hrow
    have hfound := List.find?_some hrow
    rw [Bool.and_eq_true] at hfound
    exact ⟨List.mem_of_find?_eq_some hrow, hfound⟩
  · rintro ⟨hmem, hkey, hp⟩
    have hsome : (rows.find? fun r => r.hasKey tenant user scope && p r).isSome = true :=
      List.find?_isSome.2 ⟨row, hmem, by rw [hkey, hp]; rfl⟩
    obtain ⟨q, hq⟩ := Option.isSome_iff_exists.1 hsome
    have hfound := List.find?_some hq
    rw [Bool.and_eq_true] at hfound
    have hsame : q = row := List.inj_on_of_nodup_map h (List.mem_of_find?_eq_some hq) hmem
      (CacheRow.key_eq_of_hasKey hfound.1 hkey)
    rw [hq, hsame]

theorem row?_eq_some_iff (h : HasDistinctKeys rows) :
    row? rows tenant user scope = some row ↔
      row ∈ rows ∧ row.hasKey tenant user scope = true := by
  simpa [row?] using find?_eq_some_iff h fun _ => true

/-- The row of a key is the only one. -/
theorem filter_hasKey (h : HasDistinctKeys rows) :
    rows.filter (·.hasKey tenant user scope) = (row? rows tenant user scope).toList := by
  induction rows with
  | nil => rfl
  | cons r rest ih =>
    obtain ⟨hnew, hrest⟩ := List.nodup_cons.1 h
    rw [row?, List.filter_cons, List.find?_cons]
    rcases hr : r.hasKey tenant user scope with _ | _
    · exact ih hrest
    · -- Another row of the key would have the key of this one.
      have hothers : rest.filter (·.hasKey tenant user scope) = [] := by
        refine List.filter_eq_nil_iff.2 fun q hq hfound => hnew ?_
        rw [CacheRow.key_eq_of_hasKey hr hfound]
        exact List.mem_map_of_mem hq
      simp [hothers]

/-! ### Writing -/

theorem keys_putCacheRow :
    (Store.putCacheRow row rows).map CacheRow.key =
      if row.key ∈ rows.map CacheRow.key then rows.map CacheRow.key
      else rows.map CacheRow.key ++ [row.key] := by
  induction rows with
  | nil => rfl
  | cons r rest ih =>
    rw [Store.putCacheRow]
    split
    · next hr =>
      have hsame : r.key = row.key := CacheRow.hasKey_some_iff.1 hr
      simp [hsame]
    · next hr =>
      have hne : row.key ≠ r.key := fun h => hr (CacheRow.hasKey_some_iff.2 h.symm)
      rw [List.map_cons, ih]
      by_cases hmem : row.key ∈ rest.map CacheRow.key
      · rw [if_pos hmem, List.map_cons, if_pos (List.mem_cons_of_mem _ hmem)]
      · have hnot : row.key ∉ (r :: rest).map CacheRow.key := by
          rw [List.map_cons, List.mem_cons]
          exact fun h => h.elim hne hmem
        rw [if_neg hmem, if_neg hnot]
        rfl

theorem HasDistinctKeys.putCacheRow (h : HasDistinctKeys rows) (row : CacheRow) :
    HasDistinctKeys (Store.putCacheRow row rows) := by
  rw [HasDistinctKeys, keys_putCacheRow]
  split
  · exact h
  · next hnew =>
    refine List.nodup_append.2 ⟨h, List.nodup_cons.2 ⟨List.not_mem_nil, List.nodup_nil⟩, ?_⟩
    intro a ha b hb hab
    rw [hab, List.mem_singleton.1 hb] at ha
    exact hnew ha

/-- The row that was written is found, and every other row as before. -/
theorem row?_putCacheRow :
    row? (Store.putCacheRow row rows) tenant user scope =
      if row.hasKey tenant user scope then some row else row? rows tenant user scope := by
  induction rows with
  | nil =>
    simp only [Store.putCacheRow, row?, List.find?_cons, List.find?_nil]
    split <;> simp_all
  | cons r rest ih =>
    rw [Store.putCacheRow]
    split
    · next hr =>
      -- The row takes the place of one with its key, so a look-up stops at both or at neither.
      have hsame : r.hasKey tenant user scope = row.hasKey tenant user scope :=
        CacheRow.hasKey_congr (CacheRow.hasKey_some_iff.1 hr) tenant user scope
      simp only [row?, List.find?_cons, hsame]
      split <;> simp_all
    · next hr =>
      simp only [row?, List.find?_cons] at ih ⊢
      rcases hfound : r.hasKey tenant user scope with _ | _
      · exact ih
      · have hne : row.hasKey tenant user scope = false := by
          apply Bool.eq_false_iff.2
          intro hrow
          exact hr (CacheRow.hasKey_some_iff.2 (CacheRow.key_eq_of_hasKey hfound hrow))
        simp [hne]

/-! ### What happens to every row -/

/-- Does a change of a row leave it what it is found by? -/
def KeepsKey (f : CacheRow → Option CacheRow) : Prop := ∀ r r', f r = some r' → r'.key = r.key

variable {f : CacheRow → Option CacheRow}

theorem HasDistinctKeys.filterMap (h : HasDistinctKeys rows) (hf : KeepsKey f) :
    HasDistinctKeys (rows.filterMap f) := by
  have hsub : ((rows.filterMap f).map CacheRow.key).Sublist (rows.map CacheRow.key) := by
    clear h
    induction rows with
    | nil => exact List.Sublist.slnil
    | cons r rest ih =>
      rcases hr : f r with _ | r'
      · rw [List.filterMap_cons_none hr]
        exact ih.cons _
      · rw [List.filterMap_cons_some hr, List.map_cons, List.map_cons, hf r r' hr]
        exact ih.cons_cons _
  exact h.sublist hsub

/-- What becomes of the row of a key is found under that key. -/
theorem row?_filterMap (h : HasDistinctKeys rows) (hf : KeepsKey f) :
    row? (rows.filterMap f) tenant user scope = (row? rows tenant user scope).bind f := by
  apply Option.ext
  intro r'
  rw [row?_eq_some_iff (h.filterMap hf), Option.bind_eq_some_iff, List.mem_filterMap]
  constructor
  · rintro ⟨⟨r, hr, hrr'⟩, hkey⟩
    rw [CacheRow.hasKey_congr (hf r r' hrr')] at hkey
    exact ⟨r, (row?_eq_some_iff h).2 ⟨hr, hkey⟩, hrr'⟩
  · rintro ⟨r, hrow, hrr'⟩
    obtain ⟨hr, hkey⟩ := (row?_eq_some_iff h).1 hrow
    rw [← CacheRow.hasKey_congr (hf r r' hrr')] at hkey
    exact ⟨⟨r, hr, hrr'⟩, hkey⟩

theorem HasDistinctKeys.filter (h : HasDistinctKeys rows) (p : CacheRow → Bool) :
    HasDistinctKeys (rows.filter p) :=
  h.sublist (List.filter_sublist.map CacheRow.key)

/-- The row of a key is found as long as it stays. -/
theorem row?_filter (h : HasDistinctKeys rows) (p : CacheRow → Bool) :
    row? (rows.filter p) tenant user scope = (row? rows tenant user scope).filter p := by
  apply Option.ext
  intro r
  rw [row?_eq_some_iff (h.filter p), Option.filter_eq_some_iff, row?_eq_some_iff h, List.mem_filter,
    and_right_comm]

end CacheTable

/-- A hit is an unmarked row of its key that has not expired. -/
theorem Store.of_cacheHit? {s : Store} {tenant user scope : Given} {now : Instant}
    {row : CacheRow} (h : s.cacheHit? tenant user scope now = some row) :
    row ∈ s.cache ∧ (some row.tenant = tenant ∧ some row.userId = user ∧ some row.scope = scope) ∧
      row.invalidatedAt = none ∧ now < row.expiresAt := by
  have hfound := List.find?_some h
  rw [Bool.and_eq_true, CacheRow.hasKey_iff] at hfound
  obtain ⟨hkey, hhit⟩ := hfound
  simp only [CacheRow.isHit, Bool.and_eq_true, Option.isNone_iff_eq_none,
    decide_eq_true_eq] at hhit
  exact ⟨List.mem_of_find?_eq_some h, hkey, hhit⟩

/-- The hit of a key is the row of the key, as long as it is one. -/
theorem Store.cacheHit?_eq_filter {s : Store} (h : CacheTable.HasDistinctKeys s.cache)
    (tenant user scope : Given) (now : Instant) :
    s.cacheHit? tenant user scope now =
      (CacheTable.row? s.cache tenant user scope).filter (·.isHit now) := by
  apply Option.ext
  intro row
  rw [cacheHit?, CacheTable.find?_eq_some_iff h, Option.filter_eq_some_iff,
    CacheTable.row?_eq_some_iff h, and_assoc]

end Entitlements
