import Entitlements.Schema.Reader

/-!
Reading back what was written. A model is written as a list of fields with different keys and read
by looking its fields up, so what has to be known about it is where each look-up ends. The lemmas
here say that for the ways in which fields are written: always, only when there is a value, or with
null where there is none. Lists and maps are read member by member.

`Reads read write a` says that the reader gives `a` back, and it is the one thing a reader has to
know about the readers of its parts.
-/

namespace Entitlements

namespace Keyed

/-! ### Lists as maps -/

theorem get?_append (xs ys : Keyed α) (key : String) :
    get? (xs ++ ys) key = (get? xs key).or (get? ys key) := by
  induction xs with
  | nil => simp
  | cons e xs ih =>
    obtain ⟨k, v⟩ := e
    rw [List.cons_append, get?_cons, get?_cons, ih]
    split <;> rfl

theorem set_of_not_mem {entries : Keyed α} {key : String} (h : key ∉ entries.keys) (value : α) :
    entries.set key value = entries ++ [(key, value)] := by
  induction entries with
  | nil => rfl
  | cons e entries ih =>
    obtain ⟨k, v⟩ := e
    simp only [keys, List.map_cons, List.mem_cons, not_or] at h
    rw [set, if_neg (Ne.symm h.1), ih h.2]
    rfl

/-- A list whose keys are all different is the map of itself. -/
theorem ofList_of_nodup {entries : List (String × α)} (h : (keys entries).Nodup) :
    ofList entries = entries := by
  suffices hfold : ∀ done : Keyed α, (keys (done ++ entries)).Nodup →
      entries.foldl (fun map entry => map.set entry.1 entry.2) done = done ++ entries by
    simpa [ofList] using hfold [] h
  intro done hdone
  clear h
  induction entries generalizing done with
  | nil => simp
  | cons e entries ih =>
    have hnew : e.1 ∉ keys done := by
      intro hmem
      rw [keys, List.map_append, List.nodup_append] at hdone
      exact hdone.2.2 _ hmem _ (by simp) rfl
    rw [List.foldl_cons, set_of_not_mem hnew, ih, List.append_assoc]
    · rfl
    · simpa using hdone

theorem mem_keys_set {key k : String} {value : α} {entries : Keyed α} :
    k ∈ (entries.set key value).keys ↔ k = key ∨ k ∈ entries.keys := by
  induction entries with
  | nil => simp [set, keys]
  | cons e entries ih =>
    obtain ⟨l, v⟩ := e
    simp only [set]
    split
    · next h =>
      subst h
      simp [keys]
    · simp only [keys, List.map_cons, List.mem_cons] at ih ⊢
      rw [ih]
      exact or_left_comm

theorem nodup_keys_set {key : String} {value : α} {entries : Keyed α} (h : entries.keys.Nodup) :
    (entries.set key value).keys.Nodup := by
  induction entries with
  | nil => simp [set, keys]
  | cons e entries ih =>
    obtain ⟨l, v⟩ := e
    simp only [keys, List.map_cons, List.nodup_cons] at h
    simp only [set]
    split
    · simpa [keys] using h
    · next hne =>
      have hl : l ∉ keys (set key value entries) := by
        rw [mem_keys_set]
        rintro (rfl | hmem)
        · exact hne rfl
        · exact h.1 hmem
      simpa [keys] using And.intro hl (ih h.2)

theorem nodup_keys_foldl_set (write : β → String × α) (xs : List β) {entries : Keyed α}
    (h : entries.keys.Nodup) :
    (xs.foldl (fun map x => map.set (write x).1 (write x).2) entries).keys.Nodup := by
  induction xs generalizing entries with
  | nil => exact h
  | cons x xs ih => exact ih (nodup_keys_set h)

theorem nodup_keys_ofList (entries : List (String × α)) : (ofList entries).keys.Nodup :=
  nodup_keys_foldl_set id entries List.nodup_nil

theorem forall_set {p : α → Prop} {key : String} {value : α} {entries : Keyed α} (hvalue : p value)
    (h : ∀ e ∈ entries, p e.2) : ∀ e ∈ entries.set key value, p e.2 := by
  induction entries with
  | nil => simpa [set] using hvalue
  | cons e entries ih =>
    obtain ⟨l, v⟩ := e
    rw [List.forall_mem_cons] at h
    simp only [set]
    split
    · exact List.forall_mem_cons.2 ⟨hvalue, h.2⟩
    · exact List.forall_mem_cons.2 ⟨h.1, ih h.2⟩

theorem forall_ofList {p : α → Prop} {entries : List (String × α)} (h : ∀ e ∈ entries, p e.2) :
    ∀ e ∈ ofList entries, p e.2 := by
  suffices hfold : ∀ done : Keyed α, (∀ e ∈ done, p e.2) →
      ∀ e ∈ entries.foldl (fun map entry => map.set entry.1 entry.2) done, p e.2 from
    hfold [] fun e he => by cases he
  induction entries with
  | nil => exact fun done hdone => hdone
  | cons e entries ih =>
    rw [List.forall_mem_cons] at h
    exact fun done hdone => ih h.2 _ (forall_set h.1 hdone)

theorem keys_map (f : α → β) (entries : Keyed α) :
    keys (entries.map fun e => (e.1, f e.2)) = entries.keys := by
  simp [keys]

end Keyed

namespace Schema

/-! ### Taking a reading apart -/

namespace Checked

theorem map_eq_valid_iff {f : α → β} {x : Checked α} {b : β} :
    f <$> x = .valid b ↔ ∃ a, x = .valid a ∧ f a = b := by
  rcases x with a | issues
  · simp
  · constructor
    · intro h
      cases h
    · rintro ⟨a, ha, -⟩
      cases ha

theorem seq_eq_valid_iff {f : Checked (α → β)} {x : Checked α} {b : β} :
    f <*> x = .valid b ↔ ∃ g a, f = .valid g ∧ x = .valid a ∧ g a = b := by
  rcases f with g | issues <;> rcases x with a | more
  · simp
  · constructor
    · intro h
      cases h
    · rintro ⟨_, _, -, hx, -⟩
      cases hx
  · constructor
    · intro h
      cases h
    · rintro ⟨_, _, hf, -, -⟩
      cases hf
  · constructor
    · intro h
      cases h
    · rintro ⟨_, _, hf, -, -⟩
      cases hf

theorem under_eq_valid_iff {key : String} {x : Checked α} {a : α} :
    x.under key = .valid a ↔ x = .valid a := by
  cases x <;> simp [under]

end Checked

theorem withDefault_eq_valid {f : FieldName} {read : Reader α} {default a : α}
    {fields : Json.Fields} (h : f.withDefault read default fields = .valid a) :
    a = default ∨ ∃ x, read x = .valid a := by
  unfold FieldName.withDefault at h
  split at h
  · next key x hfind => exact .inr ⟨x, Checked.under_eq_valid_iff.1 h⟩
  · cases h
    exact .inl rfl

theorem required_eq_valid {f : FieldName} {read : Reader α} {a : α} {fields : Json.Fields}
    (h : f.required read fields = .valid a) : ∃ x, read x = .valid a := by
  unfold FieldName.required at h
  split at h
  · next key x hfind => exact ⟨x, Checked.under_eq_valid_iff.1 h⟩
  · cases h

/-! ### Members -/

/-- Does a reader give back what a writer makes of a value? -/
def Reads (read : Reader α) (write : α → Json) (a : α) : Prop := read (write a) = .valid a

theorem members_map {read : Reader α} {write : α → Json} {xs : List α} (i : Nat)
    (h : ∀ a ∈ xs, Reads read write a) : members read i (xs.map write) = .valid xs := by
  induction xs generalizing i with
  | nil => rfl
  | cons x xs ih =>
    have hx : read (write x) = .valid x := h x List.mem_cons_self
    have hxs := ih (i + 1) fun a ha => h a (List.mem_cons_of_mem _ ha)
    rw [List.map_cons, members, hx, hxs]
    rfl

theorem reads_text (s : String) : Reads text .str s := rfl

theorem reads_flag (b : Bool) : Reads flag .bool b := rfl

theorem reads_integer (n : Int) : Reads integer .int n := rfl

theorem text_ne_null (s : String) : Json.str s ≠ .null := by simp

theorem flag_ne_null (b : Bool) : Json.bool b ≠ .null := by simp

theorem integer_ne_null (n : Int) : Json.int n ≠ .null := by simp

theorem texts_ne_null (texts : List String) : Json.ofTexts texts ≠ .null := by
  simp [Json.ofTexts]

theorem reads_texts (texts : List String) : Reads (list text) Json.ofTexts texts :=
  members_map 0 fun _ _ => rfl

theorem entries_map {read : Reader α} {write : α → Json} {xs : Keyed α}
    (h : ∀ e ∈ xs, Reads read write e.2) :
    entries read (xs.map fun e => (e.1, write e.2)) = .valid xs := by
  induction xs with
  | nil => rfl
  | cons e xs ih =>
    have he : read (write e.2) = .valid e.2 := h e List.mem_cons_self
    have hxs := ih fun a ha => h a (List.mem_cons_of_mem _ ha)
    rw [List.map_cons, entries, he, hxs]
    rfl

theorem nodup_keys_of_map {read : Reader α} {x : Json} {m : Keyed α}
    (h : map read x = .valid m) : m.keys.Nodup := by
  unfold map at h
  split at h
  · obtain ⟨xs, -, rfl⟩ := Checked.map_eq_valid_iff.1 h
    exact Keyed.nodup_keys_ofList xs
  · cases h

theorem forall_of_entries {read : Reader α} {p : α → Prop} (hread : ∀ y a, read y = .valid a → p a)
    {fields : List (String × Json)} {xs : List (String × α)} (h : entries read fields = .valid xs) :
    ∀ e ∈ xs, p e.2 := by
  induction fields generalizing xs with
  | nil =>
    cases h
    exact fun e he => by cases he
  | cons f fields ih =>
    obtain ⟨_, rest, hhead, hrest, rfl⟩ := Checked.seq_eq_valid_iff.1 h
    obtain ⟨entry, hentry, rfl⟩ := Checked.map_eq_valid_iff.1 hhead
    obtain ⟨a, ha, rfl⟩ := Checked.map_eq_valid_iff.1 hentry
    intro e he
    rcases List.mem_cons.1 he with rfl | he
    · exact hread _ a (Checked.under_eq_valid_iff.1 ha)
    · exact ih hrest e he

/-- What holds of all that a reader gives holds of the members of a map that is read with it. -/
theorem forall_of_map {read : Reader α} {p : α → Prop} (hread : ∀ y a, read y = .valid a → p a)
    {x : Json} {m : Keyed α} (h : map read x = .valid m) : ∀ e ∈ m, p e.2 := by
  unfold map at h
  split at h
  · obtain ⟨xs, hxs, rfl⟩ := Checked.map_eq_valid_iff.1 h
    exact Keyed.forall_ofList (forall_of_entries hread hxs)
  · cases h

/-! ### Fields -/

namespace FieldName

variable {f : FieldName} {read : Reader α} {write : α → Json} {fields : Json.Fields} {a : α}
  {o : Option α}

theorem find?_of_get? {x : Json} (h : Keyed.get? fields f.key = some x) :
    f.find? fields = some (f.key, x) := by
  rw [find?, h]

theorem find?_of_not_mem (hk : Keyed.get? fields f.key = none)
    (hn : Keyed.get? fields f.name = none) : f.find? fields = none := by
  rw [find?, hk, hn]
  rfl

theorem required_of_get? (h : Keyed.get? fields f.key = some (write a))
    (hr : Reads read write a) : f.required read fields = .valid a := by
  have hread : read (write a) = .valid a := hr
  simp [required, find?_of_get? h, hread]

theorem withDefault_of_get? {default : α} (h : Keyed.get? fields f.key = some (write a))
    (hr : Reads read write a) : f.withDefault read default fields = .valid a := by
  have hread : read (write a) = .valid a := hr
  simp [withDefault, find?_of_get? h, hread]

theorem nullable_of_reads {a : α} (hw : write a ≠ .null) (hr : Reads read write a) :
    nullable read (write a) = .valid (some a) := by
  unfold nullable
  split
  · next hnull => exact absurd hnull hw
  · rw [hr]
    rfl

/-- A field that is written only when there is a value. -/
theorem optional_of_get?_map (h : Keyed.get? fields f.key = o.map write)
    (hn : Keyed.get? fields f.name = o.map write ∨ Keyed.get? fields f.name = none)
    (hw : ∀ a, write a ≠ .null) (hr : ∀ a, o = some a → Reads read write a) :
    f.optional read fields = .valid o := by
  rcases o with _ | a
  · have hname : Keyed.get? fields f.name = none := by rcases hn with hn | hn <;> exact hn
    rw [optional, withDefault, find?_of_not_mem h hname]
  · simp [optional, withDefault, find?_of_get? h, nullable_of_reads (hw a) (hr a rfl)]

/-- A field that is written as null when there is no value. -/
theorem optional_of_get?_null (h : Keyed.get? fields f.key = some (o.elim .null write))
    (hw : ∀ a, write a ≠ .null) (hr : ∀ a, o = some a → Reads read write a) :
    f.optional read fields = .valid o := by
  rcases o with _ | a
  · simp [optional, withDefault, find?_of_get? h, nullable]
  · simp [optional, withDefault, find?_of_get? h, nullable_of_reads (hw a) (hr a rfl)]

end FieldName

/-- The fields of a model with different keys are read as they stand. -/
theorem model_obj {read : Json.Fields → Checked α} {fields : Json.Fields}
    (h : (Keyed.keys fields).Nodup) : model read (.obj fields) = read fields := by
  rw [model, Keyed.ofList_of_nodup h]

end Schema

end Entitlements
