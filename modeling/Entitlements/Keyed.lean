/-!
Ordered maps from texts, as lists of pairs. The order of entries is part of the value: setting a
key that is there keeps its place, and a new key goes to the end.
-/

namespace Entitlements

abbrev Keyed (α : Type) := List (String × α)

namespace Keyed

def get? (entries : Keyed α) (key : String) : Option α := entries.lookup key

def set (key : String) (value : α) : Keyed α → Keyed α
  | [] => [(key, value)]
  | (k, v) :: rest => if k = key then (k, value) :: rest else (k, v) :: set key value rest

/-- Of entries with one key the first gives the place and the last the value. -/
def ofList (entries : List (String × α)) : Keyed α :=
  entries.foldl (fun map entry => map.set entry.1 entry.2) []

def keys (entries : Keyed α) : List String := entries.map (·.1)

@[simp] theorem get?_nil (key : String) : get? ([] : Keyed α) key = none := rfl

theorem get?_cons (k key : String) (v : α) (rest : Keyed α) :
    get? ((k, v) :: rest) key = if key = k then some v else get? rest key := by
  simp only [get?, List.lookup_cons]
  split <;> simp_all

theorem get?_set (key other : String) (value : α) (entries : Keyed α) :
    get? (set key value entries) other =
      if other = key then some value else get? entries other := by
  induction entries with
  | nil => simp [set, get?_cons]
  | cons e rest ih =>
    obtain ⟨k, v⟩ := e
    by_cases h : k = key
    · subst h
      by_cases ho : other = k <;> simp [set, get?_cons, ho]
    · by_cases ho : other = k
      · subst ho
        simp [set, get?_cons, h]
      · simp [set, get?_cons, h, ho, ih]

end Keyed

end Entitlements
