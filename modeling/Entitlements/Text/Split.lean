/-!
Cutting a text at a separator character. `split` gives the pieces between all separators, one more
than there are separators; `cut?` gives what stands before and after the first one.
-/

namespace Entitlements.Text

def split (sep : Char) : List Char → List (List Char)
  | [] => [[]]
  | c :: cs =>
    if c = sep then [] :: split sep cs
    else match split sep cs with
      | [] => [[c]]
      | piece :: pieces => (c :: piece) :: pieces

def cut? (sep : Char) : List Char → Option (List Char × List Char)
  | [] => none
  | c :: cs =>
    if c = sep then some ([], cs)
    else (cut? sep cs).map fun (before, after) => (c :: before, after)

/-- The text without one final line break, if it has one. -/
def dropFinalBreak (cs : List Char) : List Char :=
  if cs.getLast? = some '\n' then cs.dropLast else cs

/-! ### Pieces -/

theorem split_ne_nil (sep : Char) (cs : List Char) : split sep cs ≠ [] := by
  induction cs with
  | nil => simp [split]
  | cons c cs ih =>
    simp only [split]
    split
    · simp
    · split <;> simp

/-- Joining the pieces with the separator gives the text back. -/
theorem intercalate_split (sep : Char) (cs : List Char) :
    [sep].intercalate (split sep cs) = cs := by
  induction cs with
  | nil => rfl
  | cons c cs ih =>
    rcases h : split sep cs with _ | ⟨piece, pieces⟩
    · exact absurd h (split_ne_nil sep cs)
    · rw [h] at ih
      by_cases hc : c = sep
      · subst hc
        rw [split, if_pos rfl, h, ← ih]
        simp [List.intercalate, List.intersperse]
      · rw [split, if_neg hc, h]
        cases pieces <;> simp_all [List.intercalate, List.intersperse]

/-- A text that starts with a piece free of separators splits after that piece. -/
theorem split_append {sep : Char} {piece : List Char} (h : sep ∉ piece) (rest : List Char) :
    split sep (piece ++ sep :: rest) = piece :: split sep rest := by
  induction piece with
  | nil => simp [split]
  | cons c piece ih =>
    simp only [List.mem_cons, not_or] at h
    simp [split, Ne.symm h.1, ih h.2]

theorem split_of_not_mem {sep : Char} {cs : List Char} (h : sep ∉ cs) : split sep cs = [cs] := by
  induction cs with
  | nil => rfl
  | cons c cs ih =>
    simp only [List.mem_cons, not_or] at h
    simp [split, Ne.symm h.1, ih h.2]

theorem cut?_append {sep : Char} {before : List Char} (h : sep ∉ before) (after : List Char) :
    cut? sep (before ++ sep :: after) = some (before, after) := by
  induction before with
  | nil => simp [cut?]
  | cons c before ih =>
    simp only [List.mem_cons, not_or] at h
    simp [cut?, Ne.symm h.1, ih h.2]

/-- What stands before and after the cut makes up the text. -/
theorem append_of_cut? {sep : Char} {cs before after : List Char}
    (h : cut? sep cs = some (before, after)) : before ++ sep :: after = cs := by
  induction cs generalizing before with
  | nil => cases h
  | cons c cs ih =>
    by_cases hc : c = sep
    · obtain ⟨rfl, rfl⟩ : [] = before ∧ cs = after := by simpa [cut?, hc] using h
      rw [hc]
      rfl
    · have hrest : ∃ tail, cut? sep cs = some (tail, after) ∧ c :: tail = before := by
        simpa [cut?, hc] using h
      obtain ⟨tail, htail, rfl⟩ := hrest
      rw [List.cons_append, ih htail]

end Entitlements.Text
