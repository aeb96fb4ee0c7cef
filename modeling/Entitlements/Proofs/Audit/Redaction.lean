import Entitlements.Audit.Redaction
import Entitlements.Store.AuditLog
import Mathlib.Data.List.Forall2

/-!
What redaction lets through. On documents it is a projection: what it leaves is redacted already,
and it forgets what stands under sensitive keys and nothing else. Two documents come out as one
exactly when they have the same shape, the same keys in the same order, and the same values outside
of sensitive keys. On values in memory it misses what a tuple holds, and nothing but that. The
proofs are by induction on values; a list and an object are redacted member by member.
-/

namespace Entitlements

namespace Json

/-- Has a value no members? -/
def isLeaf : Json → Bool
  | .arr _ => false
  | .obj _ => false
  | _ => true

/-- Induction on values, from the members to what holds them. -/
theorem induct {motive : Json → Prop} (leaf : ∀ x, x.isLeaf = true → motive x)
    (arr : ∀ xs : List Json, (∀ x ∈ xs, motive x) → motive (.arr xs))
    (obj : ∀ fields : Fields, (∀ e ∈ fields, motive e.2) → motive (.obj fields)) (x : Json) :
    motive x := by
  cases x with
  | arr xs => exact arr xs fun y hy => induct leaf arr obj y
  | obj fields =>
    refine obj fields fun e he => ?_
    have hsmaller : sizeOf e.2 < sizeOf fields := by
      have hmember := List.sizeOf_lt_of_mem he
      have hpair : sizeOf e = 1 + sizeOf e.1 + sizeOf e.2 := rfl
      omega
    exact induct leaf arr obj e.2
  | _ => exact leaf _ rfl
termination_by sizeOf x

/-- Does a value hold, at any depth, a key with some value under it? -/
inductive HasField : Json → String → Json → Prop
  | here {fields : Fields} {key : String} {x : Json} :
    (key, x) ∈ fields → HasField (.obj fields) key x
  | member {fields : Fields} {e : String × Json} {key : String} {x : Json} :
    e ∈ fields → HasField e.2 key x → HasField (.obj fields) key x
  | item {xs : List Json} {y : Json} {key : String} {x : Json} :
    y ∈ xs → HasField y key x → HasField (.arr xs) key x

end Json

namespace Redaction

open Json

/-- Is every sensitive key, at any depth, marked as redacted? -/
def IsClean (x : Json) : Prop :=
  ∀ key y, x.HasField key y → isSensitive key = true → y = .str mark

theorem IsClean.of_leaf {x : Json} (h : x.isLeaf = true) : IsClean x := by
  intro key y hfield
  cases hfield <;> cases h

theorem isClean_arr_iff {xs : List Json} : IsClean (.arr xs) ↔ ∀ x ∈ xs, IsClean x := by
  constructor
  · intro h x hx key y hfield
    exact h key y (.item hx hfield)
  · intro h key y hfield
    cases hfield with
    | item hmem hinner => exact h _ hmem key y hinner

theorem isClean_obj_iff {fields : Fields} :
    IsClean (.obj fields) ↔
      ∀ e ∈ fields, (isSensitive e.1 = true → e.2 = .str mark) ∧ IsClean e.2 := by
  constructor
  · intro h e he
    exact ⟨h e.1 e.2 (.here he), fun key y hfield => h key y (.member he hfield)⟩
  · intro h key y hfield
    cases hfield with
    | here hmem => exact (h _ hmem).1
    | member hmem hinner => exact (h _ hmem).2 key y hinner

/-- A column of metadata changes the writing of a lone number and nothing else. -/
theorem isClean_kept_iff {x : Json} : IsClean (Store.kept x) ↔ IsClean x := by
  cases x with
  | int n =>
    rw [Store.kept]
    split <;> exact ⟨fun _ => .of_leaf rfl, fun _ => .of_leaf rfl⟩
  | real x =>
    rw [Store.kept]
    split
    · split <;> exact ⟨fun _ => .of_leaf rfl, fun _ => .of_leaf rfl⟩
    · rfl
  | _ => rfl

end Redaction

namespace Details

open Redaction

/-- Induction on values in memory, where a list and a tuple are different cases. -/
theorem induct {motive : Details → Prop}
    (leaf : ∀ x : Details, x.toJson.isLeaf = true → motive x)
    (list : ∀ xs : List Details, (∀ x ∈ xs, motive x) → motive (.list xs))
    (tuple : ∀ xs : List Details, motive (.tuple xs))
    (map : ∀ fields : List (String × Details), (∀ e ∈ fields, motive e.2) → motive (.map fields))
    (x : Details) : motive x := by
  cases x with
  | list xs => exact list xs fun y hy => induct leaf list tuple map y
  | tuple xs => exact tuple xs
  | map fields =>
    refine map fields fun e he => ?_
    have hsmaller : sizeOf e.2 < sizeOf fields := by
      have hmember := List.sizeOf_lt_of_mem he
      have hpair : sizeOf e = 1 + sizeOf e.1 + sizeOf e.2 := rfl
      omega
    exact induct leaf list tuple map e.2
  | _ => exact leaf _ rfl
termination_by sizeOf x

theorem redact_list (xs : List Details) :
    (list xs).redact = .list (xs.map redact) := by
  have hitems : redactItems xs = xs.map redact := by
    induction xs with
    | nil => rfl
    | cons x xs ih => rw [redactItems, ih, List.map_cons]
  rw [redact, hitems]

theorem redact_map (fields : List (String × Details)) :
    (map fields).redact =
      .map (fields.map fun e => (e.1, if isSensitive e.1 then .str mark else e.2.redact)) := by
  have hfields : redactFields fields =
      fields.map fun e => (e.1, if isSensitive e.1 then .str mark else e.2.redact) := by
    induction fields with
    | nil => rfl
    | cons e fields ih => rw [redactFields, ih, List.map_cons]
  rw [redact, hfields]

/-- Does a value have a tuple that redaction comes to, through lists and maps and under no sensitive
key, in which a sensitive key has something else than the mark? -/
inductive Exposes : Details → Prop
  | tuple {xs : List Details} : ¬IsClean (tuple xs).toJson → Exposes (.tuple xs)
  | item {xs : List Details} {x : Details} : x ∈ xs → Exposes x → Exposes (.list xs)
  | member {fields : List (String × Details)} {e : String × Details} :
    e ∈ fields → isSensitive e.1 = false → Exposes e.2 → Exposes (.map fields)

/-- Redaction comes to everything but the members of tuples. -/
theorem isClean_redact_iff (x : Details) : IsClean x.redact.toJson ↔ ¬x.Exposes := by
  induction x using Details.induct with
  | leaf x h =>
    have hclean : IsClean x.redact.toJson := by
      cases x with
      | list => cases h
      | tuple => cases h
      | map => cases h
      | _ => exact .of_leaf rfl
    refine iff_of_true hclean fun hexposes => ?_
    cases hexposes <;> cases h
  | list xs ih =>
    rw [redact_list, toJson_list, List.map_map, isClean_arr_iff]
    constructor
    · intro h hexposes
      cases hexposes with
      | item hx hexposes => exact (ih _ hx).1 (h _ (List.mem_map_of_mem hx)) hexposes
    · intro h y hy
      obtain ⟨x, hx, rfl⟩ := List.mem_map.1 hy
      exact (ih x hx).2 fun hexposes => h (.item hx hexposes)
  | tuple xs =>
    constructor
    · intro h hexposes
      cases hexposes with
      | tuple hopen => exact hopen h
    · intro h
      by_contra hopen
      exact h (.tuple hopen)
  | map fields ih =>
    rw [redact_map, toJson_map, List.map_map, isClean_obj_iff]
    constructor
    · intro h hexposes
      cases hexposes with
      | @member _ e he hplain hexposes =>
        have hclean := (h _ (List.mem_map_of_mem he)).2
        dsimp only [Function.comp] at hclean
        rw [if_neg (Bool.eq_false_iff.1 hplain)] at hclean
        exact (ih e he).1 hclean hexposes
    · intro h f hf
      obtain ⟨e, he, rfl⟩ := List.mem_map.1 hf
      dsimp only [Function.comp]
      by_cases hs : isSensitive e.1 = true
      · rw [if_pos hs]
        exact ⟨fun _ => rfl, .of_leaf rfl⟩
      · rw [if_neg hs]
        exact ⟨fun hkey => absurd hkey hs,
          (ih e he).2 fun hexposes => h (.member he (Bool.eq_false_iff.2 hs) hexposes)⟩

/-- What counts as nothing has no members. -/
theorem not_exposes_of_isNothing {x : Details} (h : x.isNothing = true) : ¬x.Exposes := by
  intro hexposes
  cases hexposes with
  | @tuple xs hopen =>
    cases xs with
    | nil => exact hopen (isClean_arr_iff.2 (List.forall_mem_nil _))
    | cons => cases h
  | item hmem =>
    cases hmem <;> cases h
  | member hmem =>
    cases hmem <;> cases h

/-- A document has no tuples. -/
theorem not_exposes_ofJson (x : Json) : ¬(ofJson x).Exposes := by
  induction x using Json.induct with
  | leaf x h =>
    intro hexposes
    cases x with
    | arr => cases h
    | obj => cases h
    | _ => cases hexposes
  | arr xs ih =>
    rw [ofJson_arr]
    intro hexposes
    cases hexposes with
    | item hmem hexposes =>
      obtain ⟨x, hx, rfl⟩ := List.mem_map.1 hmem
      exact ih x hx hexposes
  | obj fields ih =>
    rw [ofJson_obj]
    intro hexposes
    cases hexposes with
    | member hmem _ hexposes =>
      obtain ⟨e, he, rfl⟩ := List.mem_map.1 hmem
      exact ih e he hexposes

end Details

namespace Redaction

open Json

/-! ### Documents, member by member -/

/-- A field of a document once its value is redacted. -/
def redactField (e : String × Json) : String × Json :=
  (e.1, if isSensitive e.1 then .str mark else redact e.2)

theorem redact_arr (xs : List Json) : redact (.arr xs) = .arr (xs.map redact) := by
  rw [redact, Details.ofJson_arr, Details.redact_list, Details.toJson_list, List.map_map,
    List.map_map]
  rfl

theorem redact_obj (fields : Fields) : redact (.obj fields) = .obj (fields.map redactField) := by
  have hfield (e : String × Json) :
      (e.1, (if isSensitive e.1 then Details.str mark else (Details.ofJson e.2).redact).toJson) =
        redactField e := by
    rw [redactField]
    split <;> rfl
  rw [redact, Details.ofJson_obj, Details.redact_map, Details.toJson_map, List.map_map,
    List.map_map]
  exact congrArg Json.obj (List.map_congr_left fun e _ => hfield e)

theorem redact_leaf {x : Json} (h : x.isLeaf = true) : redact x = x := by
  cases x with
  | arr => cases h
  | obj => cases h
  | _ => rfl

theorem isLeaf_redact (x : Json) : (redact x).isLeaf = x.isLeaf := by
  cases x <;> rfl

theorem redactField_of_sensitive {e : String × Json} (h : isSensitive e.1 = true) :
    redactField e = (e.1, .str mark) := by
  rw [redactField, if_pos h]

theorem redactField_of_plain {e : String × Json} (h : ¬isSensitive e.1 = true) :
    redactField e = (e.1, redact e.2) := by
  rw [redactField, if_neg h]

/-! ### Documents that are redacted -/

/-- Redaction leaves nothing to redact. -/
theorem isClean_redact (x : Json) : IsClean (redact x) :=
  (Details.isClean_redact_iff _).2 (Details.not_exposes_ofJson x)

/-- Where nothing is to redact, nothing changes. -/
theorem redact_of_isClean {x : Json} (h : IsClean x) : redact x = x := by
  induction x using Json.induct with
  | leaf x hleaf => exact redact_leaf hleaf
  | arr xs ih =>
    rw [redact_arr, List.map_congr_left fun x hx => ih x hx (isClean_arr_iff.1 h x hx),
      List.map_id']
  | obj fields ih =>
    have hfield : ∀ e ∈ fields, redactField e = e := by
      intro e he
      obtain ⟨hmarked, hclean⟩ := isClean_obj_iff.1 h e he
      by_cases hs : isSensitive e.1 = true
      · rw [redactField_of_sensitive hs, ← hmarked hs]
      · rw [redactField_of_plain hs, ih e he hclean]
    rw [redact_obj, List.map_congr_left hfield, List.map_id']

theorem redact_eq_self_iff {x : Json} : redact x = x ↔ IsClean x :=
  ⟨fun h => h ▸ isClean_redact x, redact_of_isClean⟩

theorem redact_redact (x : Json) : redact (redact x) = redact x :=
  redact_of_isClean (isClean_redact x)

/-! ### What redaction forgets -/

/-- Do two values differ at most in what stands under sensitive keys? They have one shape then, with
lists of one length and the same keys in the same order. -/
inductive AgreesOutside : Json → Json → Prop
  | leaf {x : Json} : x.isLeaf = true → AgreesOutside x x
  | arr {xs ys : List Json} : xs.length = ys.length →
    (∀ x y, (x, y) ∈ xs.zip ys → AgreesOutside x y) → AgreesOutside (.arr xs) (.arr ys)
  | obj {fields others : Fields} : Keyed.keys fields = Keyed.keys others →
    (∀ e f, (e, f) ∈ fields.zip others → isSensitive e.1 = false → AgreesOutside e.2 f.2) →
    AgreesOutside (.obj fields) (.obj others)

theorem map_eq_map_iff {f : α → γ} {g : β → γ} {xs : List α} {ys : List β} :
    xs.map f = ys.map g ↔ xs.length = ys.length ∧ ∀ x y, (x, y) ∈ xs.zip ys → f x = g y := by
  rw [← List.forall₂_eq_eq_eq, List.forall₂_map_left_iff, List.forall₂_map_right_iff,
    List.forall₂_iff_zip]

theorem keys_map_redactField (fields : Fields) :
    Keyed.keys (fields.map redactField) = Keyed.keys fields := by
  rw [Keyed.keys, List.map_map]
  rfl

/-- Two values become one exactly when they agree outside of sensitive keys. -/
theorem redact_eq_iff {x y : Json} : redact x = redact y ↔ AgreesOutside x y := by
  constructor
  · intro h
    induction x using Json.induct generalizing y with
    | leaf x hx =>
      have hy : y.isLeaf = true := by rw [← isLeaf_redact, ← h, isLeaf_redact, hx]
      rw [redact_leaf hx, redact_leaf hy] at h
      exact h ▸ .leaf hx
    | arr xs ih =>
      cases y with
      | arr ys =>
        rw [redact_arr, redact_arr, Json.arr.injEq, map_eq_map_iff] at h
        exact .arr h.1 fun x y hxy => ih x (List.of_mem_zip hxy).1 (h.2 x y hxy)
      | _ => cases h
    | obj fields ih =>
      cases y with
      | obj others =>
        rw [redact_obj, redact_obj, Json.obj.injEq] at h
        refine .obj ?_ fun e f hef hplain => ih e (List.of_mem_zip hef).1 ?_
        · rw [← keys_map_redactField, h, keys_map_redactField]
        · have hfield := (map_eq_map_iff.1 h).2 e f hef
          have hkey : e.1 = f.1 := (Prod.ext_iff.1 hfield).1
          have hplain : ¬isSensitive e.1 = true := Bool.eq_false_iff.1 hplain
          rw [redactField_of_plain hplain, redactField_of_plain (hkey ▸ hplain)] at hfield
          exact (Prod.ext_iff.1 hfield).2
      | _ => cases h
  · intro h
    induction h with
    | leaf => rfl
    | arr hlength _ ih => rw [redact_arr, redact_arr, map_eq_map_iff.2 ⟨hlength, ih⟩]
    | @obj fields others hkeys _ ih =>
      obtain ⟨hlength, hkeys⟩ := map_eq_map_iff.1 hkeys
      have hfields : fields.map redactField = others.map redactField := by
        refine map_eq_map_iff.2 ⟨hlength, fun e f hef => ?_⟩
        have hkey := hkeys e f hef
        by_cases hs : isSensitive e.1 = true
        · rw [redactField_of_sensitive hs, redactField_of_sensitive (hkey ▸ hs), hkey]
        · rw [redactField_of_plain hs, redactField_of_plain (hkey ▸ hs), hkey,
            ih e f hef (Bool.eq_false_iff.2 hs)]
      rw [redact_obj, redact_obj, hfields]

/-- Nothing outside of sensitive keys is lost. -/
theorem agreesOutside_redact (x : Json) : AgreesOutside x (redact x) :=
  redact_eq_iff.1 (redact_redact x).symm

end Redaction

end Entitlements
