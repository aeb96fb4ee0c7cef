import Entitlements.Proofs.Access.Distinct
import Entitlements.Store.Row
import Mathlib.Data.Prod.Lex

/-!
Two tables and the rows that somebody sees. `SeesSame` compares two tables by the rows seen, in no
order, because a table promises none; `SparesRest` compares a table with what a write makes of it by
all rows that are not the writer's own, in their places. Three kinds of write occur: a row is added,
rows change in their places, rows go. For each kind there is one lemma for either comparison, with
what the write has to respect as a hypothesis.

A read sees the same in both tables if it looks at rows seen only and if the order of the table
cannot show in it: a search has one row to find, and a listing sorts by what tells rows apart.
-/

namespace Entitlements.Table

variable {ρ : Type} {seen own : ρ → Bool} {rows rows' : List ρ}

/-! ### Rows seen -/

/-- Do two tables hold the same rows among those seen, in whatever order? -/
def SeesSame (seen : ρ → Bool) (rows rows' : List ρ) : Prop :=
  (rows.filter seen).Perm (rows'.filter seen)

namespace SeesSame

theorem mem_iff (h : SeesSame seen rows rows') {r : ρ} (hr : seen r = true) :
    r ∈ rows ↔ r ∈ rows' := by
  have hmem : r ∈ rows.filter seen ↔ r ∈ rows'.filter seen := List.Perm.mem_iff h
  rw [List.mem_filter, List.mem_filter] at hmem
  simpa [hr] using hmem

/-- A selection among the rows seen is the same. -/
theorem filter (h : SeesSame seen rows rows') {p : ρ → Bool}
    (hp : ∀ r, p r = true → seen r = true) : (rows.filter p).Perm (rows'.filter p) := by
  have hself (table : List ρ) : (table.filter seen).filter p = table.filter p := by
    rw [List.filter_filter]
    refine List.filter_congr fun r _ => ?_
    cases hr : p r with
    | false => rfl
    | true => rw [hp r hr, Bool.and_self]
  rw [← hself rows, ← hself rows']
  exact List.Perm.filter p h

theorem countP_eq (h : SeesSame seen rows rows') {p : ρ → Bool}
    (hp : ∀ r, p r = true → seen r = true) : rows.countP p = rows'.countP p := by
  rw [List.countP_eq_length_filter, List.countP_eq_length_filter]
  exact (h.filter hp).length_eq

theorem any_eq (h : SeesSame seen rows rows') {p : ρ → Bool}
    (hp : ∀ r, p r = true → seen r = true) : rows.any p = rows'.any p := by
  rw [Bool.eq_iff_iff, List.any_eq_true, List.any_eq_true]
  exact exists_congr fun r => and_congr_left fun hr => h.mem_iff (hp r hr)

/-- A search for the one row of its kind. -/
theorem find?_eq (h : SeesSame seen rows rows') {p : ρ → Bool}
    (hp : ∀ r, p r = true → seen r = true)
    (hone : ∀ r ∈ rows, ∀ q ∈ rows, p r = true → p q = true → r = q) :
    rows.find? p = rows'.find? p := by
  cases hfind : rows'.find? p with
  | none =>
    rw [List.find?_eq_none] at hfind ⊢
    exact fun r hr hpr => hfind r ((h.mem_iff (hp r hpr)).1 hr) hpr
  | some q =>
    have hpq := List.find?_some hfind
    have hq := (h.mem_iff (hp q hpq)).2 (List.mem_of_find?_eq_some hfind)
    cases hother : rows.find? p with
    | none => exact absurd hpq (List.find?_eq_none.1 hother q hq)
    | some r =>
      exact congrArg some (hone r (List.mem_of_find?_eq_some hother) q hq
        (List.find?_some hother) hpq)

/-- What is made of the rows seen, if the others lead to nothing. -/
theorem flatMap {β : Type} (h : SeesSame seen rows rows') {f g : ρ → List β}
    (hf : ∀ r, seen r = false → f r = []) (hg : ∀ r, seen r = false → g r = [])
    (hfg : ∀ r, (f r).Perm (g r)) : (rows.flatMap f).Perm (rows'.flatMap g) := by
  have hskip {f : ρ → List β} (hf : ∀ r, seen r = false → f r = []) (table : List ρ) :
      table.flatMap f = (table.filter seen).flatMap f := by
    induction table with
    | nil => rfl
    | cons r table ih =>
      cases hr : seen r with
      | false => rw [List.filter_cons, hr, List.flatMap_cons, hf r hr, ih]; rfl
      | true => rw [List.filter_cons_of_pos hr, List.flatMap_cons, List.flatMap_cons, ih]
  rw [hskip hf, hskip hg]
  exact List.Perm.flatMap h fun r _ => hfg r

theorem append (h : SeesSame seen rows rows') (row : ρ) :
    SeesSame seen (rows ++ [row]) (rows' ++ [row]) := by
  rw [SeesSame, List.filter_append, List.filter_append]
  exact List.Perm.append_right _ h

/-- Rows may change as long as none appears or disappears. -/
theorem map (h : SeesSame seen rows rows') {f : ρ → ρ} (hf : ∀ r, seen (f r) = seen r) :
    SeesSame seen (rows.map f) (rows'.map f) := by
  have hcomp : seen ∘ f = seen := funext hf
  rw [SeesSame, List.filter_map, List.filter_map, hcomp]
  exact List.Perm.map f h

theorem remove (h : SeesSame seen rows rows') (keep : ρ → Bool) :
    SeesSame seen (rows.filter keep) (rows'.filter keep) := by
  have hswap (table : List ρ) :
      (table.filter keep).filter seen = (table.filter seen).filter keep := by
    rw [List.filter_filter, List.filter_filter]
    exact List.filter_congr fun r _ => Bool.and_comm _ _
  rw [SeesSame, hswap, hswap]
  exact List.Perm.filter keep h

end SeesSame

/-! ### Rows of others -/

/-- Are all rows that are not one's own as they were? -/
def SparesRest (own : ρ → Bool) (rows after : List ρ) : Prop :=
  after.filter (fun r => !own r) = rows.filter fun r => !own r

theorem ne_of_own {r q : ρ} (hr : own r = true) (hq : own q = false) : q ≠ r := by
  rintro rfl
  rw [hr] at hq
  cases hq

theorem sparesRest_append {row : ρ} (hrow : own row = true) :
    SparesRest own rows (rows ++ [row]) := by
  simp [SparesRest, List.filter_append, hrow]

theorem sparesRest_map {f : ρ → ρ} (hown : ∀ r, own (f r) = own r)
    (hf : ∀ r, own r = false → f r = r) : SparesRest own rows (rows.map f) := by
  have hcomp : (fun r => !own r) ∘ f = fun r => !own r := funext fun r => congrArg _ (hown r)
  rw [SparesRest, List.filter_map, hcomp]
  refine (List.map_congr_left fun r hr => ?_).trans (List.map_id _)
  exact hf r (by simpa using (List.mem_filter.1 hr).2)

theorem sparesRest_remove {keep : ρ → Bool} (hkeep : ∀ r ∈ rows, own r = false → keep r = true) :
    SparesRest own rows (rows.filter keep) := by
  rw [SparesRest, List.filter_filter]
  refine List.filter_congr fun r hmem => ?_
  cases hr : own r with
  | false => simp [hkeep r hmem hr]
  | true => simp

/-! ### Rows with a key -/

section Keys

variable {κ : Type} {key : ρ → κ}

theorem eq_of_key (h : (rows.map key).Nodup) {r q : ρ} (hr : r ∈ rows) (hq : q ∈ rows)
    (hkey : key r = key q) : r = q := List.inj_on_of_nodup_map h hr hq hkey

theorem nodup_append {row : ρ} (h : (rows.map key).Nodup) (hnew : ∀ r ∈ rows, key r ≠ key row) :
    ((rows ++ [row]).map key).Nodup := by
  rw [List.map_append, List.map_singleton, List.nodup_append]
  refine ⟨h, List.nodup_singleton _, fun k hk l hl => ?_⟩
  obtain ⟨r, hr, rfl⟩ := List.mem_map.1 hk
  rw [List.mem_singleton.1 hl]
  exact hnew r hr

theorem nodup_map {f : ρ → ρ} (h : (rows.map key).Nodup) (hf : ∀ r, key (f r) = key r) :
    ((rows.map f).map key).Nodup := by
  rw [List.map_map]
  have hcomp : key ∘ f = key := funext hf
  rwa [hcomp]

theorem nodup_filter (h : (rows.map key).Nodup) (keep : ρ → Bool) :
    ((rows.filter keep).map key).Nodup :=
  (List.filter_sublist.map key).nodup h

/-- A search by what is different on all rows, and for rows seen only. -/
theorem SeesSame.find?_id_eq [DecidableEq κ] (h : SeesSame seen rows rows')
    (hd : (rows.map key).Nodup) {p : ρ → Bool} (hp : ∀ r, p r = true → seen r = true)
    (id : Option κ) :
    rows.find? (fun r => some (key r) == id && p r) =
      rows'.find? fun r => some (key r) == id && p r := by
  refine h.find?_eq (fun r hr => hp r (Bool.and_eq_true_iff.1 hr).2) fun r hr q hq hrid hqid => ?_
  simp only [Bool.and_eq_true, beq_iff_eq] at hrid hqid
  exact eq_of_key hd hr hq (Option.some.inj (hrid.1.trans hqid.1.symm))

end Keys

/-- What a row is replaced by has its place, so nothing that both agree on changes. -/
theorem replace_congr [DecidableEq ρ] {r row : ρ} {α : Type} (f : ρ → α) (h : f row = f r) (q : ρ) :
    f (if q = r then row else q) = f q := by
  split
  · next heq => rw [heq, h]
  · rfl

theorem sparesRest_replace [DecidableEq ρ] {r row : ρ} (hr : own r = true)
    (hrow : own row = own r) : SparesRest own rows (rows.map fun q => if q = r then row else q) :=
  sparesRest_map (replace_congr own hrow) fun _ hq => if_neg (ne_of_own hr hq)

/-- Two tables have been edited by somebody so that the rows of that one are the same in both again,
the others are as they were, and no key is taken twice. -/
structure EditsAlike {κ : Type} (own : ρ → Bool) (key : ρ → κ) (rows rows' after after' : List ρ) :
    Prop where
  same : SeesSame own after after'
  left : SparesRest own rows after
  right : SparesRest own rows' after'
  distinct : (after.map key).Nodup
  distinct' : (after'.map key).Nodup

namespace EditsAlike

variable {κ : Type} {key : ρ → κ}

theorem append (h : SeesSame own rows rows') (hd : (rows.map key).Nodup)
    (hd' : (rows'.map key).Nodup) {row : ρ} (hrow : own row = true)
    (hnew : ∀ r ∈ rows, key r ≠ key row) (hnew' : ∀ r ∈ rows', key r ≠ key row) :
    EditsAlike own key rows rows' (rows ++ [row]) (rows' ++ [row]) :=
  ⟨h.append row, sparesRest_append hrow, sparesRest_append hrow, nodup_append hd hnew,
    nodup_append hd' hnew'⟩

theorem map (h : SeesSame own rows rows') (hd : (rows.map key).Nodup)
    (hd' : (rows'.map key).Nodup) {f : ρ → ρ} (hown : ∀ r, own (f r) = own r)
    (hf : ∀ r, own r = false → f r = r) (hkey : ∀ r, key (f r) = key r) :
    EditsAlike own key rows rows' (rows.map f) (rows'.map f) :=
  ⟨h.map hown, sparesRest_map hown hf, sparesRest_map hown hf, nodup_map hd hkey,
    nodup_map hd' hkey⟩

theorem replace [DecidableEq ρ] (h : SeesSame own rows rows') (hd : (rows.map key).Nodup)
    (hd' : (rows'.map key).Nodup) {r row : ρ} (hr : own r = true) (hrow : own row = true)
    (hkey : key row = key r) :
    EditsAlike own key rows rows' (rows.map fun q => if q = r then row else q)
      (rows'.map fun q => if q = r then row else q) :=
  map h hd hd' (replace_congr own (hrow.trans hr.symm)) (fun _ hq => if_neg (ne_of_own hr hq))
    (replace_congr key hkey)

theorem remove (h : SeesSame own rows rows') (hd : (rows.map key).Nodup)
    (hd' : (rows'.map key).Nodup) {keep : ρ → Bool} (hkeep : ∀ r, own r = false → keep r = true) :
    EditsAlike own key rows rows' (rows.filter keep) (rows'.filter keep) :=
  ⟨h.remove keep, sparesRest_remove fun r _ => hkeep r, sparesRest_remove fun r _ => hkeep r,
    nodup_filter hd keep, nodup_filter hd' keep⟩

end EditsAlike

/-! ### Keys within an owner -/

section Owners

variable {owner name : ρ → String} {who : String}

/-- A search for the row that an owner has under a name. -/
theorem SeesSame.find?_named_eq (h : SeesSame (owner · == who) rows rows')
    (hd : (rows.map fun r => (owner r, name r)).Nodup) (given : Option String) :
    rows.find? (fun r => some (owner r) == some who && some (name r) == given) =
      rows'.find? fun r => some (owner r) == some who && some (name r) == given := by
  refine h.find?_eq (fun r hr => ?_) fun r hr q hq hrname hqname => ?_
  · simpa using (Bool.and_eq_true_iff.1 hr).1
  · simp only [Bool.and_eq_true, beq_iff_eq] at hrname hqname
    refine eq_of_key hd hr hq (Prod.ext ?_ ?_)
    · exact Option.some.inj (hrname.1.trans hqname.1.symm)
    · exact Option.some.inj (hrname.2.trans hqname.2.symm)

/-- The rows of an owner in the order of their names. -/
theorem SeesSame.mergeSort_named_eq (h : SeesSame (owner · == who) rows rows')
    (hd : (rows.map fun r => (owner r, name r)).Nodup) :
    (rows.filter fun r => some (owner r) == some who).mergeSort
        (fun a b => decide (name a ≤ name b)) =
      (rows'.filter fun r => some (owner r) == some who).mergeSort
        fun a b => decide (name a ≤ name b) := by
  refine mergeSort_eq_of_perm name (fun a b => decide_eq_true_iff) (fun a ha b hb hname => ?_)
    (h.filter fun r hr => by simpa using hr)
  simp only [List.mem_filter, beq_iff_eq, Option.some.injEq] at ha hb
  exact eq_of_key hd ha.1 hb.1 (Prod.ext (ha.2.trans hb.2.symm) hname)

namespace EditsAlike

/-- A row under a name that the owner has not given yet, as far as one of the tables can tell. -/
theorem append_named (h : SeesSame (owner · == who) rows rows')
    (hd : (rows.map fun r => (owner r, name r)).Nodup)
    (hd' : (rows'.map fun r => (owner r, name r)).Nodup) {row : ρ} (howner : owner row = who)
    (hnew : rows.find? (fun r => some (owner r) == some who && some (name r) == some (name row)) =
      none) :
    EditsAlike (owner · == who) (fun r => (owner r, name r)) rows rows' (rows ++ [row])
      (rows' ++ [row]) := by
  have hfree {table : List ρ} (hnone : table.find? (fun r => some (owner r) == some who &&
      some (name r) == some (name row)) = none) :
      ∀ r ∈ table, (owner r, name r) ≠ (owner row, name row) := by
    intro r hr hkey
    rw [Prod.mk.injEq] at hkey
    exact List.find?_eq_none.1 hnone r hr (by simp [hkey, howner])
  exact append h hd hd' (by simp [howner]) (hfree hnew)
    (hfree ((h.find?_named_eq hd _).symm.trans hnew))

theorem replace_named [DecidableEq ρ] (h : SeesSame (owner · == who) rows rows')
    (hd : (rows.map fun r => (owner r, name r)).Nodup)
    (hd' : (rows'.map fun r => (owner r, name r)).Nodup) {r row : ρ} (hr : owner r = who)
    (howner : owner row = owner r) (hname : name row = name r) :
    EditsAlike (owner · == who) (fun r => (owner r, name r)) rows rows'
      (rows.map fun q => if q = r then row else q) (rows'.map fun q => if q = r then row else q) :=
  replace h hd hd' (by simp [hr]) (by simp [howner, hr]) (by rw [howner, hname])

theorem remove_named (h : SeesSame (owner · == who) rows rows')
    (hd : (rows.map fun r => (owner r, name r)).Nodup)
    (hd' : (rows'.map fun r => (owner r, name r)).Nodup) (given : Option String) :
    EditsAlike (owner · == who) (fun r => (owner r, name r)) rows rows'
      (rows.filter fun r => !(some (owner r) == some who && some (name r) == given))
      (rows'.filter fun r => !(some (owner r) == some who && some (name r) == given)) :=
  remove h hd hd' fun r hr => by
    have hother : ¬owner r = who := by simpa using hr
    simp [hother]

end EditsAlike

end Owners

end Entitlements.Table
