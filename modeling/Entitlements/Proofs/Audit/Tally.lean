import Entitlements.Audit.Event
import Entitlements.Proofs.Engine.Identifiers
import Entitlements.Proofs.Store.Links
import Entitlements.Proofs.Tenancy.Tables
import Mathlib.Data.List.Nodup

/-!
What the log says about a table. An entry names a tenant and an entity, and so does a row, so both
are reduced to that pair and the order of rows is forgotten. What was created is then what was
deleted together with what is there, as multisets: `Balanced` is that, and it tells of each name
whether a row has it. Names that are handed out are moreover created once. Assignments are never
deleted; their log is the table itself, and the revocations are those of its revoked rows.
-/

namespace Entitlements

open Time

/-! ### Names -/

/-- A tenant and what is named in it. Global rows name no tenant. -/
abbrev Naming := Given × Given

def PolicyRow.naming (r : PolicyRow) : Naming := (some r.tenant, some r.policy.key)

def RoleRow.naming (r : RoleRow) : Naming := (some r.tenant, some r.role.key)

def PermissionRow.naming (r : PermissionRow) : Naming := (r.tenant, some r.id)

def AssignmentRow.naming (r : AssignmentRow) : Naming := (some r.tenant, some r.id)

/-- A row that takes the place of another under its name leaves the names as they are. -/
theorem Table.map_replace {ρ α : Type} [DecidableEq ρ] {f : ρ → α} {r row : ρ}
    (h : f row = f r) (rows : List ρ) :
    (rows.map fun q => if q = r then row else q).map f = rows.map f := by
  rw [List.map_map]
  exact List.map_congr_left fun q _ => replace_congr f h q

/-- What a log names, in its order, for each type of event. -/
def Tally := EventType → List Naming

namespace Tally

def ofLog (log : List AuditRow) : Tally := fun type =>
  (log.filter (·.eventType == type.text)).map fun r => (r.tenant, r.resourceId)

/-- With one more entry. -/
def add (tally : Tally) (type : EventType) (naming : Naming) : Tally := fun t =>
  if t = type then tally t ++ [naming] else tally t

theorem ofLog_append (log : List AuditRow) {row : AuditRow} {type : EventType}
    (h : row.eventType = type.text) :
    ofLog (log ++ [row]) = (ofLog log).add type (row.tenant, row.resourceId) := by
  funext t
  rw [ofLog, List.filter_append, List.map_append, add]
  split
  · next ht => simp [ofLog, ht, h]
  · next ht =>
    have hother : (row.eventType == t.text) = false := by
      rw [beq_eq_false_iff_ne, h]
      exact fun htext => ht (EventType.text_injective htext.symm)
    simp [ofLog, hother]

end Tally

/-! ### What is created and deleted -/

/-- Is what was created what was deleted and what is there, and is nothing there twice? -/
structure Balanced (created deleted rows : List Naming) : Prop where
  perm : created.Perm (deleted ++ rows)
  distinct : rows.Nodup

namespace Balanced

variable {ρ : Type} {name : ρ → Naming} {created deleted rows : List Naming}

/-- A row comes under a name that is free. -/
theorem append {table : List ρ} {row : ρ} {naming : Naming}
    (h : Balanced created deleted (table.map name)) (hrow : name row = naming)
    (hnew : naming ∉ table.map name) :
    Balanced (created ++ [naming]) deleted ((table ++ [row]).map name) where
  perm := by
    rw [List.map_append, List.map_singleton, hrow, ← List.append_assoc]
    exact h.perm.append_right _
  distinct := by
    rw [List.map_append, List.map_singleton, hrow, List.nodup_append]
    refine ⟨h.distinct, List.nodup_singleton _, fun a ha b hb => ?_⟩
    rw [List.mem_singleton.1 hb]
    exact fun heq => hnew (heq ▸ ha)

/-- The row of a name goes, and the others stay. -/
theorem filter {table : List ρ} {naming : Naming} {stays : ρ → Bool}
    (h : Balanced created deleted (table.map name)) (hmem : naming ∈ table.map name)
    (hstays : ∀ r ∈ table, stays r = (name r != naming)) :
    Balanced created (deleted ++ [naming]) ((table.filter stays).map name) := by
  have hothers : (table.filter stays).map name = (table.map name).erase naming := by
    rw [h.distinct.erase_eq_filter, List.filter_map, List.filter_congr hstays]
    rfl
  rw [hothers]
  refine ⟨?_, h.distinct.erase _⟩
  rw [List.append_assoc, List.singleton_append]
  exact h.perm.trans ((List.perm_cons_erase hmem).append_left deleted)

theorem count_eq (h : Balanced created deleted rows) (naming : Naming) :
    created.count naming = deleted.count naming + if naming ∈ rows then 1 else 0 := by
  rw [h.perm.count_eq, List.count_append]
  split
  · next hmem => rw [List.count_eq_one_of_mem h.distinct hmem]
  · next hmem => rw [List.count_eq_zero_of_not_mem hmem]

end Balanced

/-! ### What is handed out once -/

/-- Does each naming have an identifier of its own, and none that is still to come? -/
structure NamedOnce (ids : IdSupply) (kind : IdKind) (namings : List Naming) : Prop where
  distinct : (namings.map Prod.snd).Nodup
  issued : ∀ n ∈ namings, ∀ id, n.2 = some id → ¬ids.IsUpcoming kind id

namespace NamedOnce

variable {ids later : IdSupply} {kind : IdKind} {namings rest : List Naming}

theorem mono (h : NamedOnce ids kind namings) (hids : ids.Precedes later) :
    NamedOnce later kind namings where
  distinct := h.distinct
  issued n hn id hid hup := h.issued n hn id hid (hids kind id hup)

/-- With the identifier that is next. -/
theorem add (h : NamedOnce ids kind namings) (tenant : Given) :
    NamedOnce (ids.advance kind) kind (namings ++ [(tenant, some (ids.next kind))]) where
  distinct := Table.nodup_append h.distinct fun n hn heq =>
    h.issued n hn _ heq (ids.isUpcoming_next kind)
  issued := by
    refine Store.forall_mem_append_singleton ?_ ?_
    · exact (h.mono (ids.precedes_advance kind)).issued
    · rintro id hid
      rw [← Option.some.inj hid]
      exact IdSupply.not_isUpcoming_advance kind

/-- Of what is handed out once, the part that is gone was. -/
theorem of_perm {gone : List Naming} (h : NamedOnce ids kind namings)
    (hperm : namings.Perm (gone ++ rest)) : NamedOnce ids kind gone where
  distinct := by
    have hdistinct := (hperm.map Prod.snd).nodup_iff.1 h.distinct
    rw [List.map_append] at hdistinct
    exact hdistinct.of_append_left
  issued n hn := h.issued n (hperm.mem_iff.2 (List.mem_append_left rest hn))

theorem length_le_one (h : NamedOnce ids kind namings) (entity : Given) :
    (namings.filter (·.2 == entity)).length ≤ 1 := by
  have hcount : (namings.map Prod.snd).count entity ≤ 1 :=
    List.nodup_iff_count_le_one.1 h.distinct entity
  rwa [List.count_eq_countP, List.countP_map, List.countP_eq_length_filter] at hcount

end NamedOnce

/-! ### Assignments -/

def AssignmentRow.isRevoked (r : AssignmentRow) : Bool :=
  r.status == AssignmentStatus.revoked.text

theorem AssignmentRow.isRevoked_of_isActive {r : AssignmentRow} (h : r.isActive = true) :
    r.isRevoked = false := by
  rw [isActive, beq_iff_eq] at h
  rw [isRevoked, h]
  rfl

/-- Is each assignment there the one of an entry, and has it a second one if it was revoked? -/
structure AssignmentTable.Told (ids : IdSupply) (assigned revoked : List Naming)
    (rows : List AssignmentRow) : Prop where
  table : assigned = rows.map AssignmentRow.naming
  once : NamedOnce ids .assignment assigned
  revocations : revoked.Perm ((rows.filter AssignmentRow.isRevoked).map AssignmentRow.naming)

namespace AssignmentTable.Told

variable {ids later : IdSupply} {assigned revoked : List Naming} {rows : List AssignmentRow}
  {r row : AssignmentRow}

theorem mono (h : Told ids assigned revoked rows) (hids : ids.Precedes later) :
    Told later assigned revoked rows := { h with once := h.once.mono hids }

theorem distinct (h : Told ids assigned revoked rows) : (rows.map (·.id)).Nodup := by
  have hnamed := h.once.distinct
  rw [h.table, List.map_map] at hnamed
  exact List.Nodup.of_map some (by rwa [List.map_map])

/-- Rows change, but neither what names them nor whether they are revoked. -/
theorem map (h : Told ids assigned revoked rows) {f : AssignmentRow → AssignmentRow}
    (hnaming : ∀ r, (f r).naming = r.naming) (hstate : ∀ r, (f r).isRevoked = r.isRevoked) :
    Told ids assigned revoked (rows.map f) where
  table := by
    rw [h.table, List.map_map]
    exact List.map_congr_left fun r _ => (hnaming r).symm
  once := h.once
  revocations := by
    have hsame : AssignmentRow.isRevoked ∘ f = AssignmentRow.isRevoked := funext hstate
    have hnamed : AssignmentRow.naming ∘ f = AssignmentRow.naming := funext hnaming
    rw [List.filter_map, List.map_map, hsame, hnamed]
    exact h.revocations

theorem add (h : Told ids assigned revoked rows) (hid : row.id = ids.next .assignment)
    (hrow : row.isRevoked = false) :
    Told (ids.advance .assignment) (assigned ++ [row.naming]) revoked (rows ++ [row]) where
  table := by rw [h.table, List.map_append, List.map_singleton]
  once := by
    have hnaming : row.naming = (some row.tenant, some (ids.next .assignment)) := by
      rw [← hid]
      rfl
    rw [hnaming]
    exact h.once.add _
  revocations := by
    rw [List.filter_append, List.filter_singleton, hrow]
    simpa using h.revocations

/-- The row that is revoked was not, and keeps its place. -/
theorem revoke (h : Told ids assigned revoked rows) (hmem : r ∈ rows) (hr : r.isRevoked = false)
    (hrow : row.isRevoked = true) (hnaming : row.naming = r.naming) :
    Told ids assigned (revoked ++ [r.naming]) (rows.map fun q => if q = r then row else q) where
  table := by rw [h.table, Table.map_replace hnaming]
  once := h.once
  revocations := by
    have hdistinct := h.distinct.of_map
    have hrevoked := h.revocations
    obtain ⟨before, behind, rfl⟩ := List.append_of_mem hmem
    rw [List.nodup_middle, List.nodup_cons, List.mem_append, not_or] at hdistinct
    have hothers {qs : List AssignmentRow} (hqs : r ∉ qs) :
        qs.map (fun q => if q = r then row else q) = qs := by
      rw [List.map_congr_left fun q hq => if_neg fun heq : q = r => hqs (heq ▸ hq), List.map_id']
    rw [List.map_append, List.map_cons, if_pos rfl, hothers hdistinct.1.1, hothers hdistinct.1.2]
    rw [List.filter_append, List.filter_cons_of_neg (by simp [hr]), List.map_append] at hrevoked
    rw [List.filter_append, List.filter_cons_of_pos hrow, List.map_append, List.map_cons, hnaming]
    exact ((hrevoked.append_right _).trans (List.perm_append_singleton _ _)).trans
      List.perm_middle.symm

/-- An assignment is named once, and once more if it was revoked. -/
theorem of_mem (h : Told ids assigned revoked rows) (hrow : row ∈ rows) :
    assigned.filter (·.2 == some row.id) = [row.naming] ∧
      revoked.filter (·.2 == some row.id) = if row.isRevoked then [row.naming] else [] := by
  have halone : rows.filter (fun r => r.naming.2 == some row.id) = [row] := by
    have hsame : ∀ r ∈ rows, (r.naming.2 == some row.id) = (r == row) := by
      intro r hr
      rw [Bool.eq_iff_iff, beq_iff_eq, beq_iff_eq]
      constructor
      · intro hid
        exact Table.eq_of_key h.distinct hr hrow (Option.some.inj hid)
      · rintro rfl
        rfl
    rw [List.filter_congr hsame, List.filter_beq, List.count_eq_one_of_mem h.distinct.of_map hrow]
    rfl
  refine ⟨?_, ?_⟩
  · rw [h.table, List.filter_map]
    exact congrArg (List.map AssignmentRow.naming) halone
  · have hperm := h.revocations.filter (·.2 == some row.id)
    rw [List.filter_map, List.filter_filter] at hperm
    have hcomm : rows.filter (fun r =>
        ((fun n : Naming => n.2 == some row.id) ∘ AssignmentRow.naming) r && r.isRevoked) =
        [row].filter AssignmentRow.isRevoked := by
      rw [← halone, List.filter_filter]
      exact List.filter_congr fun r _ => Bool.and_comm _ _
    rw [hcomm, List.filter_singleton] at hperm
    cases hrevoked : row.isRevoked with
    | true =>
      rw [hrevoked] at hperm
      exact List.perm_singleton.1 hperm
    | false =>
      rw [hrevoked] at hperm
      exact List.perm_nil.1 hperm

end AssignmentTable.Told

end Entitlements
