import Entitlements.Proofs.Catalog.Registration
import Entitlements.Proofs.Engine.Services
import Mathlib.Logic.Relation

/-!
Whose rows a call on the catalogue edits. Nobody has two rows for one key, not even the platform,
whose rows the table itself does not keep apart. A row keeps its key and its owner for as long as it
is there, and its identifier is not given to another one after it. And whoever calls, the rows of
all others are left alone: a global row is shown to a tenant, but any change of it is refused as
such, and rows of other tenants are as good as not there.
-/

namespace Entitlements

open Time Call Table PermissionTable

/-! ### The table -/

/-- Is a table well kept, with no two rows of one owner for one key, whoever the owner is? -/
structure PermissionTable.IsCatalogue (ids : IdSupply) (rows : List PermissionRow) : Prop
    extends WellKept ids rows where
  alone : rows.Pairwise fun a b => ¬(a.tenant = b.tenant ∧ a.key = b.key)
  valid : ∀ r ∈ rows, r.key.IsValid

namespace PermissionTable.IsCatalogue

variable {ids later : IdSupply} {rows : List PermissionRow}

theorem nil : IsCatalogue ids [] where
  distinct := List.nodup_nil
  issued := List.forall_mem_nil _
  single := .nil
  alone := .nil
  valid := List.forall_mem_nil _

theorem mono (h : IsCatalogue ids rows) (hids : ids.Precedes later) : IsCatalogue later rows :=
  { h with issued := fun r hr hup => h.issued r hr (hids _ _ hup) }

theorem append (h : IsCatalogue ids rows) {row : PermissionRow}
    (hid : row.id = ids.next .permission) (hnew : holds rows row.tenant row.key = false)
    (hvalid : row.key.IsValid) : IsCatalogue (ids.advance .permission) (rows ++ [row]) := by
  have hfree : ∀ r ∈ rows, ¬(r.tenant = row.tenant ∧ r.key = row.key) := by
    intro r hr hsame
    rw [holds_iff.2 ⟨r, hr, hsame⟩] at hnew
    cases hnew
  refine { h.toWellKept.append hid fun r hr _ => hfree r hr with alone := ?_, valid := ?_ }
  · refine List.pairwise_append.2 ⟨h.alone, List.pairwise_singleton _ _, fun r hr q hq => ?_⟩
    rw [List.mem_singleton.1 hq]
    exact hfree r hr
  · exact Store.forall_mem_append_singleton h.valid hvalid

theorem replace (h : IsCatalogue ids rows) {r row : PermissionRow} (hid : row.id = r.id)
    (htenant : row.tenant = r.tenant) (hkey : row.key = r.key) :
    IsCatalogue ids (rows.map fun q => if q = r then row else q) where
  toWellKept := h.toWellKept.map (replace_congr _ hid) (replace_congr _ htenant)
    (replace_congr _ hkey)
  alone := by
    rw [List.pairwise_map]
    simpa only [replace_congr PermissionRow.tenant htenant, replace_congr PermissionRow.key hkey]
      using h.alone
  valid := by
    refine List.forall_mem_map.2 fun q hq => ?_
    rw [replace_congr PermissionRow.key hkey]
    exact h.valid q hq

theorem filter (h : IsCatalogue ids rows) (keep : PermissionRow → Bool) :
    IsCatalogue ids (rows.filter keep) where
  toWellKept := h.toWellKept.filter keep
  alone := h.alone.filter keep
  valid r hr := h.valid r (List.mem_filter.1 hr).1

end PermissionTable.IsCatalogue

/-! ### Engines one after the other -/

namespace Engine

/-- Is a catalogue still one, in which each row continues an earlier one or is new? -/
structure Continues (e e' : Engine) : Prop where
  ids : e.ids.Precedes e'.ids
  table : IsCatalogue e.ids e.store.permissions → IsCatalogue e'.ids e'.store.permissions
  rows : ∀ q ∈ e'.store.permissions, e.ids.IsUpcoming .permission q.id ∨
    ∃ r ∈ e.store.permissions, q.id = r.id ∧ q.tenant = r.tenant ∧ q.key = r.key

/-- Does a catalogue continue with the rows of all but one owner as they were? -/
structure EditsOwn (owner : Given) (e e' : Engine) : Prop extends Continues e e' where
  others : IsCatalogue e.ids e.store.permissions →
    SparesRest (·.tenant == owner) e.store.permissions e'.store.permissions

variable {e e₁ e' : Engine} {owner : Given}

theorem Continues.trans (h : e.Continues e₁) (h' : e₁.Continues e') : e.Continues e' where
  ids := h.ids.trans h'.ids
  table he := h'.table (h.table he)
  rows := by
    intro q hq
    obtain hup | ⟨r, hr, hid, htenant, hkey⟩ := h'.rows q hq
    · exact .inl (h.ids _ _ hup)
    obtain hup | ⟨p, hp, hid', htenant', hkey'⟩ := h.rows r hr
    · exact .inl (hid ▸ hup)
    · exact .inr ⟨p, hp, hid.trans hid', htenant.trans htenant', hkey.trans hkey'⟩

theorem continues_of_table (htable : e'.store.permissions = e.store.permissions)
    (hids : e.ids.Precedes e'.ids) : e.Continues e' where
  ids := hids
  table he := htable ▸ he.mono hids
  rows q hq := .inr ⟨q, htable ▸ hq, rfl, rfl, rfl⟩

theorem editsOwn_of_table (htable : e'.store.permissions = e.store.permissions)
    (hids : e.ids.Precedes e'.ids) : e.EditsOwn owner e' :=
  { continues_of_table htable hids with others := fun _ => by rw [htable]; rfl }

instance : IsPreorder Engine Continues where
  refl e := continues_of_table rfl (.refl e.ids)
  trans _ _ _ := .trans

instance : IsPreorder Engine (EditsOwn owner) where
  refl e := editsOwn_of_table rfl (.refl e.ids)
  trans _ _ _ h h' :=
    { h.toContinues.trans h'.toContinues with
      others := fun he => (h'.others (h.table he)).trans (h.others he) }

theorem EditsOwn.restored (h : e.EditsOwn owner e') :
    e.EditsOwn owner { e' with store := e.store } := editsOwn_of_table rfl h.ids

/-! What the writes of the catalogue do to it. -/

theorem editsOwn_registered {row : PermissionRow} (hid : row.id = e.ids.next .permission)
    (howner : row.tenant = owner) (hnew : holds e.store.permissions owner row.key = false)
    (hvalid : row.key.IsValid) (entries : List AuditRow) :
    e.EditsOwn owner (e.registered [row] entries (e.ids.advance .permission)) where
  ids := e.ids.precedes_advance .permission
  table he := he.append hid (howner ▸ hnew) hvalid
  rows := by
    refine Store.forall_mem_append_singleton (fun r hr => .inr ⟨r, hr, rfl, rfl, rfl⟩) (.inl ?_)
    rw [hid]
    exact e.ids.isUpcoming_next .permission
  others _ := sparesRest_append (by rw [howner, beq_self_eq_true])

theorem editsOwn_replacePermission {r row : PermissionRow} (howner : r.tenant = owner)
    (hid : row.id = r.id) (htenant : row.tenant = r.tenant) (hkey : row.key = r.key) :
    e.EditsOwn owner { e with store := e.store.replacePermission r row } where
  ids := .refl e.ids
  table he := he.replace hid htenant hkey
  rows := List.forall_mem_map.2 fun q hq => .inr ⟨q, hq, replace_congr _ hid q,
    replace_congr _ htenant q, replace_congr _ hkey q⟩
  others _ := sparesRest_replace (by rw [howner, beq_self_eq_true]) (by rw [htenant])

/-- The row is the only one with its identifier. -/
theorem editsOwn_removePermission {r : PermissionRow} (hr : r ∈ e.store.permissions)
    (howner : r.tenant = owner) :
    e.EditsOwn owner { e with store := e.store.removePermission r.id } where
  ids := .refl e.ids
  table he := he.filter _
  rows q hq := .inr ⟨q, (List.mem_filter.1 hq).1, rfl, rfl, rfl⟩
  others he := by
    refine sparesRest_remove fun q hq hother => bne_iff_ne.2 fun hid => ?_
    rw [eq_of_key he.distinct hq hr hid, howner, beq_self_eq_true] at hother
    cases hother

end Engine

/-! ### Calls -/

namespace Catalog

open Engine

variable {env : Environment} {owner : Given} (actor : Given)

theorem audit_editsOwn (type : EventType) (row : PermissionRow) (more : Json.Fields) :
    Moves (EditsOwn owner) env (audit owner actor type row more) := by
  intro e
  obtain ⟨entries, -, hlogged⟩ := outcome_audit env e owner actor type row more
  rw [after_eq_of_outcome hlogged]
  exact editsOwn_of_table (List.append_nil _) (.refl e.ids)

theorem insert_editsOwn (hnotices : env.Notices owner) (p : NewPermission) :
    Moves (EditsOwn owner) env (insert owner p actor) := by
  intro e
  have hends := outcome_insert env e owner actor p
  rw [after]
  generalize (insert owner p actor).outcome env e = r at hends
  cases hends with
  | refused => exact refl e
  | taken _ _ hids => exact editsOwn_of_table rfl hids
  | added hvalid hnew hid hrow =>
    refine editsOwn_registered hid hrow.tenant ?_ ?_ _
    · rw [hrow.key]
      exact hnew hnotices
    · rw [hrow.key]
      exact hvalid.key

theorem update_editsOwn (id : Given) (c : PermissionChange) :
    Moves (EditsOwn owner) env (update owner id c actor) := by
  refine Moves.transaction (fun _ _ h => h.restored) fun e => ?_
  obtain ⟨answer, hanswer, howned⟩ := outcome_owned env e owner id
  refine after_bind_of_outcome hanswer (refl e) fun row hrow => ?_
  obtain ⟨-, howner⟩ := howned row hrow
  refine Moves.after_choice (.pure _) (.ofExcept _) (fun risk => Moves.now.bind fun now => ?_) e
  intro e
  rw [after_bind_of_ok (outcome_store env e), after_bind_of_ok (outcome_write env e _),
    after_bind_pure]
  have hchanged : e.EditsOwn owner
      { e with store := e.store.replacePermission row (c.apply risk now row) } :=
    editsOwn_replacePermission howner rfl rfl rfl
  exact IsTrans.trans _ _ _ hchanged (audit_editsOwn actor _ _ _ _)

theorem delete_editsOwn (id : Given) : Moves (EditsOwn owner) env (delete owner id actor) := by
  refine Moves.transaction (fun _ _ h => h.restored) fun e => ?_
  obtain ⟨answer, hanswer, howned⟩ := outcome_owned env e owner id
  refine after_bind_of_outcome hanswer (refl e) fun row hrow => ?_
  obtain ⟨hmem, howner⟩ := howned row hrow
  obtain ⟨entries, -, hlogged⟩ := outcome_audit env e owner actor .domainPermissionDeleted row []
  rw [after_bind_of_ok hlogged, after_bind_of_ok (outcome_store env _)]
  have hkept : e.EditsOwn owner (e.registered [] entries e.ids) :=
    editsOwn_of_table (List.append_nil _) (.refl e.ids)
  refine IsTrans.trans _ _ _ hkept (editsOwn_removePermission ?_ howner)
  exact List.mem_append_left _ hmem

end Catalog

/-- Whatever a caller asks of the catalogue, only rows of the caller change. -/
theorem CatalogCall.editsOwn (op : CatalogCall α) {env : Environment}
    (hnotices : env.Notices op.owner) : Moves (Engine.EditsOwn op.owner) env op.call :=
  op.moves (fun _ _ h => h.restored) (fun p actor => Catalog.insert_editsOwn actor hnotices p)
    (fun id c actor => Catalog.update_editsOwn actor id c)
    (fun id actor => Catalog.delete_editsOwn actor id)

/-! ### Rows of others -/

/-- A look-up finds the row with the identifier, or nothing. -/
theorem Store.visiblePermission?_of_mem {s : Store} {owner : Given} {r : PermissionRow}
    (hdistinct : (s.permissions.map (·.id)).Nodup) (hr : r ∈ s.permissions) :
    s.visiblePermission? owner (some r.id) = if r.isVisibleTo owner then some r else none := by
  cases hfind : s.visiblePermission? owner (some r.id) with
  | none =>
    have hhidden := List.find?_eq_none.1 hfind r hr
    rw [if_neg (by simpa using hhidden)]
  | some q =>
    have hfound := List.find?_some hfind
    rw [Bool.and_eq_true, beq_iff_eq, Option.some.injEq] at hfound
    obtain rfl := eq_of_key hdistinct (List.mem_of_find?_eq_some hfind) hr hfound.1
    rw [if_pos hfound.2]

namespace Catalog

variable (env : Environment) {e : Engine} {owner : Given} {r : PermissionRow}
  (h : IsCatalogue e.ids e.store.permissions) (hr : r ∈ e.store.permissions)

include h hr

theorem outcome_get_of_mem (owner : Given) :
    (get owner (some r.id)).outcome env e =
      (if r.isVisibleTo owner then .ok r else .error (.permissionNotFound (some r.id)), e) := by
  rw [get, outcome_bind, outcome_store, andThen_ok, outcome_orFail,
    Store.visiblePermission?_of_mem h.distinct hr]
  split <;> rfl

/-- What a caller is told who wants to change a row of somebody else. -/
theorem outcome_owned_of_other (hother : r.tenant ≠ owner) :
    (owned owner (some r.id)).outcome env e =
      (.error (if r.tenant = none then .immutable .globalPermission .modify (some r.id)
        else .permissionNotFound (some r.id)), e) := by
  have hvisible : r.isVisibleTo owner = true ↔ r.tenant = none := by
    simp [PermissionRow.isVisibleTo, hother]
  rw [owned, outcome_bind, outcome_get_of_mem env h hr]
  by_cases hglobal : r.tenant = none
  · rw [if_pos (hvisible.2 hglobal), if_pos hglobal, andThen_ok, if_pos hother]
    rfl
  · rw [if_neg (hvisible.not.2 hglobal), if_neg hglobal, andThen_error]

/-- A call that has to own the row does no more than say so. -/
theorem outcome_of_other (hother : r.tenant ≠ owner) (k : PermissionRow → Call α) :
    (transaction (owned owner (some r.id) >>= k)).outcome env e =
      (.error (if r.tenant = none then .immutable .globalPermission .modify (some r.id)
        else .permissionNotFound (some r.id)), e) := by
  rw [outcome_transaction, outcome_bind, outcome_owned_of_other env h hr hother, andThen_error]

end Catalog

/-! ### Runs -/

/-- One call on the catalogue, or something that happens elsewhere on the deployment. -/
inductive CatalogStep (e : Engine) : Engine → Prop
  | call (env : Environment) (op : CatalogCall α) (hnotices : env.Notices op.owner) :
    CatalogStep e (op.call.after env e)
  | elsewhere {e' : Engine} (htable : e'.store.permissions = e.store.permissions)
    (hids : e.ids.Precedes e'.ids) : CatalogStep e e'

abbrev CatalogRun : Engine → Engine → Prop := Relation.ReflTransGen CatalogStep

theorem CatalogStep.continues {e e' : Engine} (h : CatalogStep e e') : e.Continues e' := by
  cases h with
  | call env op hnotices => exact (op.editsOwn hnotices e).toContinues
  | elsewhere htable hids => exact Engine.continues_of_table htable hids

theorem CatalogRun.continues {e e' : Engine} (h : CatalogRun e e') : e.Continues e' := by
  induction h with
  | refl => exact refl e
  | tail _ hstep ih => exact ih.trans hstep.continues

/-- A catalogue that started empty. Whatever tenants and the platform have asked for, no two rows
are one owner's for one key, and all keys are valid. Whatever is asked for after that, rows keep
their keys and owners, and each call leaves the rows of all but the caller as they are. And a row of
somebody else can be read if it is global, but not changed; if not, it is as good as not there. -/
theorem catalogue_keeps_owners_apart {e₀ e : Engine} (hempty : e₀.store.permissions = [])
    (hrun : CatalogRun e₀ e) :
    (e.store.permissions.Pairwise fun a b => ¬(a.tenant = b.tenant ∧ a.key = b.key)) ∧
      (∀ r ∈ e.store.permissions, ∀ segment ∈ r.key.parts, Segment.isValid segment = true) ∧
      (∀ e', CatalogRun e e' → ∀ r ∈ e.store.permissions, ∀ q ∈ e'.store.permissions,
        q.id = r.id → q.tenant = r.tenant ∧ q.key = r.key) ∧
      (∀ α (op : CatalogCall α) (env : Environment), env.Notices op.owner →
        SparesRest (·.tenant == op.owner) e.store.permissions
          (op.call.after env e).store.permissions) ∧
      ∀ env owner actor c, ∀ r ∈ e.store.permissions, r.tenant ≠ owner →
        (r.tenant = none →
          (Catalog.get owner (some r.id)).outcome env e = (.ok r, e) ∧
          (Catalog.update owner (some r.id) c actor).outcome env e =
            (.error (.immutable .globalPermission .modify (some r.id)), e) ∧
          (Catalog.delete owner (some r.id) actor).outcome env e =
            (.error (.immutable .globalPermission .modify (some r.id)), e)) ∧
        (r.tenant ≠ none →
          (Catalog.get owner (some r.id)).outcome env e =
            (.error (.permissionNotFound (some r.id)), e) ∧
          (Catalog.update owner (some r.id) c actor).outcome env e =
            (.error (.permissionNotFound (some r.id)), e) ∧
          (Catalog.delete owner (some r.id) actor).outcome env e =
            (.error (.permissionNotFound (some r.id)), e)) := by
  have hcatalogue : IsCatalogue e.ids e.store.permissions :=
    hrun.continues.table (hempty ▸ .nil)
  refine ⟨hcatalogue.alone, hcatalogue.valid, fun e' hrun' r hr q hq hid => ?_,
    fun α op env hnotices => (op.editsOwn hnotices e).others hcatalogue,
    fun env owner actor c r hr hother => ⟨fun hglobal => ?_, fun hforeign => ?_⟩⟩
  · obtain hup | ⟨p, hp, hid', htenant, hkey⟩ := hrun'.continues.rows q hq
    · exact absurd (hid ▸ hup) (hcatalogue.issued r hr)
    · obtain rfl := eq_of_key hcatalogue.distinct hp hr (hid'.symm.trans hid)
      exact ⟨htenant, hkey⟩
  · have hvisible : r.isVisibleTo owner = true := by simp [PermissionRow.isVisibleTo, hglobal]
    have hget := Catalog.outcome_get_of_mem env hcatalogue hr owner
    have hchange {β : Type} (k : PermissionRow → Call β) :=
      Catalog.outcome_of_other env hcatalogue hr hother k
    rw [if_pos hvisible] at hget
    simp only [if_pos hglobal] at hchange
    exact ⟨hget, hchange _, hchange _⟩
  · have hhidden : ¬r.isVisibleTo owner = true := by
      simp [PermissionRow.isVisibleTo, hforeign, hother]
    have hget := Catalog.outcome_get_of_mem env hcatalogue hr owner
    have hchange {β : Type} (k : PermissionRow → Call β) :=
      Catalog.outcome_of_other env hcatalogue hr hother k
    rw [if_neg hhidden] at hget
    simp only [if_neg hforeign] at hchange
    exact ⟨hget, hchange _, hchange _⟩

/-- The platform and a tenant have a row each for one key. The tenant cannot delete the platform's,
and another tenant does not find the tenant's. -/
theorem fan_of_another_is_left_alone :
    let env := Environment.plain
    let fan : NewPermission := ⟨⟨"hvac", "fan", "roof", "start"⟩, none, none, .null⟩
    let e₀ := Engine.start ⟨0⟩ false
    let e₁ := (CatalogCall.create none fan none).call.after env e₀
    let e := (CatalogCall.create (some "acme") fan none).call.after env e₁
    e₀.store.permissions = [] ∧ CatalogRun e₀ e ∧
      e.store.permissions.map (fun r => (r.id, r.tenant)) =
        [("dp-0001", none), ("dp-0002", some "acme")] ∧
      (Catalog.delete (some "acme") (some "dp-0001") none).outcome env e =
        (.error (.immutable .globalPermission .modify (some "dp-0001")), e) ∧
      (Catalog.get (some "globex") (some "dp-0002")).outcome env e =
        (.error (.permissionNotFound (some "dp-0002")), e) := by
  intro env fan e₀ e₁ e
  have hempty : e₀.store.permissions = [] := rfl
  have hplain {owner : Given} : env.Notices owner := nofun
  have hrun : CatalogRun e₀ e :=
    (Relation.ReflTransGen.single (.call env (.create none fan none) hplain)).tail
      (.call env (.create (some "acme") fan none) hplain)
  have hrows : e.store.permissions.map (fun r => (r.id, r.tenant)) =
      [("dp-0001", none), ("dp-0002", some "acme")] := by decide +kernel
  obtain ⟨-, -, -, -, hothers⟩ := catalogue_keeps_owners_apart hempty hrun
  have hmem {id : String} {tenant : Given}
      (h : (id, tenant) ∈ [("dp-0001", none), ("dp-0002", some "acme")]) :
      ∃ r ∈ e.store.permissions, r.id = id ∧ r.tenant = tenant := by
    rw [← hrows] at h
    simpa using h
  refine ⟨hempty, hrun, hrows, ?_, ?_⟩
  · obtain ⟨r, hr, hid, htenant⟩ := hmem (.head _)
    have hdeleted := (hothers env (some "acme") none ⟨none, none, .null, none⟩ r hr
      (by rw [htenant]; nofun)).1 htenant
    rw [← hid]
    exact hdeleted.2.2
  · obtain ⟨r, hr, hid, htenant⟩ := hmem (.tail _ (.head _))
    have hread := (hothers env (some "globex") none ⟨none, none, .null, none⟩ r hr
      (by rw [htenant]; decide)).2 (by rw [htenant]; nofun)
    rw [← hid]
    exact hread.1

/-- Where somebody comes in between two calls of the platform, it has a key twice. -/
example :
    let env := { Environment.plain with isOvertaken := true }
    let fan : NewPermission := ⟨⟨"hvac", "fan", "roof", "start"⟩, none, none, .null⟩
    let e := (CatalogCall.create none fan none).call.after env (Engine.start ⟨0⟩ false)
    ((CatalogCall.create none fan none).call.after env e).store.permissions.map
      (fun r => (r.tenant, r.key)) = [(none, fan.key), (none, fan.key)] := by decide +kernel

end Entitlements
