import Entitlements.Proofs.Cache.Edits
import Entitlements.Proofs.Tenancy.Isolation

/-!
What a tenant writes. A write changes one table, so two engines go on alike if their tables were
edited alike; the other nine need no argument. For each function of the store that writes there is a
lemma here that says so. What is written is made of the call and of rows that twins share, and where
a write is refused, the rows that stand in its way are the tenant's own.
-/

namespace Entitlements

open Time Table

/-! ### What is added -/

/-- The row of a new policy. No row that is added depends on what is in the tables. -/
def PolicyDraft.row? (d : PolicyDraft) (id tenant : String) (actor : Given) (now : Instant) :
    Option PolicyRow := do
  return { tenant, createdBy := actor, updatedBy := actor, updatedAt := now
           policy :=
            { id, key := ← d.key, allow := d.allow, deny := d.deny, risk := d.risk
              conditions := d.conditions, displayName := ← d.displayName
              description := d.description, isSystem := d.isSystem } }

theorem PolicyDraft.of_row? {d : PolicyDraft} {id tenant : String} {actor : Given} {now : Instant}
    {row : PolicyRow} (h : d.row? id tenant actor now = some row) :
    row.tenant = tenant ∧ some row.policy.key = d.key := by
  simp only [row?, Option.bind_eq_bind, Option.bind_eq_some_iff] at h
  obtain ⟨_, hkey, _, -, h⟩ := h
  cases h
  exact ⟨rfl, hkey.symm⟩

theorem Store.insertPolicy?_eq (s : Store) (id tenant : String) (d : PolicyDraft) (actor : Given)
    (now : Instant) : s.insertPolicy? id (some tenant) d actor now =
      (d.row? id tenant actor now).map fun row =>
        ({ s with policies := s.policies ++ [row] }, row.record) := by
  simp [insertPolicy?, PolicyDraft.row?, Option.map_bind]

theorem PolicyRow.of_updated? {r row : PolicyRow} {d : PolicyDraft} {actor : Given} {now : Instant}
    (h : r.updated? d actor now = some row) :
    row.tenant = r.tenant ∧ row.policy.key = r.policy.key := by
  simp only [updated?, Option.bind_eq_bind, Option.bind_eq_some_iff] at h
  obtain ⟨_, -, h⟩ := h
  cases h
  exact ⟨rfl, rfl⟩

def RoleDraft.row? (d : RoleDraft) (id tenant : String) (actor : Given) (now : Instant) :
    Option RoleRow := do
  return { tenant, createdBy := actor, updatedBy := actor, updatedAt := now
           role :=
            { id, key := ← d.key, policyKeys := d.policyKeys, risk := d.risk
              displayName := ← d.displayName, description := d.description, tags := d.tags
              isSystem := d.isSystem } }

theorem RoleDraft.of_row? {d : RoleDraft} {id tenant : String} {actor : Given} {now : Instant}
    {row : RoleRow} (h : d.row? id tenant actor now = some row) :
    row.tenant = tenant ∧ some row.role.key = d.key := by
  simp only [row?, Option.bind_eq_bind, Option.bind_eq_some_iff] at h
  obtain ⟨_, hkey, _, -, h⟩ := h
  cases h
  exact ⟨rfl, hkey.symm⟩

theorem Store.insertRole?_eq (s : Store) (id tenant : String) (d : RoleDraft) (actor : Given)
    (now : Instant) : s.insertRole? id (some tenant) d actor now =
      (d.row? id tenant actor now).map fun row =>
        ({ s with roles := s.roles ++ [row] }, row.role) := by
  simp [insertRole?, RoleDraft.row?, Option.map_bind]

theorem RoleRow.of_updated? {r row : RoleRow} {d : RoleDraft} {actor : Given} {now : Instant}
    (h : r.updated? d actor now = some row) :
    row.tenant = r.tenant ∧ row.role.key = r.role.key := by
  simp only [updated?, Option.bind_eq_bind, Option.bind_eq_some_iff] at h
  obtain ⟨_, -, h⟩ := h
  cases h
  exact ⟨rfl, rfl⟩

def AssignmentDraft.row? (d : AssignmentDraft) (id tenant : String) (now : Instant) :
    Option AssignmentRow := do
  return { tenant, id, userId := ← d.user, roleKey := ← d.role, scope := ← d.scope
           status := AssignmentStatus.active.text, grantedBy := ← d.grantedBy, grantedAt := now
           expiresAt := d.expiresAt.map (·.reading), reason := d.reason, updatedBy := d.grantedBy
           updatedAt := now }

theorem AssignmentDraft.of_row? {d : AssignmentDraft} {id tenant : String} {now : Instant}
    {row : AssignmentRow} (h : d.row? id tenant now = some row) :
    row.tenant = tenant ∧ row.id = id := by
  simp only [row?, Option.bind_eq_bind, Option.bind_eq_some_iff] at h
  obtain ⟨_, -, _, -, _, -, _, -, h⟩ := h
  cases h
  exact ⟨rfl, rfl⟩

theorem Store.insertAssignment?_eq (s : Store) (id tenant : String) (d : AssignmentDraft)
    (now : Instant) : s.insertAssignment? id (some tenant) d now =
      (d.row? id tenant now).bind fun row =>
        let retired := s.expireWhere (·.hasTriple (some tenant) d.user d.role d.scope) now
        if retired.clashes row then none
        else some ({ retired with assignments := retired.assignments ++ [row] }, row) := by
  simp [insertAssignment?, AssignmentDraft.row?, Option.bind_assoc]

/-- The row after its state has been set. -/
def AssignmentRow.inState (r : AssignmentRow) (status : String) (actor : Given) (now : Instant) :
    AssignmentRow := { r with status, updatedBy := actor, updatedAt := now }

theorem Store.setStatus?_eq (s : Store) (r : AssignmentRow) (status : String) (actor : Given)
    (now : Instant) : s.setStatus? r (some status) actor now =
      if s.clashes (r.inState status actor now) then none
      else some ({ s with
        assignments := s.assignments.map fun q =>
          if q = r then r.inState status actor now else q }, r.inState status actor now) := rfl

def PermissionDraft.row (d : PermissionDraft) (id : String) (owner : Given) (now : Instant) :
    PermissionRow :=
  { id, tenant := owner, key := d.key, displayName := d.displayName
    description := d.description, risk := d.risk, isActive := true, updatedAt := now }

/-- Only the rows of tenants stand in the way of others. -/
theorem Store.insertPermission?_eq (s : Store) (id : String) (owner : Given) (d : PermissionDraft)
    (now : Instant) : s.insertPermission? id owner d now =
      if owner.isSome && s.permissions.any (fun r => r.tenant == owner && r.key == d.key) then none
      else some ({ s with permissions := s.permissions ++ [d.row id owner now] },
        d.row id owner now) := by
  have hclash (r : PermissionRow) :
      (r.tenant.isSome && r.tenant == owner && r.key == d.key) =
        (owner.isSome && (r.tenant == owner && r.key == d.key)) := by
    rw [← Bool.and_assoc]
    congr 1
    cases h : r.tenant == owner with
    | false => rw [Bool.and_false, Bool.and_false]
    | true => rw [beq_iff_eq.1 h]
  simp only [insertPermission?, PermissionDraft.row, hclash, List.and_any_distrib_left]

/-- The row of a new entry of the audit log, up to its number. -/
def AuditDraft.row? (d : AuditDraft) : Option AuditRow := do
  return { id := 0, occurredAt := d.occurredAt, tenant := d.tenant, actorType := ← d.actorType
           actorId := d.actorId, eventType := ← d.eventType, outcome := ← d.outcome
           resourceType := d.resourceType, resourceId := d.resourceId
           correlationId := d.correlationId
           metadata := Store.kept d.metadata.redact.toJson }

theorem AuditDraft.of_row? {d : AuditDraft} {row : AuditRow} (h : d.row? = some row) :
    row.tenant = d.tenant := by
  simp only [row?, Option.bind_eq_bind, Option.bind_eq_some_iff] at h
  obtain ⟨_, -, _, -, _, -, h⟩ := h
  cases h
  rfl

theorem Store.appendAudit?_eq (s : Store) (d : AuditDraft) :
    s.appendAudit? d = d.row?.map fun row =>
      { s with audit := s.audit ++ [{ row with id := s.nextAuditId }] } := by
  simp [appendAudit?, AuditDraft.row?, Option.map_bind]

namespace Engine

variable {tenant : String} {e e' : Engine}

/-! ### One table -/

theorem Spares.of_store {s : Store} (h : e.store.Spares tenant s) :
    e.Spares tenant { e with store := s } := ⟨h, fun _ _ hid => hid⟩

namespace Twin

theorem withPolicies (h : e.Twin tenant e') {p p' : List PolicyRow}
    (hp : EditsAlike (·.tenant == tenant) (fun r => (r.tenant, r.policy.key)) e.store.policies
      e'.store.policies p p') :
    e.StepsAlike tenant e' { e with store := { e.store with policies := p } }
      { e' with store := { e'.store with policies := p' } } where
  twin :=
    { h with
      store := { h.store with policies := hp.same }
      left := { h.left with policies := hp.distinct }
      right := { h.right with policies := hp.distinct' } }
  left := .of_store { Store.Spares.refl tenant e.store with policies := hp.left }
  right := .of_store { Store.Spares.refl tenant e'.store with policies := hp.right }

theorem withRoles (h : e.Twin tenant e') {p p' : List RoleRow}
    (hp : EditsAlike (·.tenant == tenant) (fun r => (r.tenant, r.role.key)) e.store.roles
      e'.store.roles p p') :
    e.StepsAlike tenant e' { e with store := { e.store with roles := p } }
      { e' with store := { e'.store with roles := p' } } where
  twin :=
    { h with
      store := { h.store with roles := hp.same }
      left := { h.left with roles := hp.distinct }
      right := { h.right with roles := hp.distinct' } }
  left := .of_store { Store.Spares.refl tenant e.store with roles := hp.left }
  right := .of_store { Store.Spares.refl tenant e'.store with roles := hp.right }

theorem withCache (h : e.Twin tenant e') {p p' : List CacheRow}
    (hp : EditsAlike (·.tenant == tenant) CacheRow.key e.store.cache e'.store.cache p p') :
    e.StepsAlike tenant e' { e with store := { e.store with cache := p } }
      { e' with store := { e'.store with cache := p' } } where
  twin :=
    { h with
      store := { h.store with cache := hp.same }
      left := { h.left with cache := hp.distinct }
      right := { h.right with cache := hp.distinct' } }
  left := .of_store { Store.Spares.refl tenant e.store with cache := hp.left }
  right := .of_store { Store.Spares.refl tenant e'.store with cache := hp.right }

theorem withAssignments (h : e.Twin tenant e') {p p' : List AssignmentRow}
    (hsame : SeesSame (·.tenant == tenant) p p')
    (hl : SparesRest (·.tenant == tenant) e.store.assignments p)
    (hr : SparesRest (·.tenant == tenant) e'.store.assignments p')
    (hw : AssignmentTable.WellKept e.ids p) (hw' : AssignmentTable.WellKept e'.ids p') :
    e.StepsAlike tenant e' { e with store := { e.store with assignments := p } }
      { e' with store := { e'.store with assignments := p' } } where
  twin :=
    { h with
      store := { h.store with assignments := hsame }
      left := { h.left with assignments := hw }
      right := { h.right with assignments := hw' } }
  left := .of_store { Store.Spares.refl tenant e.store with assignments := hl }
  right := .of_store { Store.Spares.refl tenant e'.store with assignments := hr }

theorem withPermissions (h : e.Twin tenant e') {p p' : List PermissionRow}
    (hsame : SeesSame (PermissionRow.isVisibleTo (some tenant)) p p')
    (hl : SparesRest (·.tenant == some tenant) e.store.permissions p)
    (hr : SparesRest (·.tenant == some tenant) e'.store.permissions p')
    (hw : PermissionTable.WellKept e.ids p) (hw' : PermissionTable.WellKept e'.ids p') :
    e.StepsAlike tenant e' { e with store := { e.store with permissions := p } }
      { e' with store := { e'.store with permissions := p' } } where
  twin :=
    { h with
      store := { h.store with permissions := hsame }
      left := { h.left with permissions := hw }
      right := { h.right with permissions := hw' } }
  left := .of_store { Store.Spares.refl tenant e.store with permissions := hl }
  right := .of_store { Store.Spares.refl tenant e'.store with permissions := hr }

/-! ### Policies and roles -/

theorem addPolicy (h : e.Twin tenant e') {row : PolicyRow} (htenant : row.tenant = tenant)
    (hnew : e.store.policyRow? (some tenant) (some row.policy.key) = none) :
    e.StepsAlike tenant e'
      { e with store := { e.store with policies := e.store.policies ++ [row] } }
      { e' with store := { e'.store with policies := e'.store.policies ++ [row] } } :=
  h.withPolicies (.append_named h.store.policies h.left.policies h.right.policies htenant hnew)

theorem replacePolicy (h : e.Twin tenant e') {r row : PolicyRow} (hr : r.tenant = tenant)
    (htenant : row.tenant = r.tenant) (hkey : row.policy.key = r.policy.key) :
    e.StepsAlike tenant e'
      { e with store := { e.store with
          policies := e.store.policies.map fun q => if q = r then row else q } }
      { e' with store := { e'.store with
          policies := e'.store.policies.map fun q => if q = r then row else q } } :=
  h.withPolicies
    (.replace_named h.store.policies h.left.policies h.right.policies hr htenant hkey)

theorem removePolicy (h : e.Twin tenant e') (key : Given) :
    e.StepsAlike tenant e' { e with store := e.store.removePolicy (some tenant) key }
      { e' with store := e'.store.removePolicy (some tenant) key } :=
  h.withPolicies (.remove_named h.store.policies h.left.policies h.right.policies key)

theorem addRole (h : e.Twin tenant e') {row : RoleRow} (htenant : row.tenant = tenant)
    (hnew : e.store.roleRow? (some tenant) (some row.role.key) = none) :
    e.StepsAlike tenant e'
      { e with store := { e.store with roles := e.store.roles ++ [row] } }
      { e' with store := { e'.store with roles := e'.store.roles ++ [row] } } :=
  h.withRoles (.append_named h.store.roles h.left.roles h.right.roles htenant hnew)

theorem replaceRole (h : e.Twin tenant e') {r row : RoleRow} (hr : r.tenant = tenant)
    (htenant : row.tenant = r.tenant) (hkey : row.role.key = r.role.key) :
    e.StepsAlike tenant e'
      { e with store := { e.store with
          roles := e.store.roles.map fun q => if q = r then row else q } }
      { e' with store := { e'.store with
          roles := e'.store.roles.map fun q => if q = r then row else q } } :=
  h.withRoles (.replace_named h.store.roles h.left.roles h.right.roles hr htenant hkey)

theorem removeRole (h : e.Twin tenant e') (key : Given) :
    e.StepsAlike tenant e' { e with store := e.store.removeRole (some tenant) key }
      { e' with store := e'.store.removeRole (some tenant) key } :=
  h.withRoles (.remove_named h.store.roles h.left.roles h.right.roles key)

/-! ### Assignments -/

theorem settle_of_not_selected {selected : AssignmentRow → Bool} {now : Instant}
    {r : AssignmentRow} (h : selected r = false) : Store.settle selected now r = r := by
  rw [Store.settle, h]
  rfl

theorem tenant_settle (selected : AssignmentRow → Bool) (now : Instant) (r : AssignmentRow) :
    (Store.settle selected now r).tenant = r.tenant := by
  rw [(AssignmentRow.becomes_settle selected (Int.le_refl now.micros) r).grant]

/-- Recording what has lapsed of a tenant's rows, in both tables. -/
theorem settled (h : e.Twin tenant e') {selected : AssignmentRow → Bool}
    (hselected : ∀ r, selected r = true → r.tenant = tenant) (now : Instant) :
    SeesSame (·.tenant == tenant) (e.store.expireWhere selected now).assignments
        (e'.store.expireWhere selected now).assignments ∧
      SparesRest (·.tenant == tenant) e.store.assignments
        (e.store.expireWhere selected now).assignments ∧
      SparesRest (·.tenant == tenant) e'.store.assignments
        (e'.store.expireWhere selected now).assignments := by
  have hown (r : AssignmentRow) :
      ((Store.settle selected now r).tenant == tenant) = (r.tenant == tenant) := by
    rw [tenant_settle]
  have hother (r : AssignmentRow) (hr : (r.tenant == tenant) = false) :
      Store.settle selected now r = r :=
    settle_of_not_selected (Bool.eq_false_iff.2 fun hsel => by simp [hselected r hsel] at hr)
  exact ⟨h.store.assignments.map hown, sparesRest_map hown hother, sparesRest_map hown hother⟩

theorem wellKept_settled {ids : IdSupply} {s : Store}
    (h : AssignmentTable.WellKept ids s.assignments) (selected : AssignmentRow → Bool)
    (now : Instant) : AssignmentTable.WellKept ids (s.expireWhere selected now).assignments :=
  h.map fun a _ => AssignmentRow.becomes_settle selected (Int.le_refl now.micros) a

theorem expireWhere (h : e.Twin tenant e') {selected : AssignmentRow → Bool}
    (hselected : ∀ r, selected r = true → r.tenant = tenant) (now : Instant) :
    e.StepsAlike tenant e' { e with store := e.store.expireWhere selected now }
      { e' with store := e'.store.expireWhere selected now } := by
  obtain ⟨hsame, hl, hr⟩ := h.settled hselected now
  exact h.withAssignments hsame hl hr (wellKept_settled h.left.assignments selected now)
    (wellKept_settled h.right.assignments selected now)

end Twin

end Engine

/-- Only rows of one tenant can stand in the way of a row of that tenant. -/
theorem Store.clashes_eq {tenant : String} {s s' : Store}
    (h : SeesSame (·.tenant == tenant) s.assignments s'.assignments) {row : AssignmentRow}
    (hrow : row.tenant = tenant) : s.clashes row = s'.clashes row := by
  rw [clashes, clashes, h.any_eq fun r hr => ?_]
  simp only [AssignmentRow.hasTriple, Bool.and_eq_true, beq_iff_eq, Option.some.injEq] at hr ⊢
  rw [hr.2.1.1.1, hrow]

namespace AssignmentTable.WellKept

/-- The check passes over the row itself, which is the one that changes. -/
theorem replace_of_not_clashes {ids : IdSupply} {s : Store} (h : WellKept ids s.assignments)
    {r row : AssignmentRow} (hid : row.id = r.id) (hclash : s.clashes row = false) :
    WellKept ids (s.assignments.map fun q => if q = r then row else q) where
  distinct := nodup_map h.distinct (replace_congr AssignmentRow.id hid)
  issued := by
    intro b hb
    obtain ⟨a, ha, rfl⟩ := List.mem_map.1 hb
    rw [replace_congr AssignmentRow.id hid]
    exact h.issued a ha
  single := by
    rw [List.pairwise_map]
    have hdistinct : s.assignments.Pairwise fun a b => a.id ≠ b.id :=
      List.pairwise_map.1 h.distinct
    refine (h.single.and hdistinct).imp_of_mem fun {a b} ha hb ⟨hab, hne⟩ => ?_
    split
    · next har =>
      have hbr : b ≠ r := fun hbr => hne (by rw [har, hbr])
      rw [if_neg hbr]
      intro hactive hactive' hshares
      refine Store.not_sharesTriple_of_not_clashes hclash hactive hb hactive' ?_ hshares.symm
      rw [hid, ← har]
      exact hne.symm
    · split
      · next hbr =>
        intro hactive hactive'
        refine Store.not_sharesTriple_of_not_clashes hclash hactive' ha hactive ?_
        rw [hid, ← hbr]
        exact hne
      · exact hab

end AssignmentTable.WellKept

namespace Engine.Twin

variable {tenant : String} {e e' : Engine}

/-- A new row, after what had lapsed of its kind has been recorded so. -/
theorem addAssignment (h : e.Twin tenant e') {row : AssignmentRow} (htenant : row.tenant = tenant)
    (hid : row.id = e.ids.next .assignment) {selected : AssignmentRow → Bool}
    (hselected : ∀ r, selected r = true → r.tenant = tenant) (now : Instant)
    (hclash : (e.store.expireWhere selected now).clashes row = false) :
    { e with ids := e.ids.advance .assignment }.StepsAlike tenant
      { e' with ids := e'.ids.advance .assignment }
      { e with
        ids := e.ids.advance .assignment
        store := { e.store with
          assignments := (e.store.expireWhere selected now).assignments ++ [row] } }
      { e' with
        ids := e'.ids.advance .assignment
        store := { e'.store with
          assignments := (e'.store.expireWhere selected now).assignments ++ [row] } } := by
  obtain ⟨hsame, hl, hr⟩ := h.settled hselected now
  have hown : (row.tenant == tenant) = true := by simp [htenant]
  have hclash' : (e'.store.expireWhere selected now).clashes row = false := by
    rw [← Store.clashes_eq hsame htenant, hclash]
  refine (h.spend .assignment).twin.withAssignments (hsame.append row)
    (Eq.trans (sparesRest_append hown) hl) (Eq.trans (sparesRest_append hown) hr) ?_ ?_
  · exact (wellKept_settled h.left.assignments selected now).append_of_not_clashes hid hclash
  · exact (wellKept_settled h.right.assignments selected now).append_of_not_clashes
      (h.ids ▸ hid) hclash'

theorem replaceAssignment (h : e.Twin tenant e') {r row : AssignmentRow} (hr : r.tenant = tenant)
    (htenant : row.tenant = r.tenant) (hid : row.id = r.id) (hclash : e.store.clashes row = false) :
    e.StepsAlike tenant e'
      { e with store := { e.store with
          assignments := e.store.assignments.map fun q => if q = r then row else q } }
      { e' with store := { e'.store with
          assignments := e'.store.assignments.map fun q => if q = r then row else q } } := by
  have hown : (r.tenant == tenant) = true := by simp [hr]
  have hsame : (row.tenant == tenant) = (r.tenant == tenant) := by rw [htenant]
  have hclash' : e'.store.clashes row = false := by
    rw [← Store.clashes_eq h.store.assignments (htenant.trans hr), hclash]
  exact h.withAssignments
    (h.store.assignments.map (replace_congr (fun q : AssignmentRow => q.tenant == tenant) hsame))
    (sparesRest_replace hown hsame) (sparesRest_replace hown hsame)
    (h.left.assignments.replace_of_not_clashes hid hclash)
    (h.right.assignments.replace_of_not_clashes hid hclash')

end Engine.Twin

/-! ### The cache -/

/-- The row takes the place of one with its key, so the same rows are left of other keys. -/
theorem Store.filter_putCacheRow {row : CacheRow} {p : CacheRow → Bool}
    (hp : ∀ r : CacheRow, r.key = row.key → p r = false) (rows : List CacheRow) :
    (putCacheRow row rows).filter p = rows.filter p := by
  induction rows with
  | nil => rw [putCacheRow, List.filter_singleton, hp row rfl]; rfl
  | cons r rest ih =>
    rw [putCacheRow]
    split
    · next hr => simp [hp row rfl, hp r (CacheRow.hasKey_some_iff.1 hr)]
    · rw [List.filter_cons, List.filter_cons, ih]

theorem Store.perm_putCacheRow (row : CacheRow) {rows : List CacheRow}
    (h : CacheTable.HasDistinctKeys rows) :
    (putCacheRow row rows).Perm (row :: rows.filter fun r => r.key != row.key) := by
  induction rows with
  | nil => exact .refl _
  | cons r rest ih =>
    rw [CacheTable.HasDistinctKeys, List.map_cons, List.nodup_cons] at h
    rw [putCacheRow]
    split
    · next hr =>
      have hkey := CacheRow.hasKey_some_iff.1 hr
      have hrest : rest.filter (fun q => q.key != row.key) = rest := by
        refine List.filter_eq_self.2 fun q hq => bne_iff_ne.2 fun heq => h.1 ?_
        rw [hkey]
        exact List.mem_map.2 ⟨q, hq, heq⟩
      have hgone : (r.key != row.key) = false := bne_eq_false_iff_eq.2 hkey
      rw [List.filter_cons_of_neg (by simp [hgone]), hrest]
    · next hr =>
      have hkept : (r.key != row.key) = true :=
        bne_iff_ne.2 fun heq => hr (CacheRow.hasKey_some_iff.2 heq)
      rw [List.filter_cons_of_pos (p := fun q : CacheRow => q.key != row.key) hkept]
      exact ((ih h.2).cons r).trans (.swap _ _ _)

namespace Engine.Twin

variable {tenant : String} {e e' : Engine}

theorem putCacheRow (h : e.Twin tenant e') {row : CacheRow} (htenant : row.tenant = tenant) :
    e.StepsAlike tenant e' (e.withCache (Store.putCacheRow row e.store.cache))
      (e'.withCache (Store.putCacheRow row e'.store.cache)) := by
  have hothers (r : CacheRow) (hr : r.key = row.key) : (!(r.tenant == tenant)) = false := by
    have hsame : r.tenant = row.tenant := congrArg Prod.fst hr
    simp [hsame, htenant]
  refine h.withCache
    { same := ?_
      left := Store.filter_putCacheRow hothers e.store.cache
      right := Store.filter_putCacheRow hothers e'.store.cache
      distinct := h.left.cache.putCacheRow row
      distinct' := h.right.cache.putCacheRow row }
  have hplace {rows : List CacheRow} (hd : CacheTable.HasDistinctKeys rows) :=
    (Store.perm_putCacheRow row hd).filter (·.tenant == tenant)
  have hsame : SeesSame (·.tenant == tenant)
      (row :: e.store.cache.filter fun r => r.key != row.key)
      (row :: e'.store.cache.filter fun r => r.key != row.key) := by
    have hrest := h.store.cache.remove fun r => r.key != row.key
    rw [SeesSame, List.filter_cons, List.filter_cons]
    split
    · exact List.Perm.cons row hrest
    · exact hrest
  exact (hplace h.left.cache).trans (hsame.trans (hplace h.right.cache).symm)

theorem invalidateWhere (h : e.Twin tenant e') {selected : CacheRow → Bool}
    (hselected : ∀ r, selected r = true → r.tenant = tenant) (now : Instant) (reason : String) :
    e.StepsAlike tenant e'
      { e with store := (e.store.invalidateWhere selected now reason).1 }
      { e' with store := (e'.store.invalidateWhere selected now reason).1 } := by
  refine h.withCache (.map h.store.cache h.left.cache h.right.cache ?_ ?_ ?_)
  · intro r
    split <;> rfl
  · intro r hr
    rw [if_neg]
    intro hmarked
    have hsel := hselected r (Bool.and_eq_true_iff.1 hmarked).1
    simp [hsel] at hr
  · intro r
    split <;> rfl

theorem uncacheWhere (h : e.Twin tenant e') {selected : CacheRow → Bool}
    (hselected : ∀ r, selected r = true → r.tenant = tenant) :
    e.StepsAlike tenant e' { e with store := (e.store.uncacheWhere selected).1 }
      { e' with store := (e'.store.uncacheWhere selected).1 } := by
  refine h.withCache (.remove h.store.cache h.left.cache h.right.cache fun r hr => ?_)
  rw [Bool.not_eq_true']
  refine Bool.eq_false_iff.2 fun hsel => ?_
  simp [hselected r hsel] at hr

end Engine.Twin

/-! ### The catalogue -/

namespace PermissionTable.WellKept

variable {ids : IdSupply} {rows : List PermissionRow}

theorem append (h : WellKept ids rows) {row : PermissionRow} (hid : row.id = ids.next .permission)
    (hfree : ∀ r ∈ rows, r.tenant.isSome = true → ¬(r.tenant = row.tenant ∧ r.key = row.key)) :
    WellKept (ids.advance .permission) (rows ++ [row]) where
  distinct := nodup_append h.distinct fun r hr heq =>
    h.issued r hr (heq ▸ hid ▸ ids.isUpcoming_next .permission)
  issued := by
    refine Store.forall_mem_append_singleton (fun r hr hup => h.issued r hr hup.of_advance) ?_
    rw [hid]
    exact IdSupply.not_isUpcoming_advance .permission
  single := by
    refine List.pairwise_append.2 ⟨h.single, List.pairwise_singleton _ _, fun r hr q hq => ?_⟩
    rw [List.mem_singleton.1 hq]
    exact hfree r hr

theorem map (h : WellKept ids rows) {f : PermissionRow → PermissionRow}
    (hid : ∀ r, (f r).id = r.id) (htenant : ∀ r, (f r).tenant = r.tenant)
    (hkey : ∀ r, (f r).key = r.key) : WellKept ids (rows.map f) where
  distinct := nodup_map h.distinct hid
  issued := by
    intro r hr
    obtain ⟨q, hq, rfl⟩ := List.mem_map.1 hr
    rw [hid]
    exact h.issued q hq
  single := by
    rw [List.pairwise_map]
    simpa only [htenant, hkey] using h.single

theorem filter (h : WellKept ids rows) (keep : PermissionRow → Bool) :
    WellKept ids (rows.filter keep) where
  distinct := nodup_filter h.distinct keep
  issued r hr := h.issued r (List.mem_filter.1 hr).1
  single := h.single.filter keep

end PermissionTable.WellKept

namespace Engine.Twin

variable {tenant : String} {e e' : Engine}

theorem addPermission (h : e.Twin tenant e') {row : PermissionRow}
    (htenant : row.tenant = some tenant) (hid : row.id = e.ids.next .permission)
    (hfree : ∀ r ∈ e.store.permissions, ¬(r.tenant = some tenant ∧ r.key = row.key)) :
    { e with ids := e.ids.advance .permission }.StepsAlike tenant
      { e' with ids := e'.ids.advance .permission }
      { e with
        ids := e.ids.advance .permission
        store := { e.store with permissions := e.store.permissions ++ [row] } }
      { e' with
        ids := e'.ids.advance .permission
        store := { e'.store with permissions := e'.store.permissions ++ [row] } } := by
  have hown : (row.tenant == some tenant) = true := by simp [htenant]
  refine (h.spend .permission).twin.withPermissions (h.store.permissions.append row)
    (sparesRest_append hown) (sparesRest_append hown) ?_ ?_
  · refine h.left.permissions.append hid fun r hr _ => ?_
    rw [htenant]
    exact hfree r hr
  · refine h.right.permissions.append (h.ids ▸ hid) fun r hr _ hsame => ?_
    rw [htenant] at hsame
    have hmem := (h.store.permissions.mem_iff
      (PermissionRow.isVisibleTo_of_tenant hsame.1)).2 hr
    exact hfree r hmem hsame

theorem replacePermission (h : e.Twin tenant e') {r row : PermissionRow}
    (hr : r.tenant = some tenant) (hid : row.id = r.id) (htenant : row.tenant = r.tenant)
    (hkey : row.key = r.key) :
    e.StepsAlike tenant e' { e with store := e.store.replacePermission r row }
      { e' with store := e'.store.replacePermission r row } := by
  have hspares {rows : List PermissionRow} : SparesRest (·.tenant == some tenant) rows
      (rows.map fun q => if q = r then row else q) :=
    sparesRest_replace (by simp [hr]) (by rw [htenant])
  have hsame := replace_congr PermissionRow.tenant htenant
  have hids := replace_congr PermissionRow.id hid
  have hkeys := replace_congr PermissionRow.key hkey
  exact h.withPermissions
    (h.store.permissions.map fun q => by simp only [PermissionRow.isVisibleTo, hsame])
    hspares hspares (h.left.permissions.map hids hsame hkeys)
    (h.right.permissions.map hids hsame hkeys)

/-- No other row has the identifier, of whatever tenant. -/
theorem removePermission (h : e.Twin tenant e') {r : PermissionRow} (hmem : r ∈ e.store.permissions)
    (hr : r.tenant = some tenant) :
    e.StepsAlike tenant e' { e with store := e.store.removePermission r.id }
      { e' with store := e'.store.removePermission r.id } := by
  have hspares {rows : List PermissionRow} (hd : (rows.map PermissionRow.id).Nodup)
      (hmem : r ∈ rows) :
      SparesRest (·.tenant == some tenant) rows (rows.filter fun q => q.id != r.id) := by
    refine sparesRest_remove fun q hq hother => bne_iff_ne.2 fun hid => ?_
    rw [eq_of_key hd hq hmem hid, hr] at hother
    simp at hother
  have hmem' := (h.store.permissions.mem_iff (PermissionRow.isVisibleTo_of_tenant hr)).1 hmem
  exact h.withPermissions (h.store.permissions.remove _)
    (hspares h.left.permissions.distinct hmem) (hspares h.right.permissions.distinct hmem')
    (h.left.permissions.filter _) (h.right.permissions.filter _)

/-! ### The audit log -/

/-- Each side adds the row under its own next number. -/
theorem appendAudit (h : e.Twin tenant e') {row : AuditRow} (htenant : row.tenant = some tenant) :
    e.StepsAlike tenant e'
      { e with store := { e.store with
          audit := e.store.audit ++ [{ row with id := e.store.nextAuditId }] } }
      { e' with store := { e'.store with
          audit := e'.store.audit ++ [{ row with id := e'.store.nextAuditId }] } } := by
  have hlt {s : Store} : ∀ r ∈ s.audit, r.id < s.nextAuditId := fun r hr => Store.lt_nextAuditId hr
  have hdistinct {s : Store} (hd : (s.audit.map AuditRow.id).Nodup) :
      ((s.audit ++ [{ row with id := s.nextAuditId }]).map AuditRow.id).Nodup :=
    nodup_append hd fun r hr => Nat.ne_of_lt (hlt r hr)
  have hspares {s : Store} : SparesRest (·.tenant == some tenant) s.audit
      (s.audit ++ [{ row with id := s.nextAuditId }]) := sparesRest_append (by simp [htenant])
  have hview {s : Store} (hd : (s.audit.map AuditRow.id).Nodup) :
      Store.auditOf { s with audit := s.audit ++ [{ row with id := s.nextAuditId }] } tenant =
        s.auditOf tenant ++ [row.content] := Store.auditOf_append hd hlt htenant
  exact {
    twin :=
      { h with
        store := { h.store with
          audit := by rw [hview h.left.audit, hview h.right.audit, h.store.audit] }
        left := { h.left with audit := hdistinct h.left.audit }
        right := { h.right with audit := hdistinct h.right.audit } }
    left := .of_store { Store.Spares.refl tenant e.store with audit := hspares }
    right := .of_store { Store.Spares.refl tenant e'.store with audit := hspares } }

end Engine.Twin

end Entitlements
