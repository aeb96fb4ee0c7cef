import Entitlements.Engine.BundleCache
import Entitlements.Proofs.Administration.Lifecycle
import Entitlements.Proofs.Store.CacheTable
import Entitlements.Proofs.Tenancy.Tables
import Entitlements.Store.AuditLog
import Entitlements.Store.Catalog
import Entitlements.Store.Listing
import Mathlib.Data.List.Pairwise

/-!
Two databases that agree on a tenant. Everything a tenant can see is its own rows and the global
permissions, so that is what two engines are compared by; they may differ in all rows of others. The
numbers of audit rows count the rows of all tenants and are left out, but not the order they give.

Agreement alone is not enough. That a search finds the same row in both takes the constraints of the
tables, which hold across tenants: an identifier that stood on rows of two tenants would let one of
them reach the other. `Twin` is agreement together with the constraints, and each function that
reads for the tenant has a lemma here that it reads the same from twins.
-/

namespace Entitlements

open Time Table

/-! ### Agreement -/

theorem AssignmentRow.SharesTriple.symm {a b : AssignmentRow} (h : a.SharesTriple b) :
    b.SharesTriple a := by
  simp only [SharesTriple, hasTriple, Bool.and_eq_true, beq_iff_eq, Option.some.injEq] at h ⊢
  simp [h]

theorem PermissionRow.isVisibleTo_of_tenant {tenant : String} {r : PermissionRow}
    (h : r.tenant = some tenant) : r.isVisibleTo (some tenant) = true := by
  simp [isVisibleTo, h]

/-- What an audit row says, without its number. -/
def AuditRow.content (r : AuditRow) : AuditRow := { r with id := 0 }

/-- What the log of a tenant says, in the order of the numbers. -/
def Store.auditOf (s : Store) (tenant : String) : List AuditRow :=
  (s.allAudit.filter (·.tenant == some tenant)).map (·.content)

/-- Do two stores hold the same rows of a tenant and the same global permissions? -/
structure Store.AgreesOn (tenant : String) (s s' : Store) : Prop where
  users : SeesSame (·.tenant == tenant) s.users s'.users
  customers : SeesSame (·.tenant == tenant) s.customers s'.customers
  groups : SeesSame (·.tenant == tenant) s.groups s'.groups
  members : SeesSame (·.tenant == tenant) s.members s'.members
  policies : SeesSame (·.tenant == tenant) s.policies s'.policies
  roles : SeesSame (·.tenant == tenant) s.roles s'.roles
  assignments : SeesSame (·.tenant == tenant) s.assignments s'.assignments
  cache : SeesSame (·.tenant == tenant) s.cache s'.cache
  permissions : SeesSame (PermissionRow.isVisibleTo (some tenant)) s.permissions s'.permissions
  audit : s.auditOf tenant = s'.auditOf tenant

/-- Are the rows of all other tenants and the global permissions as they were, each in its place? -/
structure Store.Spares (tenant : String) (s after : Store) : Prop where
  users : SparesRest (·.tenant == tenant) s.users after.users
  customers : SparesRest (·.tenant == tenant) s.customers after.customers
  groups : SparesRest (·.tenant == tenant) s.groups after.groups
  members : SparesRest (·.tenant == tenant) s.members after.members
  policies : SparesRest (·.tenant == tenant) s.policies after.policies
  roles : SparesRest (·.tenant == tenant) s.roles after.roles
  assignments : SparesRest (·.tenant == tenant) s.assignments after.assignments
  cache : SparesRest (·.tenant == tenant) s.cache after.cache
  permissions : SparesRest (·.tenant == some tenant) s.permissions after.permissions
  audit : SparesRest (·.tenant == some tenant) s.audit after.audit

/-- Do two engines agree on a tenant, on the time, and on the identifiers that are next? -/
structure Engine.AgreesOn (tenant : String) (e e' : Engine) : Prop where
  clock : e.clock = e'.clock
  ids : e.ids = e'.ids
  store : e.store.AgreesOn tenant e'.store

/-! ### Constraints -/

/-- Does each permission have an identifier of its own, which is not to be handed out again, and
does no tenant have two for one key? -/
structure PermissionTable.WellKept (ids : IdSupply) (rows : List PermissionRow) : Prop where
  distinct : (rows.map (·.id)).Nodup
  issued : ∀ r ∈ rows, ¬ids.IsUpcoming .permission r.id
  single : rows.Pairwise fun a b => a.tenant.isSome = true → ¬(a.tenant = b.tenant ∧ a.key = b.key)

theorem PermissionTable.WellKept.not_same {ids : IdSupply} {rows : List PermissionRow}
    (h : WellKept ids rows) {a b : PermissionRow} (ha : a ∈ rows) (hb : b ∈ rows) (hne : a ≠ b)
    (howned : a.tenant.isSome = true) : ¬(a.tenant = b.tenant ∧ a.key = b.key) := by
  have hsymm : Std.Symm fun a b : PermissionRow =>
      a.tenant.isSome = true → ¬(a.tenant = b.tenant ∧ a.key = b.key) :=
    ⟨fun a b hab hb hsame => hab (hsame.1 ▸ hb) ⟨hsame.1.symm, hsame.2.symm⟩⟩
  exact h.single.forall ha hb hne howned

theorem AssignmentTable.WellKept.not_sharesTriple {ids : IdSupply} {rows : List AssignmentRow}
    (h : WellKept ids rows) {a b : AssignmentRow} (ha : a ∈ rows) (hb : b ∈ rows) (hne : a ≠ b)
    (hactive : a.isActive = true) (hactive' : b.isActive = true) : ¬a.SharesTriple b := by
  have hsymm : Std.Symm fun a b : AssignmentRow =>
      a.isActive = true → b.isActive = true → ¬a.SharesTriple b :=
    ⟨fun a b hab hb ha hshares => hab ha hb hshares.symm⟩
  exact h.single.forall ha hb hne hactive hactive'

/-- What the tables make sure of, for all tenants together. -/
structure Engine.IsConsistent (e : Engine) : Prop where
  users : (e.store.users.map (·.id)).Nodup
  customers : (e.store.customers.map (·.id)).Nodup
  groups : (e.store.groups.map (·.id)).Nodup
  policies : (e.store.policies.map fun r => (r.tenant, r.policy.key)).Nodup
  roles : (e.store.roles.map fun r => (r.tenant, r.role.key)).Nodup
  assignments : AssignmentTable.WellKept e.ids e.store.assignments
  cache : CacheTable.HasDistinctKeys e.store.cache
  permissions : PermissionTable.WellKept e.ids e.store.permissions
  audit : (e.store.audit.map (·.id)).Nodup

theorem Engine.isConsistent_empty (clock : Instant) (scheme : IdScheme) :
    (empty clock scheme).IsConsistent where
  users := List.nodup_nil
  customers := List.nodup_nil
  groups := List.nodup_nil
  policies := List.nodup_nil
  roles := List.nodup_nil
  assignments := ⟨List.nodup_nil, by simp [empty, Store.empty], List.Pairwise.nil⟩
  cache := List.nodup_nil
  permissions := ⟨List.nodup_nil, by simp [empty, Store.empty], List.Pairwise.nil⟩
  audit := List.nodup_nil

/-- Two consistent engines that agree on a tenant. -/
structure Engine.Twin (tenant : String) (e e' : Engine) : Prop extends e.AgreesOn tenant e' where
  left : e.IsConsistent
  right : e'.IsConsistent

/-! ### Orders -/

theorem Instant.eq_iff_micros {a b : Instant} : a = b ↔ a.micros = b.micros := by
  cases a
  cases b
  simp

/-- The order by time and then identifier, as an order of pairs. -/
theorem timeThenId_iff (a b : Instant × String) :
    (decide (a.1 < b.1) || (a.1 == b.1 && decide (a.2 ≤ b.2))) = true ↔
      toLex (a.1.micros, a.2) ≤ toLex (b.1.micros, b.2) := by
  rw [Prod.Lex.toLex_le_toLex, Bool.or_eq_true, Bool.and_eq_true, decide_eq_true_eq, beq_iff_eq,
    decide_eq_true_eq, Instant.eq_iff_micros]
  rfl

/-- The order of the catalogue: by the parts of the key, own rows first, then by identifier. -/
theorem PermissionRow.le_iff (a b : PermissionRow) : PermissionRow.le a b = true ↔
    toLex (a.key.domain, toLex (a.key.equipment, toLex (a.key.location, toLex (a.key.action,
      toLex (a.tenant.isNone, a.id))))) ≤
    toLex (b.key.domain, toLex (b.key.equipment, toLex (b.key.location, toLex (b.key.action,
      toLex (b.tenant.isNone, b.id))))) := by
  simp only [Prod.Lex.toLex_le_toLex, PermissionRow.le]
  by_cases hd : a.key.domain = b.key.domain
  · by_cases he : a.key.equipment = b.key.equipment
    · by_cases hl : a.key.location = b.key.location
      · by_cases ha : a.key.action = b.key.action
        · by_cases ht : a.tenant.isNone = b.tenant.isNone
          · simp [hd, he, hl, ha, ht]
          · have hlt : a.tenant.isNone < b.tenant.isNone ↔ b.tenant.isNone = true := by
              revert ht
              cases a.tenant.isNone <;> cases b.tenant.isNone <;> decide
            simp [hd, he, hl, ha, ht, hlt]
        · simp [hd, he, hl, ha]
      · simp [hd, he, hl]
    · simp [hd, he]
  · simp [hd]

namespace Engine.Twin

variable {tenant : String} {e e' : Engine} (h : e.Twin tenant e')

include h

/-! ### Policies and roles -/

theorem policyRow? (key : Given) :
    e.store.policyRow? (some tenant) key = e'.store.policyRow? (some tenant) key :=
  h.store.policies.find?_named_eq h.left.policies key

theorem roleRow? (key : Given) :
    e.store.roleRow? (some tenant) key = e'.store.roleRow? (some tenant) key :=
  h.store.roles.find?_named_eq h.left.roles key

theorem policy? (key : Given) :
    e.store.policy? (some tenant) key = e'.store.policy? (some tenant) key := by
  rw [Store.policy?, Store.policy?, h.policyRow?]

theorem role? (key : Given) :
    e.store.role? (some tenant) key = e'.store.role? (some tenant) key := by
  rw [Store.role?, Store.role?, h.roleRow?]

theorem policyRows : e.store.policyRows (some tenant) = e'.store.policyRows (some tenant) :=
  h.store.policies.mergeSort_named_eq h.left.policies

theorem roleRows : e.store.roleRows (some tenant) = e'.store.roleRows (some tenant) :=
  h.store.roles.mergeSort_named_eq h.left.roles

theorem rolesUsing (policy : Given) :
    e.store.rolesUsing (some tenant) policy = e'.store.rolesUsing (some tenant) policy := by
  rw [Store.rolesUsing, Store.rolesUsing, h.roleRows]

/-! ### Assignments and grants -/

theorem assignmentRow? (id : Given) :
    e.store.assignmentRow? (some tenant) id = e'.store.assignmentRow? (some tenant) id :=
  h.store.assignments.find?_id_eq h.left.assignments.distinct (fun r hr => by simpa using hr) id

theorem assignmentsOf (user : Given) :
    e.store.assignmentsOf (some tenant) user = e'.store.assignmentsOf (some tenant) user := by
  refine mergeSort_eq_of_perm (fun r : AssignmentRow => toLex (r.grantedAt.micros, r.id))
    (fun a b => timeThenId_iff (a.grantedAt, a.id) (b.grantedAt, b.id)) (fun a ha b hb hkey => ?_)
    (h.store.assignments.filter fun r hr => ?_)
  · exact eq_of_key h.left.assignments.distinct (List.mem_filter.1 ha).1 (List.mem_filter.1 hb).1
      (congrArg Prod.snd (toLex.injective hkey))
  · simp only [Bool.and_eq_true, beq_iff_eq, Option.some.injEq] at hr ⊢
    exact hr.1

theorem liveAssignmentsOf (user : Given) (now : Instant) :
    e.store.liveAssignmentsOf (some tenant) user now =
      e'.store.liveAssignmentsOf (some tenant) user now := by
  rw [Store.liveAssignmentsOf, Store.liveAssignmentsOf, h.assignmentsOf]

/-- No role is held twice at a time, so there is one such assignment at most. -/
theorem liveAssignment? (user role scope : Given) (now : Instant) :
    e.store.liveAssignment? (some tenant) user role scope now =
      e'.store.liveAssignment? (some tenant) user role scope now := by
  refine h.store.assignments.find?_eq (fun r hr => ?_) fun r hr q hq hrlive hqlive => ?_
  · simp only [AssignmentRow.hasTriple, Bool.and_eq_true, beq_iff_eq, Option.some.injEq] at hr ⊢
    exact hr.1.1.1.1
  · by_contra hne
    rw [Bool.and_eq_true] at hrlive hqlive
    have hshared := h.left.assignments.not_sharesTriple hr hq hne
      (Bool.and_eq_true_iff.1 hrlive.2).1 (Bool.and_eq_true_iff.1 hqlive.2).1
    apply hshared
    simp only [AssignmentRow.hasTriple, Bool.and_eq_true, beq_iff_eq] at hrlive hqlive
    simp [AssignmentRow.SharesTriple, AssignmentRow.hasTriple, hrlive, hqlive]

theorem countLive (role : Given) (now : Instant) :
    e.store.countLive (some tenant) role now = e'.store.countLive (some tenant) role now := by
  rw [Store.countLive_eq_countP, Store.countLive_eq_countP]
  refine h.store.assignments.countP_eq fun r hr => ?_
  simp only [Bool.and_eq_true, beq_iff_eq, Option.some.injEq] at hr ⊢
  exact hr.1.1

theorem grantsOf (a : AssignmentRow) :
    e.store.grantsOf (some tenant) a = e'.store.grantsOf (some tenant) a := by
  simp only [Store.grantsOf, h.role?, h.policy?]

theorem grantsWhere (user : Given) (selected : AssignmentRow → Bool) (now : Instant) :
    e.store.grantsWhere (some tenant) user selected now =
      e'.store.grantsWhere (some tenant) user selected now := by
  have hgrants : e.store.grantsOf (some tenant) = e'.store.grantsOf (some tenant) :=
    funext h.grantsOf
  rw [Store.grantsWhere, Store.grantsWhere, h.liveAssignmentsOf, hgrants]

theorem verdict (user permission scope : Given) (now : Instant) :
    e.store.verdict (some tenant) user permission scope now =
      e'.store.verdict (some tenant) user permission scope now := by
  rw [Store.verdict, Store.verdict, h.liveAssignmentsOf, Store.grantsAt, Store.grantsAt,
    h.grantsWhere]

/-! ### The directory -/

theorem user? (id : Given) : e.store.user? (some tenant) id = e'.store.user? (some tenant) id :=
  h.store.users.find?_id_eq h.left.users (fun r hr => by simpa using hr) id

theorem customer? (id : Given) :
    e.store.customer? (some tenant) id = e'.store.customer? (some tenant) id :=
  h.store.customers.find?_id_eq h.left.customers (fun r hr => by simpa using hr) id

/-- A membership in a group of another tenant leads nowhere. -/
theorem memberships (user : Given) (now : Instant) :
    (e.store.memberships (some tenant) user now).Perm
      (e'.store.memberships (some tenant) user now) := by
  refine h.store.members.flatMap (fun m hm => ?_) (fun m hm => ?_) fun m => ?_
  · have hother : ¬m.tenant = tenant := by simpa using hm
    simp [hother]
  · have hother : ¬m.tenant = tenant := by simpa using hm
    simp [hother]
  · split
    · exact (h.store.groups.filter fun g hg => by
        simpa using (Bool.and_eq_true_iff.1 hg).2).map _
    · exact .nil

omit h in
theorem mem_groups_of_mem_memberships {user : Given} {now : Instant} {p : Instant × GroupRow}
    (hp : p ∈ e.store.memberships (some tenant) user now) : p.2 ∈ e.store.groups := by
  obtain ⟨m, -, hm⟩ := List.mem_flatMap.1 hp
  split at hm
  · obtain ⟨g, hg, rfl⟩ := List.mem_map.1 hm
    exact (List.mem_filter.1 hg).1
  · cases hm

theorem primaryGroup? (user : Given) (now : Instant) :
    e.store.primaryGroup? (some tenant) user now =
      e'.store.primaryGroup? (some tenant) user now := by
  have hsorted := mergeSort_eq_of_perm
    (fun p : Instant × GroupRow => toLex (p.1.micros, p.2.id))
    (fun a b => timeThenId_iff (a.1, a.2.id) (b.1, b.2.id)) (fun a ha b hb hkey => ?_)
    (h.memberships user now)
  · simp only [Store.primaryGroup?]
    rw [hsorted]
  · have hpair := Prod.ext_iff.1 (toLex.injective hkey)
    refine Prod.ext (Instant.eq_iff_micros.2 hpair.1) ?_
    exact eq_of_key h.left.groups (mem_groups_of_mem_memberships ha)
      (mem_groups_of_mem_memberships hb) hpair.2

/-! ### The cache -/

theorem cacheHit? (user scope : Given) (now : Instant) :
    e.store.cacheHit? (some tenant) user scope now =
      e'.store.cacheHit? (some tenant) user scope now := by
  refine h.store.cache.find?_eq (fun r hr => ?_) fun r hr q hq hrkey hqkey => ?_
  · simp only [CacheRow.hasKey, Bool.and_eq_true, beq_iff_eq, Option.some.injEq] at hr ⊢
    exact hr.1.1.1
  · rw [Bool.and_eq_true] at hrkey hqkey
    exact eq_of_key h.left.cache hr hq (CacheRow.key_eq_of_hasKey hrkey.1 hqkey.1)

/-! ### The catalogue -/

theorem registered? (key : DomainKey) :
    e.store.registered? (some tenant) key = e'.store.registered? (some tenant) key := by
  refine h.store.permissions.find?_eq (fun r hr => ?_) fun r hr q hq hrkey hqkey => ?_
  · exact PermissionRow.isVisibleTo_of_tenant (beq_iff_eq.1 (Bool.and_eq_true_iff.1 hr).1)
  · by_contra hne
    simp only [Bool.and_eq_true, beq_iff_eq] at hrkey hqkey
    exact h.left.permissions.not_same hr hq hne (by simp [hrkey.1])
      ⟨hrkey.1.trans hqkey.1.symm, hrkey.2.trans hqkey.2.symm⟩

theorem visiblePermission? (id : Given) :
    e.store.visiblePermission? (some tenant) id = e'.store.visiblePermission? (some tenant) id :=
  h.store.permissions.find?_id_eq h.left.permissions.distinct (fun _ hr => hr) id

theorem catalog (f : CatalogFilter) :
    e.store.catalog (some tenant) f = e'.store.catalog (some tenant) f := by
  refine mergeSort_eq_of_perm _ PermissionRow.le_iff (fun a ha b hb hkey => ?_)
    (h.store.permissions.filter fun r hr => (Bool.and_eq_true_iff.1 hr).1)
  simp only [toLex_inj, Prod.mk.injEq] at hkey
  exact eq_of_key h.left.permissions.distinct (List.mem_filter.1 ha).1 (List.mem_filter.1 hb).1
    hkey.2.2.2.2.2

theorem catalogValues (f : CatalogFilter) (part : DomainKey → String) :
    e.store.catalogValues (some tenant) f part = e'.store.catalogValues (some tenant) f part := by
  rw [Store.catalogValues, Store.catalogValues, h.catalog]

end Engine.Twin

end Entitlements
