import Entitlements.Proofs.Store.Reach
import Entitlements.Store.Directory
import Mathlib.Data.List.Basic

/-!
What a change of the tables leaves alone. A store is linked when no reference dangles that anybody
could follow: each role names policies that are there, and each assignment in force names a role
that is there. On linked stores an addition is invisible, because what it adds was not looked for
before; that is why nothing has to be told when a policy or a role is created. Every other change is
visible to the users of one tenant at most, or to one user.

`Changes s s' now stale` collects what has to be known about a change: it keeps the store linked, it
loses no user and no expiry of an assignment, and all but the users who are `stale` are granted what
they were granted before.
-/

namespace Entitlements

open Time

/-- Changing members of a list that a test does not accept is not seen by the test. -/
theorem filter_map_of_fixed {p : α → Bool} {f : α → α} {xs : List α}
    (hp : ∀ x ∈ xs, p (f x) = p x) (hf : ∀ x ∈ xs, p x = true → f x = x) :
    (xs.map f).filter p = xs.filter p := by
  induction xs with
  | nil => rfl
  | cons x xs ih =>
    have hrest := ih (fun y hy => hp y (List.mem_cons_of_mem _ hy))
      fun y hy => hf y (List.mem_cons_of_mem _ hy)
    rw [List.map_cons, List.filter_cons, List.filter_cons, hp x List.mem_cons_self, hrest]
    split
    · next hx => rw [hf x List.mem_cons_self hx]
    · rfl

/-! ### Tables

A row is looked up by what it is to the first test that accepts it; what happens to other rows does
not matter, and neither does what comes after it. -/

section

variable {p : α → Bool} {xs : List α}

theorem find?_append_of_isSome (ys : List α) (h : (xs.find? p).isSome = true) :
    (xs ++ ys).find? p = xs.find? p := by
  rw [List.find?_append]
  exact Option.or_of_isSome h

/-- A test that the new row passes exactly if the old one does finds what it has found, or the new
row in its place. -/
theorem find?_replace [DecidableEq α] {x y : α} (h : p y = p x) :
    (xs.map fun q => if q = x then y else q).find? p =
      (xs.find? p).map fun q => if q = x then y else q := by
  have hsame : p ∘ (fun q => if q = x then y else q) = p := by
    funext q
    simp only [Function.comp]
    split
    · next hq => rw [hq, h]
    · rfl
  rw [List.find?_map, hsame]

theorem isSome_find?_replace [DecidableEq α] {x y : α} (h : p y = p x) :
    ((xs.map fun q => if q = x then y else q).find? p).isSome = (xs.find? p).isSome := by
  rw [find?_replace h, Option.isSome_map]

/-- A test that neither row passes finds what it has found. -/
theorem find?_replace_of_not [DecidableEq α] {x y : α} (hx : p x = false) (hy : p y = false) :
    (xs.map fun q => if q = x then y else q).find? p = xs.find? p := by
  rw [find?_replace (hy.trans hx.symm)]
  rcases hfound : xs.find? p with _ | q
  · rfl
  · have hne : q ≠ x := by
      rintro rfl
      rw [List.find?_some hfound] at hx
      cases hx
    rw [Option.map_some, if_neg hne]

/-- What is put in the place of what was found is found there. -/
theorem find?_replace_of_find? [DecidableEq α] {x y : α} (hx : xs.find? p = some x)
    (hy : p y = true) : (xs.map fun q => if q = x then y else q).find? p = some y := by
  rw [find?_replace (hy.trans (List.find?_some hx).symm), hx, Option.map_some, if_pos rfl]

/-- A test that passes over all that is removed finds what it has found. -/
theorem find?_filter_of_imp {keep : α → Bool} (h : ∀ x, p x = true → keep x = true) :
    (xs.filter keep).find? p = xs.find? p := by
  rw [List.find?_filter]
  congr 1
  funext x
  cases hx : p x
  · simp
  · simp [h x hx]

/-- A test finds nothing where all that it accepts is removed. -/
theorem find?_filter_not (p : α → Bool) (xs : List α) :
    (xs.filter fun x => !p x).find? p = none := by
  refine List.find?_eq_none.2 fun x hx => ?_
  simpa using (List.mem_filter.1 hx).2

end

namespace Store

variable {s s' : Store} {tenant user : Given} {now : Instant}

/-- A member of a table in which one row takes the place of another. -/
theorem forall_mem_replace [DecidableEq α] {p : α → Prop} {rows : List α} {r row : α}
    (h : ∀ q ∈ rows, p q) (hrow : p row) :
    ∀ q ∈ rows.map (fun q => if q = r then row else q), p q := by
  intro q hq
  obtain ⟨q', hq', rfl⟩ := List.mem_map.1 hq
  split
  · exact hrow
  · exact h q' hq'

theorem forall_mem_append_singleton {p : α → Prop} {rows : List α} {row : α}
    (h : ∀ q ∈ rows, p q) (hrow : p row) : ∀ q ∈ rows ++ [row], p q :=
  List.forall_mem_append.2 ⟨h, by simpa using hrow⟩

/-! ### Looking rows up -/

theorem of_policyRow? {key : Given} {row : PolicyRow} (h : s.policyRow? tenant key = some row) :
    row ∈ s.policies ∧ some row.tenant = tenant ∧ some row.policy.key = key := by
  have hfound := List.find?_some h
  simp only [Bool.and_eq_true, beq_iff_eq] at hfound
  exact ⟨List.mem_of_find?_eq_some h, hfound⟩

theorem of_roleRow? {key : Given} {row : RoleRow} (h : s.roleRow? tenant key = some row) :
    row ∈ s.roles ∧ some row.tenant = tenant ∧ some row.role.key = key := by
  have hfound := List.find?_some h
  simp only [Bool.and_eq_true, beq_iff_eq] at hfound
  exact ⟨List.mem_of_find?_eq_some h, hfound⟩

theorem isSome_policyRow? {key : Given} {p : Policy} (h : s.policy? tenant key = some p) :
    (s.policyRow? tenant key).isSome = true := by
  rw [← Option.isSome_map, ← policy?, h]
  rfl

theorem isSome_roleRow? {key : Given} {r : Role} (h : s.role? tenant key = some r) :
    (s.roleRow? tenant key).isSome = true := by
  rw [← Option.isSome_map, ← role?, h]
  rfl

theorem of_assignmentRow? {id : Given} {row : AssignmentRow}
    (h : s.assignmentRow? tenant id = some row) :
    row ∈ s.assignments ∧ some row.id = id ∧ some row.tenant = tenant := by
  have hfound := List.find?_some h
  simp only [Bool.and_eq_true, beq_iff_eq] at hfound
  exact ⟨List.mem_of_find?_eq_some h, hfound⟩

/-! ### Following references -/

theorem grantsOf_congr {a : AssignmentRow}
    (hrole : s'.role? tenant (some a.roleKey) = s.role? tenant (some a.roleKey))
    (hpolicy : ∀ role, s.role? tenant (some a.roleKey) = some role → ∀ key ∈ role.policyKeys,
      s'.policy? tenant (some key) = s.policy? tenant (some key)) :
    s'.grantsOf tenant a = s.grantsOf tenant a := by
  unfold grantsOf
  rw [hrole]
  split
  · rfl
  · next role hr =>
    apply List.filterMap_congr
    intro key hkey
    rw [hpolicy role hr key hkey]

theorem grantsWhere_congr {selected : AssignmentRow → Bool} {now' : Instant}
    (hlive : s'.liveAssignmentsOf tenant user now' = s.liveAssignmentsOf tenant user now)
    (hgrants : ∀ a ∈ s.liveAssignmentsOf tenant user now,
      s'.grantsOf tenant a = s.grantsOf tenant a) :
    s'.grantsWhere tenant user selected now' = s.grantsWhere tenant user selected now := by
  unfold grantsWhere
  rw [hlive]
  apply List.flatMap_congr
  intro a ha
  exact hgrants a (List.mem_filter.1 ha).1

/-- Is every reference that can be followed good? -/
structure Linked (s : Store) (now : Instant) : Prop where
  policies : ∀ r ∈ s.roles, ∀ key ∈ r.role.policyKeys,
    (s.policyRow? (some r.tenant) (some key)).isSome = true
  roles : ∀ a ∈ s.assignments, a.isLive now = true →
    (s.roleRow? (some a.tenant) (some a.roleKey)).isSome = true

theorem linked_empty (now : Instant) : Store.empty.Linked now := by
  constructor <;> simp [Store.empty]

/-- A role that is found lists policies that are found. -/
theorem Linked.policy_of_role (h : s.Linked now) {key : Given} {role : Role}
    (hr : s.role? tenant key = some role) {policyKey : String} (hk : policyKey ∈ role.policyKeys) :
    (s.policyRow? tenant (some policyKey)).isSome = true := by
  obtain ⟨row, hrow, rfl⟩ := Option.map_eq_some_iff.1 hr
  obtain ⟨hmem, htenant, -⟩ := of_roleRow? hrow
  rw [← htenant]
  exact h.policies row hmem policyKey hk

theorem Linked.role_of_live (h : s.Linked now) {a : AssignmentRow}
    (ha : a ∈ s.liveAssignmentsOf tenant user now) :
    (s.roleRow? tenant (some a.roleKey)).isSome = true := by
  obtain ⟨hmem, hforce⟩ := mem_liveAssignmentsOf.1 ha
  rw [← hforce.tenant]
  exact h.roles a hmem (AssignmentRow.isLive_iff.2 ⟨hforce.active, hforce.ahead⟩)

/-! ### Tables that play no part -/

section

variable (hp : s'.policies = s.policies) (hr : s'.roles = s.roles)
  (ha : s'.assignments = s.assignments)

include hp hr ha

theorem grantsWhere_of_tables (selected : AssignmentRow → Bool) :
    s'.grantsWhere tenant user selected now = s.grantsWhere tenant user selected now := by
  refine grantsWhere_congr ?_ fun a _ => grantsOf_congr ?_ fun _ _ key _ => ?_
  · rw [liveAssignmentsOf, assignmentsOf, ha]
    rfl
  · rw [role?, roleRow?, hr]
    rfl
  · rw [policy?, policyRow?, hp]
    rfl

theorem Linked.of_tables (h : s.Linked now) : s'.Linked now where
  policies r hmem key hkey := by
    rw [policyRow?, hp]
    rw [hr] at hmem
    exact h.policies r hmem key hkey
  roles a hmem hlive := by
    rw [roleRow?, hr]
    rw [ha] at hmem
    exact h.roles a hmem hlive

end

/-! ### Changes -/

/-- Does a change of the tables concern the grants of stale users only? -/
structure Changes (s s' : Store) (now : Instant) (stale : String → String → Prop) : Prop where
  cache : s'.cache = s.cache
  users : ∀ t u : Given, (s.user? t u).isSome = true → (s'.user? t u).isSome = true
  linked : s.Linked now → s'.Linked now
  kept : ∀ a ∈ s.assignments, ∃ b ∈ s'.assignments,
    b.tenant = a.tenant ∧ b.userId = a.userId ∧ b.expiresAt = a.expiresAt
  grants : s.Linked now → ∀ t u, ¬stale t u → ∀ selected,
    s'.grantsWhere (some t) (some u) selected now = s.grantsWhere (some t) (some u) selected now

theorem Changes.refl (s : Store) (now : Instant) : s.Changes s now fun _ _ => False where
  cache := rfl
  users _ _ h := h
  linked h := h
  kept a ha := ⟨a, ha, rfl, rfl, rfl⟩
  grants _ _ _ _ _ := rfl

/-- A change of the directory that loses no user. -/
theorem changes_of_tables (hp : s'.policies = s.policies) (hr : s'.roles = s.roles)
    (ha : s'.assignments = s.assignments) (hc : s'.cache = s.cache)
    (hu : ∀ t u, (s.user? t u).isSome = true → (s'.user? t u).isSome = true) :
    s.Changes s' now fun _ _ => False where
  cache := hc
  users := hu
  linked h := h.of_tables hp hr ha
  kept a hmem := by
    rw [ha]
    exact ⟨a, hmem, rfl, rfl, rfl⟩
  grants _ _ _ _ selected := grantsWhere_of_tables hp hr ha selected

theorem Changes.trans {s'' : Store} {stale stale' : String → String → Prop}
    (h : s.Changes s' now stale) (h' : s'.Changes s'' now stale') :
    s.Changes s'' now fun t u => stale t u ∨ stale' t u where
  cache := h'.cache.trans h.cache
  users t u hu := h'.users t u (h.users t u hu)
  linked hl := h'.linked (h.linked hl)
  kept a ha := by
    obtain ⟨b, hb, ht, hu, hexp⟩ := h.kept a ha
    obtain ⟨c, hc, ht', hu', hexp'⟩ := h'.kept b hb
    exact ⟨c, hc, ht'.trans ht, hu'.trans hu, hexp'.trans hexp⟩
  grants hl t u hne selected := by
    rw [h'.grants (h.linked hl) t u (fun hs => hne (.inr hs)),
      h.grants hl t u fun hs => hne (.inl hs)]

theorem Changes.mono {stale wider : String → String → Prop} (h : s.Changes s' now stale)
    (hw : ∀ t u, stale t u → wider t u) : s.Changes s' now wider :=
  { h with grants := fun hl t u hne => h.grants hl t u fun hs => hne (hw t u hs) }

/-! ### Policies -/

theorem policyRow?_append (row : PolicyRow) {key : Given}
    (h : (s.policyRow? tenant key).isSome = true) :
    { s with policies := s.policies ++ [row] }.policyRow? tenant key = s.policyRow? tenant key :=
  find?_append_of_isSome [row] h

theorem changes_addPolicy (row : PolicyRow) :
    s.Changes { s with policies := s.policies ++ [row] } now fun _ _ => False where
  cache := rfl
  users _ _ h := h
  linked h :=
    { policies := fun r hr key hkey => by
        rw [policyRow?_append row (h.policies r hr key hkey)]
        exact h.policies r hr key hkey
      roles := h.roles }
  kept a ha := ⟨a, ha, rfl, rfl, rfl⟩
  grants h t u _ selected := by
    refine grantsWhere_congr rfl fun a _ => grantsOf_congr rfl fun role hrole key hkey => ?_
    rw [policy?, policyRow?_append row (h.policy_of_role hrole hkey)]
    rfl

theorem changes_replacePolicy {r row : PolicyRow} (ht : row.tenant = r.tenant)
    (hk : row.policy.key = r.policy.key) :
    s.Changes { s with policies := s.policies.map fun q => if q = r then row else q } now
      fun t _ => t = r.tenant where
  cache := rfl
  users _ _ h := h
  linked h :=
    { policies := fun q hq key hkey => by
        rw [policyRow?, isSome_find?_replace (by rw [ht, hk])]
        exact h.policies q hq key hkey
      roles := h.roles }
  kept a ha := ⟨a, ha, rfl, rfl, rfl⟩
  grants _ t u hne selected := by
    refine grantsWhere_congr rfl fun a _ => grantsOf_congr rfl fun role _ key _ => ?_
    have hother : (some r.tenant == some t) = false := by simpa using Ne.symm hne
    rw [policy?, policyRow?, find?_replace_of_not (by rw [hother]; rfl) (by rw [ht, hother]; rfl)]
    rfl

theorem policyRow?_remove {tenant key : Given} {t k : Given} (h : t ≠ tenant ∨ k ≠ key) :
    (s.removePolicy tenant key).policyRow? t k = s.policyRow? t k := by
  refine find?_filter_of_imp fun q hq => ?_
  simp only [Bool.and_eq_true, beq_iff_eq] at hq
  rw [hq.1, hq.2]
  rcases h with h | h <;> simp [h]

/-- A policy that no role uses is not one that a role lists. -/
theorem ne_of_listed {tenant key : Given} (hfree : s.rolesUsing tenant key = []) {r : RoleRow}
    (hr : r ∈ s.roles) {k : String} (hk : k ∈ r.role.policyKeys) :
    some r.tenant ≠ tenant ∨ some k ≠ key := by
  by_cases ht : some r.tenant = tenant
  · right
    rintro rfl
    have hlisted : r.role.key ∈ s.rolesUsing tenant (some k) := by
      simp only [rolesUsing, roleRows, List.mem_map, List.mem_filter, List.mem_mergeSort,
        List.any_eq_true]
      exact ⟨r, ⟨⟨hr, by simpa using ht⟩, k, hk, by simp⟩, rfl⟩
    rw [hfree] at hlisted
    cases hlisted
  · exact .inl ht

theorem changes_removePolicy {tenant key : Given} (hfree : s.rolesUsing tenant key = []) :
    s.Changes (s.removePolicy tenant key) now fun t _ => some t = tenant where
  cache := rfl
  users _ _ h := h
  linked h :=
    { policies := fun r hr k hk => by
        rw [policyRow?_remove (ne_of_listed hfree hr hk)]
        exact h.policies r hr k hk
      roles := h.roles }
  kept a ha := ⟨a, ha, rfl, rfl, rfl⟩
  grants _ t u hne selected := by
    refine grantsWhere_congr rfl fun a _ => grantsOf_congr rfl fun role _ k _ => ?_
    rw [policy?, policyRow?_remove (.inl hne), policy?]

/-! ### Roles -/

theorem roleRow?_append (row : RoleRow) {key : Given}
    (h : (s.roleRow? tenant key).isSome = true) :
    { s with roles := s.roles ++ [row] }.roleRow? tenant key = s.roleRow? tenant key :=
  find?_append_of_isSome [row] h

theorem changes_addRole {row : RoleRow}
    (hkeys : s.Linked now → ∀ key ∈ row.role.policyKeys,
      (s.policyRow? (some row.tenant) (some key)).isSome = true) :
    s.Changes { s with roles := s.roles ++ [row] } now fun _ _ => False where
  cache := rfl
  users _ _ h := h
  linked h :=
    { policies := fun r hr key hkey => by
        rcases List.mem_append.1 hr with hr | hr
        · exact h.policies r hr key hkey
        · obtain rfl := List.mem_singleton.1 hr
          exact hkeys h key hkey
      roles := fun a ha hlive => by
        rw [roleRow?_append row (h.roles a ha hlive)]
        exact h.roles a ha hlive }
  kept a ha := ⟨a, ha, rfl, rfl, rfl⟩
  grants h t u _ selected := by
    refine grantsWhere_congr rfl fun a ha => grantsOf_congr ?_ fun _ _ _ _ => rfl
    rw [role?, roleRow?_append row (h.role_of_live ha)]
    rfl

theorem changes_replaceRole {r row : RoleRow} (ht : row.tenant = r.tenant)
    (hk : row.role.key = r.role.key)
    (hkeys : s.Linked now → ∀ key ∈ row.role.policyKeys,
      (s.policyRow? (some row.tenant) (some key)).isSome = true) :
    s.Changes { s with roles := s.roles.map fun q => if q = r then row else q } now
      fun t _ => t = r.tenant where
  cache := rfl
  users _ _ h := h
  linked h :=
    { policies := fun q hq key hkey => by
        obtain ⟨q', hq', rfl⟩ := List.mem_map.1 hq
        by_cases hr : q' = r
        · simp only [hr, ↓reduceIte] at hkey ⊢
          exact hkeys h key hkey
        · simp only [hr, ↓reduceIte] at hkey ⊢
          exact h.policies q' hq' key hkey
      roles := fun a ha hlive => by
        rw [roleRow?, isSome_find?_replace (by rw [ht, hk])]
        exact h.roles a ha hlive }
  kept a ha := ⟨a, ha, rfl, rfl, rfl⟩
  grants _ t u hne selected := by
    refine grantsWhere_congr rfl fun a _ => grantsOf_congr ?_ fun _ _ _ _ => rfl
    have hother : (some r.tenant == some t) = false := by simpa using Ne.symm hne
    rw [role?, roleRow?, find?_replace_of_not (by rw [hother]; rfl) (by rw [ht, hother]; rfl)]
    rfl

theorem roleRow?_remove {tenant key : Given} {t k : Given} (h : t ≠ tenant ∨ k ≠ key) :
    (s.removeRole tenant key).roleRow? t k = s.roleRow? t k := by
  refine find?_filter_of_imp fun q hq => ?_
  simp only [Bool.and_eq_true, beq_iff_eq] at hq
  rw [hq.1, hq.2]
  rcases h with h | h <;> simp [h]

theorem changes_removeRole {tenant key : Given} (hfree : s.countLive tenant key now = 0) :
    s.Changes (s.removeRole tenant key) now fun t _ => some t = tenant where
  cache := rfl
  users _ _ h := h
  linked h :=
    { policies := fun r hr k hk => h.policies r (List.mem_filter.1 hr).1 k hk
      roles := fun a ha hlive => by
        have hne : some a.tenant ≠ tenant ∨ some a.roleKey ≠ key := by
          by_cases ht : some a.tenant = tenant
          · -- An assignment in force with this role would have been counted.
            right
            intro hkey
            have hnone := List.countP_eq_zero.1 ((s.countLive_eq_countP ..).symm.trans hfree) a ha
            simp [ht, hkey, hlive] at hnone
          · exact .inl ht
        rw [roleRow?_remove hne]
        exact h.roles a ha hlive }
  kept a ha := ⟨a, ha, rfl, rfl, rfl⟩
  grants _ t u hne selected := by
    refine grantsWhere_congr rfl fun a _ => grantsOf_congr ?_ fun _ _ _ _ => rfl
    rw [role?, roleRow?_remove (.inl hne), role?]

/-! ### The directory -/

theorem changes_insertUser? {id email : Given} {customerId : Option String}
    (h : s.insertUser? tenant id email customerId = some s') :
    s.Changes s' now fun _ _ => False := by
  simp only [insertUser?, Option.bind_eq_bind, Option.bind_eq_some_iff] at h
  obtain ⟨_, -, _, -, _, -, users, hadd, h⟩ := h
  cases h
  refine changes_of_tables rfl rfl rfl rfl fun t u hu => ?_
  unfold addUnless at hadd
  split at hadd
  · cases hadd
  · cases hadd
    rw [user?, List.find?_append]
    rw [user?] at hu
    rw [Option.isSome_or, hu]
    rfl

theorem changes_insertCustomer? {id name : Given} (h : s.insertCustomer? tenant id name = some s') :
    s.Changes s' now fun _ _ => False := by
  simp only [insertCustomer?, Option.bind_eq_bind, Option.bind_eq_some_iff] at h
  obtain ⟨_, -, _, -, _, -, customers, -, h⟩ := h
  cases h
  exact changes_of_tables rfl rfl rfl rfl fun _ _ hu => hu

theorem changes_insertGroup? {id key name : Given}
    (h : s.insertGroup? tenant id key name = some s') : s.Changes s' now fun _ _ => False := by
  simp only [insertGroup?, Option.bind_eq_bind, Option.bind_eq_some_iff] at h
  obtain ⟨_, -, _, -, _, -, _, -, groups, -, h⟩ := h
  cases h
  exact changes_of_tables rfl rfl rfl rfl fun _ _ hu => hu

theorem changes_insertMember? {id group user : Given} {assignedAt expiresAt : Option Stamp}
    (h : s.insertMember? tenant id group user assignedAt expiresAt = some s') :
    s.Changes s' now fun _ _ => False := by
  simp only [insertMember?, Option.bind_eq_bind, Option.bind_eq_some_iff] at h
  obtain ⟨_, -, _, -, _, -, _, -, _, -, members, -, h⟩ := h
  cases h
  exact changes_of_tables rfl rfl rfl rfl fun _ _ hu => hu

end Store

end Entitlements
