import Entitlements.Proofs.Store.Links

/-!
Changes of assignments. The state of an assignment is kept in two ways at once, as what is recorded
and as its expiry, and only both together say whether it is in force. Recording an expiry that has
come therefore changes nothing that anybody sees, then or later. Granting and revoking are seen by
one user. Time alone is seen only when it passes an expiry.
-/

namespace Entitlements

open Time

namespace AssignmentRow

/-- Does a row stand in the place of another, whatever became of its state? -/
structure Continues (b a : AssignmentRow) : Prop where
  tenant : b.tenant = a.tenant
  id : b.id = a.id
  user : b.userId = a.userId
  grantedAt : b.grantedAt = a.grantedAt
  expiresAt : b.expiresAt = a.expiresAt

theorem Continues.refl (a : AssignmentRow) : a.Continues a := ⟨rfl, rfl, rfl, rfl, rfl⟩

theorem continues_expire (a : AssignmentRow) (now : Instant) : (a.expire now).Continues a :=
  ⟨rfl, rfl, rfl, rfl, rfl⟩

theorem continues_of_status {a b : AssignmentRow} {status : String} {actor : Option String}
    {now : Instant} (h : b = { a with status, updatedBy := actor, updatedAt := now }) :
    b.Continues a := by
  rw [h]
  exact ⟨rfl, rfl, rfl, rfl, rfl⟩

theorem isLive_expire (a : AssignmentRow) (earlier now : Instant) :
    (a.expire earlier).isLive now = false := rfl

theorem record_of_state {r : AssignmentRow} {state : AssignmentStatus}
    (h : AssignmentStatus.ofText? r.status = some state) : r.record = .ok (r.withStatus state) := by
  rw [record, AssignmentStatus.parse, h]
  rfl

theorem record_of_unknown {r : AssignmentRow}
    (h : AssignmentStatus.ofText? r.status = none) :
    r.record = .error (.unknownStatus (.str r.status)) := by
  rw [record, AssignmentStatus.parse, h]
  rfl

/-- What has lapsed is not in force any more, then or later. -/
theorem not_isLive_of_isLapsed {a : AssignmentRow} {earlier now : Instant}
    (h : a.isLapsed earlier = true) (hle : earlier ≤ now) : a.isLive now = false := by
  simp only [isLapsed, Bool.and_eq_true, Bool.not_eq_true'] at h
  cases hlive : a.isLive now
  · rfl
  · have hahead : isAhead a.expiresAt earlier = true := by
      rw [isAhead_iff]
      intro t ht
      have hnow : now < t := (isLive_iff.1 hlive).2 t ht
      exact Int.lt_of_le_of_lt hle hnow
    rw [h.2] at hahead
    cases hahead

end AssignmentRow

namespace Store

variable {s : Store} {tenant user : Given} {now : Instant}

/-- Recording what has lapsed. -/
def settle (selected : AssignmentRow → Bool) (earlier : Instant) (a : AssignmentRow) :
    AssignmentRow :=
  if selected a && a.isLapsed earlier then a.expire earlier else a

theorem assignments_expireWhere (selected : AssignmentRow → Bool) (earlier : Instant) :
    (s.expireWhere selected earlier).assignments = s.assignments.map (settle selected earlier) :=
  rfl

theorem continues_settle (selected : AssignmentRow → Bool) (earlier : Instant)
    (a : AssignmentRow) : (settle selected earlier a).Continues a := by
  unfold settle
  split
  · exact a.continues_expire earlier
  · exact .refl a

theorem isLive_settle {selected : AssignmentRow → Bool} {earlier : Instant}
    (hle : earlier ≤ now) (a : AssignmentRow) :
    (settle selected earlier a).isLive now = a.isLive now := by
  unfold settle
  split
  · next h =>
    have hlapsed := (Bool.and_eq_true_iff.1 h).2
    rw [AssignmentRow.not_isLive_of_isLapsed hlapsed hle, AssignmentRow.isLive_expire]
  · rfl

theorem settle_of_isLive {selected : AssignmentRow → Bool} {earlier : Instant}
    (hle : earlier ≤ now) {a : AssignmentRow} (h : a.isLive now = true) :
    settle selected earlier a = a := by
  unfold settle
  split
  · next hs =>
    have hlapsed := (Bool.and_eq_true_iff.1 hs).2
    rw [AssignmentRow.not_isLive_of_isLapsed hlapsed hle] at h
    cases h
  · rfl

/-- The assignments in force do not show what was recorded about the others. -/
theorem liveAssignmentsOf_expireWhere {selected : AssignmentRow → Bool} {earlier : Instant}
    (hle : earlier ≤ now) :
    (s.expireWhere selected earlier).liveAssignmentsOf tenant user now =
      s.liveAssignmentsOf tenant user now := by
  have hrows : (s.expireWhere selected earlier).assignmentsOf tenant user =
      (s.assignmentsOf tenant user).map (settle selected earlier) := by
    unfold assignmentsOf
    rw [List.map_mergeSort]
    · congr 1
      have hpred : (fun r : AssignmentRow => some r.tenant == tenant && some r.userId == user) ∘
          settle selected earlier = fun r => some r.tenant == tenant && some r.userId == user := by
        funext r
        have hr := continues_settle selected earlier r
        simp only [Function.comp, hr.tenant, hr.user]
      rw [assignments_expireWhere, List.filter_map, hpred]
    · intro a _ b _
      have ha := continues_settle selected earlier a
      have hb := continues_settle selected earlier b
      simp only [AssignmentRow.le, ha.grantedAt, hb.grantedAt, ha.id, hb.id]
  unfold liveAssignmentsOf
  rw [hrows]
  exact filter_map_of_fixed (fun a _ => isLive_settle hle a) fun a _ h => settle_of_isLive hle h

theorem changes_expireWhere {selected : AssignmentRow → Bool} {earlier : Instant}
    (hle : earlier ≤ now) :
    s.Changes (s.expireWhere selected earlier) now fun _ _ => False where
  cache := rfl
  users _ _ h := h
  linked h :=
    { policies := h.policies
      roles := fun b hb hlive => by
        obtain ⟨a, ha, rfl⟩ := List.mem_map.1 hb
        change (settle selected earlier a).isLive now = true at hlive
        rw [isLive_settle hle] at hlive
        rw [show (if selected a && a.isLapsed earlier then a.expire earlier else a) =
          settle selected earlier a from rfl, settle_of_isLive hle hlive]
        exact h.roles a ha hlive }
  kept a ha := by
    have hcont := continues_settle selected earlier a
    exact ⟨settle selected earlier a, List.mem_map_of_mem ha, hcont.tenant, hcont.user,
      hcont.expiresAt⟩
  grants _ _ _ _ _ := grantsWhere_congr (liveAssignmentsOf_expireWhere hle) fun _ _ => rfl

/-! ### What is in force once expiry is recorded -/

section

variable {role scope : Given} (selected : AssignmentRow → Bool) {earlier : Instant}

@[simp] theorem hasTriple_settle (r : AssignmentRow) :
    (settle selected earlier r).hasTriple tenant user role scope =
      r.hasTriple tenant user role scope := by
  unfold settle
  split <;> rfl

@[simp] theorem roleKey_settle (r : AssignmentRow) :
    (settle selected earlier r).roleKey = r.roleKey := by
  unfold settle
  split <;> rfl

/-- What is retired is what is not in force. -/
theorem isActive_settle {r : AssignmentRow} (h : selected r = true) :
    (settle selected now r).isActive = r.isLive now := by
  cases hactive : r.isActive with
  | false => simp [settle, AssignmentRow.isLapsed, AssignmentRow.isLive, hactive]
  | true =>
    rw [AssignmentRow.isLive_iff_not_lapsed hactive]
    cases hlapsed : r.isLapsed now with
    | false => simp [settle, hlapsed, hactive]
    | true =>
      simp only [settle, h, hlapsed, Bool.and_self, ↓reduceIte]
      rfl

theorem liveAssignment?_expireWhere (hle : earlier ≤ now) :
    (s.expireWhere selected earlier).liveAssignment? tenant user role scope now =
      s.liveAssignment? tenant user role scope now := by
  simp only [liveAssignment?, ← List.head?_filter, assignments_expireWhere]
  rw [filter_map_of_fixed]
  · intro r _
    rw [hasTriple_settle, isLive_settle hle]
  · intro r _ hfound
    exact settle_of_isLive hle (Bool.and_eq_true_iff.1 hfound).2

theorem countLive_expireWhere (hle : earlier ≤ now) :
    (s.expireWhere selected earlier).countLive tenant role now = s.countLive tenant role now := by
  rw [countLive_eq_countP, countLive_eq_countP, assignments_expireWhere, List.countP_map]
  congr 1
  funext r
  simp only [Function.comp, (continues_settle selected earlier r).tenant, roleKey_settle,
    isLive_settle hle]

theorem grantsWhere_expireWhere (hle : earlier ≤ now) (reaching : AssignmentRow → Bool) :
    (s.expireWhere selected earlier).grantsWhere tenant user reaching now =
      s.grantsWhere tenant user reaching now :=
  grantsWhere_congr (liveAssignmentsOf_expireWhere hle) fun _ _ => rfl

theorem verdict_expireWhere (hle : earlier ≤ now) (permission : Given) :
    (s.expireWhere selected earlier).verdict tenant user permission scope now =
      s.verdict tenant user permission scope now := by
  rw [verdict, verdict, grantsAt, grantsAt, liveAssignmentsOf_expireWhere hle,
    grantsWhere_expireWhere selected hle]

/-- After retiring a triple, a row of it clashes with those of it that are in force. -/
theorem clashes_expireWhere {row : AssignmentRow} (hactive : row.isActive = true)
    (hselected : ∀ r : AssignmentRow, selected r =
      r.hasTriple row.tenant row.userId row.roleKey row.scope) :
    (s.expireWhere selected now).clashes row =
      s.assignments.any fun r => r.isLive now && r.id != row.id && selected r := by
  rw [clashes, hactive, Bool.true_and, assignments_expireWhere, List.any_map]
  congr 1
  funext r
  rw [Function.comp, hasTriple_settle, (continues_settle selected now r).id, ← hselected]
  cases h : selected r with
  | false => simp
  | true => rw [isActive_settle selected h]

end

/-! ### Granting -/

/-- Somebody who is not the holder differs in the tenant or in the user. -/
theorem some_ne_or_of_not {t u tenant user : String} (h : ¬(t = tenant ∧ u = user)) :
    some tenant ≠ some t ∨ some user ≠ some u := by
  by_cases ht : t = tenant
  · right
    rintro ⟨⟩
    exact h ⟨ht, rfl⟩
  · left
    rintro ⟨⟩
    exact ht rfl

theorem liveAssignmentsOf_append {row : AssignmentRow}
    (h : some row.tenant ≠ tenant ∨ some row.userId ≠ user) :
    { s with assignments := s.assignments ++ [row] }.liveAssignmentsOf tenant user now =
      s.liveAssignmentsOf tenant user now := by
  have hnot : (some row.tenant == tenant && some row.userId == user) = false := by
    rcases h with h | h <;> simp [h]
  simp only [liveAssignmentsOf, assignmentsOf, List.filter_append, List.filter_cons, hnot,
    Bool.false_eq_true, ↓reduceIte, List.filter_nil, List.append_nil]

/-- Adding an assignment whose role is there. -/
theorem changes_addAssignment {row : AssignmentRow}
    (hrole : (s.roleRow? (some row.tenant) (some row.roleKey)).isSome = true) :
    s.Changes { s with assignments := s.assignments ++ [row] } now
      fun t u => t = row.tenant ∧ u = row.userId where
  cache := rfl
  users _ _ h := h
  linked h :=
    { policies := h.policies
      roles := fun a ha hlive => by
        rcases List.mem_append.1 ha with ha | ha
        · exact h.roles a ha hlive
        · obtain rfl := List.mem_singleton.1 ha
          exact hrole }
  kept a ha := ⟨a, List.mem_append_left _ ha, rfl, rfl, rfl⟩
  grants _ t u hne selected := by
    have hother : some row.tenant ≠ some t ∨ some row.userId ≠ some u :=
      some_ne_or_of_not hne
    exact grantsWhere_congr (liveAssignmentsOf_append hother) fun _ _ => rfl

/-- The row that is granted, and the table it is added to. -/
theorem insertAssignment?_eq_some {id : String} {d : AssignmentDraft} {s' : Store}
    {row : AssignmentRow} (h : s.insertAssignment? id tenant d now = some (s', row)) :
    (some row.tenant = tenant ∧ row.id = id ∧ some row.userId = d.user ∧
      some row.roleKey = d.role ∧ some row.scope = d.scope ∧ row.isActive = true) ∧
      ∃ retired, retired = s.expireWhere (·.hasTriple tenant d.user d.role d.scope) now ∧
        retired.clashes row = false ∧
        s' = { retired with assignments := retired.assignments ++ [row] } := by
  simp only [insertAssignment?, Option.bind_eq_bind, Option.bind_eq_some_iff] at h
  obtain ⟨t, rfl, user, huser, role, hrole, scope, hscope, grantedBy, -, h⟩ := h
  split at h
  · cases h
  · next hclash =>
    cases h
    exact ⟨⟨rfl, rfl, huser.symm, hrole.symm, hscope.symm, rfl⟩, _, rfl, by simpa using hclash,
      rfl⟩

/-- Granting retires a lapsed assignment of the same triple, which nobody sees, and adds one. -/
theorem changes_insertAssignment? {id : String} {d : AssignmentDraft} {s' : Store}
    {row : AssignmentRow} (h : s.insertAssignment? id tenant d now = some (s', row))
    (hrole : (s.roleRow? tenant d.role).isSome = true) :
    some row.tenant = tenant ∧ some row.userId = d.user ∧
      s.Changes s' now fun t u => t = row.tenant ∧ u = row.userId := by
  obtain ⟨⟨ht, -, hu, hr, -, -⟩, retired, hretired, -, rfl⟩ := insertAssignment?_eq_some h
  have hretire : s.Changes retired now fun _ _ => False := by
    rw [hretired]
    exact changes_expireWhere (Int.le_refl now.micros)
  have hfound : (retired.roleRow? (some row.tenant) (some row.roleKey)).isSome = true := by
    rw [hretired, ht, hr]
    exact hrole
  refine ⟨ht, hu, Changes.mono (Changes.trans hretire (changes_addAssignment hfound)) ?_⟩
  exact fun _ _ h => h.elim False.elim fun h => h

/-! ### Revoking -/

theorem liveAssignmentsOf_replace {r row : AssignmentRow} (hc : row.Continues r)
    (h : some r.tenant ≠ tenant ∨ some r.userId ≠ user) :
    { s with assignments := s.assignments.map fun q => if q = r then row else q
      }.liveAssignmentsOf tenant user now = s.liveAssignmentsOf tenant user now := by
  unfold liveAssignmentsOf assignmentsOf
  rw [filter_map_of_fixed]
  · intro a _
    by_cases hr : a = r
    · simp [hr, hc.tenant, hc.user]
    · simp [hr]
  · intro a _ howned
    have hr : a ≠ r := by
      rintro rfl
      simp only [Bool.and_eq_true, beq_iff_eq] at howned
      rcases h with h | h
      · exact h howned.1
      · exact h howned.2
    simp [hr]

/-- A row that is not active any more takes the place of another. -/
theorem changes_deactivate {r row : AssignmentRow} (hc : row.Continues r)
    (hinactive : row.isActive = false) :
    s.Changes { s with assignments := s.assignments.map fun q => if q = r then row else q } now
      fun t u => t = r.tenant ∧ u = r.userId where
  cache := rfl
  users _ _ h := h
  linked h :=
    { policies := h.policies
      roles := fun b hb hlive => by
        obtain ⟨a, ha, rfl⟩ := List.mem_map.1 hb
        by_cases hr : a = r
        · simp [hr, AssignmentRow.isLive, hinactive] at hlive
        · simp only [hr, ↓reduceIte] at hlive ⊢
          exact h.roles a ha hlive }
  kept a ha := by
    refine ⟨if a = r then row else a, List.mem_map_of_mem ha, ?_⟩
    by_cases hr : a = r
    · simp [hr, hc.tenant, hc.user, hc.expiresAt]
    · simp [hr]
  grants _ t u hne selected := by
    have hother : some r.tenant ≠ some t ∨ some r.userId ≠ some u :=
      some_ne_or_of_not hne
    exact grantsWhere_congr (liveAssignmentsOf_replace hc hother) fun _ _ => rfl

/-! ### Time -/

/-- Does an assignment of a user expire after one time and by another? -/
def LapsesBetween (s : Store) (tenant user : String) (earlier now : Instant) : Prop :=
  ∃ a ∈ s.assignments, a.tenant = tenant ∧ a.userId = user ∧
    ∃ t, a.expiresAt = some t ∧ earlier < t ∧ t ≤ now

/-- As long as nothing expires, time is not seen. -/
theorem grantsWhere_of_not_lapses {tenant user : String} {earlier : Instant} (hle : earlier ≤ now)
    (h : ¬s.LapsesBetween tenant user earlier now) (selected : AssignmentRow → Bool) :
    s.grantsWhere (some tenant) (some user) selected now =
      s.grantsWhere (some tenant) (some user) selected earlier := by
  have hlive : s.liveAssignmentsOf (some tenant) (some user) now =
      s.liveAssignmentsOf (some tenant) (some user) earlier := by
    unfold liveAssignmentsOf
    apply List.filter_congr
    intro a ha
    obtain ⟨hmem, ht, hu⟩ := mem_assignmentsOf.1 ha
    rw [Bool.eq_iff_iff, AssignmentRow.isLive_iff, AssignmentRow.isLive_iff]
    -- What is ahead now was ahead before; what was ahead before and is not now has expired between.
    refine and_congr_right fun _ => ⟨fun hnow t hexp => ?_, fun hearlier t hexp => ?_⟩
    · exact Int.lt_of_le_of_lt hle (hnow t hexp)
    · rw [← Instant.not_le]
      intro hpast
      exact h ⟨a, hmem, Option.some.inj ht, Option.some.inj hu, t, hexp, hearlier t hexp, hpast⟩
  exact grantsWhere_congr hlive fun _ _ => rfl

theorem Linked.later {earlier : Instant} (hle : earlier ≤ now) (h : s.Linked earlier) :
    s.Linked now where
  policies := h.policies
  roles a ha hlive := by
    obtain ⟨hactive, hahead⟩ := AssignmentRow.isLive_iff.1 hlive
    refine h.roles a ha (AssignmentRow.isLive_iff.2 ⟨hactive, fun t ht => ?_⟩)
    exact Int.lt_of_le_of_lt hle (hahead t ht)

end Store

end Entitlements
