import Entitlements.Proofs.Administration.Granting

/-!
The pass that records expiry. Whether an assignment is in force is asked in several places: when
the assignments of a user are listed, when one is looked for before a grant, when those of a role
are counted, and when lapsed ones are recorded. All of them draw the line where the record of a row
does, at the moment of its expiry. So what the pass records was not in force before, and nobody who
asks for what is in force notices, at the time of the pass or later.
-/

namespace Entitlements

open Time Call

/-! ### One line for all tests -/

theorem AssignmentStatus.eq_text_of_ofText? {s : String} {status : AssignmentStatus}
    (h : ofText? s = some status) : s = status.text := by
  unfold ofText? at h
  split at h <;> cases h <;> rfl

namespace AssignmentRow

/-- Is the record of a row effective at a time? A row in an unknown state has no record. -/
def isEffective (r : AssignmentRow) (now : Instant) : Bool :=
  match r.record with
  | .ok a => a.isEffective now
  | .error _ => false

theorem isLive_eq_isEffective (r : AssignmentRow) (now : Instant) :
    r.isLive now = r.isEffective now := by
  cases hactive : r.isActive with
  | true =>
    rw [isEffective, record_of_isActive hactive]
    simp [isLive, hactive, withStatus, Assignment.isEffective]
  | false =>
    have hother : r.status ≠ AssignmentStatus.active.text := by
      simpa [isActive] using hactive
    rw [isLive, hactive, Bool.false_and, isEffective]
    rcases hstate : AssignmentStatus.ofText? r.status with _ | state
    · rw [record_of_unknown hstate]
    · have hstate' : state ≠ .active := by
        rintro rfl
        exact hother (AssignmentStatus.eq_text_of_ofText? hstate)
      rw [record_of_state hstate]
      simp [withStatus, Assignment.isEffective, hstate']

theorem isLapsed_eq (r : AssignmentRow) (now : Instant) :
    r.isLapsed now = (r.isActive && !r.isEffective now) := by
  rw [← isLive_eq_isEffective]
  cases h : r.isActive
  · simp [isLapsed, h]
  · rw [isLive_iff_not_lapsed h]
    simp

end AssignmentRow

/-! ### Grants after the pass -/

/-- A draft that leaves nothing out is refused exactly if another row of its triple is in force. -/
theorem CompleteDraft.map_snd_insertAssignment? (d : CompleteDraft) (s : Store) (id : String)
    (now : Instant) :
    (s.insertAssignment? id (some d.tenant) d.draft now).map Prod.snd =
      if s.assignments.any fun r => r.isLive now && r.id != id && d.isFor r then none
      else some (d.row id now) := by
  simp only [Store.insertAssignment?, draft, Option.bind_eq_bind, Option.bind_some]
  change Option.map Prod.snd (if (s.expireWhere d.isFor now).clashes (d.row id now) then none
    else some (_, d.row id now)) = _
  rw [clashes_row]
  split <;> rfl

/-- A grant is written or refused whether or not the expiry of others has been recorded. -/
theorem Store.insertAssignment?_expireWhere {s : Store} {selected : AssignmentRow → Bool}
    {earlier now : Instant} (hle : earlier ≤ now) (id : String) (tenant : Given)
    (d : AssignmentDraft) :
    ((s.expireWhere selected earlier).insertAssignment? id tenant d now).map Prod.snd =
      (s.insertAssignment? id tenant d now).map Prod.snd := by
  obtain ⟨user, role, scope, grantedBy, expiresAt, reason⟩ := d
  -- Without one of its texts a row is added to neither store.
  rcases tenant with _ | tenant
  · rfl
  rcases user with _ | user
  · rfl
  rcases role with _ | role
  · rfl
  rcases scope with _ | scope
  · rfl
  rcases grantedBy with _ | grantedBy
  · rfl
  let c : CompleteDraft := ⟨tenant, user, role, scope, grantedBy, expiresAt, reason⟩
  have hsame : ((fun r : AssignmentRow => r.isLive now && r.id != id && c.isFor r) ∘
      settle selected earlier) = fun r => r.isLive now && r.id != id && c.isFor r := by
    funext r
    simp only [Function.comp, isLive_settle hle, (continues_settle selected earlier r).id,
      CompleteDraft.isFor, hasTriple_settle]
  change ((s.expireWhere selected earlier).insertAssignment? id (some c.tenant) c.draft now).map
    Prod.snd = (s.insertAssignment? id (some c.tenant) c.draft now).map Prod.snd
  rw [c.map_snd_insertAssignment?, c.map_snd_insertAssignment?, assignments_expireWhere,
    List.any_map, hsame]

/-! ### Calls that answer alike -/

namespace Call

/-- Does a call give one answer on two engines? -/
def AnswersAlike (x : Call α) (env : Environment) (e e' : Engine) : Prop :=
  (x.outcome env e).1 = (x.outcome env e').1

namespace AnswersAlike

variable {env : Environment} {e e' : Engine} {x : Call α}

/-- Over a step that only looks, and sees the same. -/
theorem look {f : α → Call β} {answer : Except Failure α} (hx : x.outcome env e = (answer, e))
    (hx' : x.outcome env e' = (answer, e'))
    (h : ∀ a, answer = .ok a → (f a).AnswersAlike env e e') :
    (x >>= f).AnswersAlike env e e' := by
  rw [AnswersAlike, outcome_bind, outcome_bind, hx, hx']
  rcases answer with failure | a
  · rfl
  · exact h a rfl

/-- Over a check that refuses. -/
theorem guard {c : Prop} [Decidable c] {refusal : Failure} {f : Unit → Call α}
    (h : x.AnswersAlike env e e') :
    (if c then throw refusal >>= f else x).AnswersAlike env e e' := by
  split
  · rfl
  · exact h

/-- Before a step whose answer is known. -/
theorem settled {f : α → Call β} (answer : α → β) (hx : x.AnswersAlike env e e')
    (hf : ∀ a e, ((f a).outcome env e).1 = .ok (answer a)) :
    (x >>= f).AnswersAlike env e e' := by
  rw [AnswersAlike] at hx
  rw [AnswersAlike, outcome_bind, outcome_bind]
  rcases hr : x.outcome env e with ⟨r, e₁⟩
  rcases hr' : x.outcome env e' with ⟨r', e₁'⟩
  obtain rfl : r = r' := by rw [hr, hr'] at hx; exact hx
  rcases r with failure | a
  · rfl
  · exact (hf a e₁).trans (hf a e₁').symm

end AnswersAlike

end Call

/-! ### Who asks for what is in force -/

/-- The engine in which the expiry of lapsed assignments is recorded, among those selected. -/
def Engine.expired (e : Engine) (selected : AssignmentRow → Bool) (earlier : Instant) : Engine :=
  { e with store := e.store.expireWhere selected earlier }

namespace AccessStore

theorem outcome_liveAssignments (env : Environment) (e : Engine) (tenant user : Given) :
    (assignments tenant user true).outcome env e =
      ((env.settings.checkTenant tenant).bind fun _ =>
        (e.store.liveAssignmentsOf tenant user e.clock).mapM AssignmentRow.record, e) := by
  have hrecords := outcome_mapM (fun r : AssignmentRow => outcome_ofExcept env e r.record)
    (e.store.liveAssignmentsOf tenant user e.clock)
  rcases hg : env.settings.checkTenant tenant with failure | _ <;>
    simp [assignments, hg, Except.bind, hrecords]

/-- What is granted is the row that is written, with its expiry as it was asked for. -/
theorem answer_createAssignment (env : Environment) (e : Engine) (tenant : Given)
    (d : AssignmentDraft) (now : Instant) :
    ((createAssignment tenant d (some now)).outcome env e).1 = (do
      env.settings.checkTenant tenant
      let row ← ((e.store.insertAssignment? (e.ids.next .assignment) tenant d now).map
        Prod.snd).elim (.error (.assignmentExists d.user d.role d.scope)) .ok
      let expiresAt ← d.expiresAt.mapM Stamp.instant
      return { row.withStatus .active with expiresAt }) := by
  rcases hg : env.settings.checkTenant tenant with failure | _
  · simp [createAssignment, hg]
  rcases hins : e.store.insertAssignment? (e.ids.next .assignment) tenant d now with _ | ⟨s, row⟩
  · simp [createAssignment, hg, hins]
  rcases hexp : d.expiresAt with _ | stamp
  · simp [createAssignment, hg, hins, hexp]
  · rcases hinstant : stamp.instant with failure | instant <;>
      simp [createAssignment, hg, hins, hexp, hinstant]

theorem answersAlike_removeRole (env : Environment) (e : Engine)
    (selected : AssignmentRow → Bool) (earlier : Instant) (tenant key : Given) :
    (removeRole tenant key).AnswersAlike env e (e.expired selected earlier) := by
  refine .look (outcome_requireTenant env e tenant) (outcome_requireTenant env _ tenant)
    fun _ _ => ?_
  rfl

end AccessStore

section

variable (env : Environment) {e : Engine} (selected : AssignmentRow → Bool) {earlier : Instant}
  (hle : earlier ≤ e.clock) (tenant user scope : Given)

include hle

namespace Evaluation

theorem answersAlike_evaluate (permission : Given) :
    (evaluate tenant user permission scope).AnswersAlike env e (e.expired selected earlier) := by
  rw [AnswersAlike, outcome_evaluate, outcome_evaluate]
  simp only [Engine.expired, Store.verdict_expireWhere selected hle]

theorem answersAlike_evaluateBatch (permissions : List Given) :
    (evaluateBatch tenant user permissions scope).AnswersAlike env e
      (e.expired selected earlier) := by
  refine .look (outcome_requireTenant env e tenant) (outcome_requireTenant env _ tenant)
    fun _ _ => ?_
  refine .look (outcome_now env e) (outcome_now env _) fun now hnow => ?_
  obtain rfl : e.clock = now := Except.ok.inj hnow
  rw [AnswersAlike, outcome_bind, outcome_bind, outcome_store, outcome_store, andThen_ok,
    andThen_ok]
  simp only [outcome_pure, Engine.expired, Store.grantsAt,
    Store.liveAssignmentsOf_expireWhere hle, Store.grantsWhere_expireWhere selected hle]

theorem answersAlike_effective :
    (effective tenant user scope).AnswersAlike env e (e.expired selected earlier) := by
  rw [AnswersAlike, Generation.outcome_effective, Generation.outcome_effective]
  simp only [Engine.expired, Store.grantsFor, Store.grantsWhere_expireWhere selected hle]

end Evaluation

namespace Generation

theorem fresh_expired (o : BundleOptions) :
    fresh env (e.expired selected earlier) tenant user o = fresh env e tenant user o := by
  simp only [fresh, bundleOf, Engine.expired, Store.grantsFor,
    Store.grantsWhere_expireWhere selected hle]
  rfl

theorem answersAlike_generate {o : BundleOptions} (h : o.useCache = false) :
    (generate tenant user o).AnswersAlike env e (e.expired selected earlier) := by
  rw [AnswersAlike, outcome_generate_uncached _ _ _ _ _ h, outcome_generate_uncached _ _ _ _ _ h,
    fresh_expired env selected hle]

end Generation

namespace AccessStore

theorem answersAlike_createAssignment (d : AssignmentDraft) :
    (createAssignment tenant d (some e.clock)).AnswersAlike env e
      (e.expired selected earlier) := by
  rw [AnswersAlike, answer_createAssignment, answer_createAssignment]
  rw [Engine.expired, Store.insertAssignment?_expireWhere hle]

end AccessStore

namespace Administration

theorem answersAlike_assignments :
    (assignments tenant user true).AnswersAlike env e (e.expired selected earlier) := by
  refine .look (AccessStore.outcome_liveAssignments env e tenant user) ?_ fun _ _ => rfl
  rw [AccessStore.outcome_liveAssignments]
  simp only [Engine.expired, Store.liveAssignmentsOf_expireWhere hle]

theorem answersAlike_deleteRole (key actor : Given) :
    (deleteRole tenant key actor).AnswersAlike env e (e.expired selected earlier) := by
  refine .look (outcome_role tenant key env e) (outcome_role tenant key env _) fun current _ => ?_
  refine .guard ?_
  refine .look (AccessStore.outcome_countLive tenant key env e) ?_ fun active _ => .guard ?_
  · rw [AccessStore.outcome_countLive]
    simp only [Engine.expired, Store.countLive_expireWhere selected hle]
  · refine .settled (fun _ => ())
      (AccessStore.answersAlike_removeRole env e selected earlier tenant key) fun _ e => ?_
    obtain ⟨_, hok⟩ := followUp_answers (roleEvent .roleDeleted tenant key "DELETE" actor [])
      .tenant ("Role " ++ key.mention ++ " deleted") actor env e
    rw [hok]

theorem answersAlike_assignRole (d : AssignmentDraft) :
    (assignRole tenant d).AnswersAlike env e (e.expired selected earlier) := by
  have hgrant : (do
      let assignment ← AccessStore.createAssignment tenant d (some e.clock)
      followUp
        (assignmentEvent .roleAssigned tenant (some assignment.id) "CREATE" d.grantedBy d.user
          d.role d.scope d.reason)
        (.user d.user) ("Role " ++ d.role.mention ++ " assigned") d.grantedBy
      return assignment : Call Assignment).AnswersAlike env e (e.expired selected earlier) := by
    refine .settled id (AccessStore.answersAlike_createAssignment env selected hle tenant d)
      fun assignment e => ?_
    obtain ⟨_, hok⟩ := followUp_answers (assignmentEvent .roleAssigned tenant (some assignment.id)
      "CREATE" d.grantedBy d.user d.role d.scope d.reason) (.user d.user)
      ("Role " ++ d.role.mention ++ " assigned") d.grantedBy env e
    rw [outcome_bind, hok]
    rfl
  refine .look (outcome_ofExcept env e _) (outcome_ofExcept env _ _) fun _ _ => ?_
  refine .look (outcome_now env e) (outcome_now env _) fun now hnow => ?_
  obtain rfl : e.clock = now := Except.ok.inj hnow
  refine .look (outcome_ofExcept env e _) (outcome_ofExcept env _ _) fun _ _ => ?_
  refine .look (outcome_role tenant d.role env e) (outcome_role tenant d.role env _) fun _ _ => ?_
  refine .look (outcome_read env e) (outcome_read env _) fun _ _ => ?_
  dsimp only
  split
  · refine .look (AccessStore.outcome_liveAssignment? tenant env e d.user d.role d.scope) ?_
      fun found _ => .guard hgrant
    rw [AccessStore.outcome_liveAssignment?]
    simp only [Engine.expired, Store.liveAssignment?_expireWhere selected hle]
  · exact hgrant

end Administration

end

/-- Is there one answer on two engines for everybody who asks for assignments in force: to decide,
to enumerate or to compile rights, to list the assignments themselves, or to let a role be deleted
or granted? -/
structure Engine.SameInForce (e e' : Engine) : Prop where
  evaluate : ∀ env tenant user permission scope,
    (Evaluation.evaluate tenant user permission scope).AnswersAlike env e e'
  evaluateBatch : ∀ env tenant user permissions scope,
    (Evaluation.evaluateBatch tenant user permissions scope).AnswersAlike env e e'
  effective : ∀ env tenant user scope,
    (Evaluation.effective tenant user scope).AnswersAlike env e e'
  generate : ∀ env tenant user o, o.useCache = false →
    (Generation.generate tenant user o).AnswersAlike env e e'
  assignments : ∀ env tenant user,
    (Administration.assignments tenant user true).AnswersAlike env e e'
  deleteRole : ∀ env tenant key actor,
    (Administration.deleteRole tenant key actor).AnswersAlike env e e'
  assignRole : ∀ env tenant d, (Administration.assignRole tenant d).AnswersAlike env e e'

/-- What has lapsed by a time is not missed from then on. -/
theorem Engine.sameInForce_expired {e : Engine} (selected : AssignmentRow → Bool)
    {earlier : Instant} (hle : earlier ≤ e.clock) : e.SameInForce (e.expired selected earlier) where
  evaluate env tenant user permission scope :=
    Evaluation.answersAlike_evaluate env selected hle tenant user scope permission
  evaluateBatch env tenant user permissions scope :=
    Evaluation.answersAlike_evaluateBatch env selected hle tenant user scope permissions
  effective env tenant user scope :=
    Evaluation.answersAlike_effective env selected hle tenant user scope
  generate env tenant user _ h := Generation.answersAlike_generate env selected hle tenant user h
  assignments env tenant user :=
    Administration.answersAlike_assignments env selected hle tenant user
  deleteRole env tenant key actor :=
    Administration.answersAlike_deleteRole env selected hle tenant key actor
  assignRole env tenant d := Administration.answersAlike_assignRole env selected hle tenant d

/-! ### The pass -/

/-- Is it a row of a tenant that is recorded as active although its record is not effective? -/
def AssignmentRow.isOverdue (tenant : Given) (now : Instant) (r : AssignmentRow) : Bool :=
  some r.tenant == tenant && r.isActive && !r.isEffective now

theorem AssignmentRow.isOverdue_eq (tenant : Given) (now : Instant) (r : AssignmentRow) :
    r.isOverdue tenant now = (some r.tenant == tenant && r.isLapsed now) := by
  rw [isOverdue, isLapsed_eq, Bool.and_assoc]

namespace Maintenance

variable {env : Environment} {tenant : Given}

theorem outcome_expireAssignments (ht : env.settings.checkTenant tenant = .ok ()) (e : Engine)
    (now : Instant) :
    (expireAssignments tenant (some (.utc now))).outcome env e =
      (.ok (e.store.assignments.countP (·.isOverdue tenant now)),
        e.expired (fun r => some r.tenant == tenant) now) := by
  simp only [expireAssignments, timeOf, AccessStore.expireAssignments, outcome_bind, outcome_pure,
    andThen_ok, outcome_requireTenant, ht, outcome_store, outcome_write,
    AssignmentRow.isOverdue_eq]
  rfl

theorem settle_eq_ite (tenant : Given) (now : Instant) (r : AssignmentRow) :
    Store.settle (fun r => some r.tenant == tenant) now r =
      if r.isOverdue tenant now then r.expire now else r := by
  rw [Store.settle, AssignmentRow.isOverdue_eq]

/-- What is recorded once is not overdue any more. -/
theorem not_isOverdue_settle (tenant : Given) (now : Instant) (r : AssignmentRow) :
    (Store.settle (fun r => some r.tenant == tenant) now r).isOverdue tenant now = false := by
  rw [settle_eq_ite]
  split
  · simp [AssignmentRow.isOverdue, AssignmentRow.isActive, AssignmentRow.expire,
      AssignmentStatus.text]
  · next h => exact Bool.eq_false_iff.2 h

theorem outcome_expireAssignments_again (ht : env.settings.checkTenant tenant = .ok ())
    (e : Engine) (now : Instant) :
    (expireAssignments tenant (some (.utc now))).outcome env
        (e.expired (fun r => some r.tenant == tenant) now) =
      (.ok 0, e.expired (fun r => some r.tenant == tenant) now) := by
  have hnone : ((e.expired (fun r => some r.tenant == tenant) now).store.assignments.countP
      (·.isOverdue tenant now)) = 0 := by
    rw [List.countP_eq_zero]
    intro r hr
    obtain ⟨q, -, rfl⟩ := List.mem_map.1 hr
    exact Bool.eq_false_iff.1 (not_isOverdue_settle tenant now q)
  have hsame : ((e.expired (fun r => some r.tenant == tenant) now).expired
      (fun r => some r.tenant == tenant) now).store.assignments =
        (e.expired (fun r => some r.tenant == tenant) now).store.assignments := by
    simp only [Engine.expired, Store.assignments_expireWhere, List.map_map]
    refine List.map_congr_left fun r _ => ?_
    have hsettled := Bool.eq_false_iff.1 (not_isOverdue_settle tenant now r)
    rw [Function.comp, settle_eq_ite, if_neg hsettled]
  rw [outcome_expireAssignments ht, hnone]
  simp only [Engine.expired, Store.expireWhere] at hsame ⊢
  rw [hsame]

/-- All tests for an assignment in force agree, and recording expiry is not seen. What a user has in
force, what is found before a grant, and what a role has in force, which is counted before it goes,
are the rows whose records are effective. The pass records as expired exactly the tenant's rows that
are recorded as active and are not effective, counts them, and changes nothing else; a second one
finds nothing; and from the time of the pass on nobody who asks for what is in force has another
answer than without it. -/
theorem expire_pass_is_invisible :
    (∀ (s : Store) (tenant user role scope : Given) (now : Instant),
      s.liveAssignmentsOf tenant user now =
        (s.assignmentsOf tenant user).filter (·.isEffective now) ∧
      s.liveAssignment? tenant user role scope now = s.assignments.find? (fun r =>
        r.hasTriple tenant user role scope && r.isEffective now) ∧
      s.liveAssignmentsOfRole tenant role now = (s.assignments.filter fun r =>
        some r.tenant == tenant && some r.roleKey == role && r.isEffective now).mergeSort
          AssignmentRow.le ∧
      s.countLive tenant role now = (s.assignments.filter fun r =>
        some r.tenant == tenant && some r.roleKey == role && r.isEffective now).length) ∧
    ∀ (env : Environment) (e : Engine) (tenant : Given) (now : Instant),
      env.settings.checkTenant tenant = .ok () →
        ∃ e', (expireAssignments tenant (some (.utc now))).outcome env e =
            (.ok (e.store.assignments.countP (·.isOverdue tenant now)), e') ∧
          e' = { e with
            store := { e.store with
              assignments := e.store.assignments.map fun r =>
                if r.isOverdue tenant now then
                  { r with
                    status := AssignmentStatus.expired.text
                    updatedBy := some "system"
                    updatedAt := now }
                else r } } ∧
          (expireAssignments tenant (some (.utc now))).outcome env e' = (.ok 0, e') ∧
          ∀ later, now ≤ later →
            { e with clock := later }.SameInForce { e' with clock := later } := by
  refine ⟨fun s tenant user role scope now => ⟨?_, ?_, ?_, ?_⟩, fun env e tenant now ht => ?_⟩
  · simp only [Store.liveAssignmentsOf, AssignmentRow.isLive_eq_isEffective]
  · simp only [Store.liveAssignment?, AssignmentRow.isLive_eq_isEffective]
  · simp only [Store.liveAssignmentsOfRole, AssignmentRow.isLive_eq_isEffective]
  · simp only [Store.countLive_eq_countP, AssignmentRow.isLive_eq_isEffective,
      List.countP_eq_length_filter]
  · refine ⟨_, outcome_expireAssignments ht e now, ?_, outcome_expireAssignments_again ht e now,
      fun later hle => ?_⟩
    · simp only [Engine.expired, Store.expireWhere, ← AssignmentRow.isOverdue_eq]
      rfl
    · exact Engine.sameInForce_expired (e := { e with clock := later }) _ hle

/-- The loan for a minute is recorded as expired at its end, once, and is as little in force for
whoever grants it again as it was before. -/
theorem loan_is_recorded_once :
    ∃ e', (expireAssignments (some "acme")
          (some (.utc ⟨60 * Instant.microsPerSecond⟩))).outcome Environment.plain
          Engine.fansLent = (.ok 1, e') ∧
      e'.store.assignments = [Engine.fansLoan.expire ⟨60 * Instant.microsPerSecond⟩] ∧
      (expireAssignments (some "acme")
          (some (.utc ⟨60 * Instant.microsPerSecond⟩))).outcome Environment.plain e' =
        (.ok 0, e') ∧
      ∀ d, (Administration.assignRole (some "acme") d).AnswersAlike Environment.plain
        { Engine.fansLent with clock := ⟨60 * Instant.microsPerSecond⟩ }
        { e' with clock := ⟨60 * Instant.microsPerSecond⟩ } := by
  obtain ⟨-, hpass⟩ := expire_pass_is_invisible
  obtain ⟨e', hfirst, hrows, hsecond, hsame⟩ := hpass Environment.plain Engine.fansLent
    (some "acme") ⟨60 * Instant.microsPerSecond⟩ rfl
  refine ⟨e', hfirst, by rw [hrows]; rfl, hsecond, fun d => ?_⟩
  exact (hsame _ (Int.le_refl _)).assignRole Environment.plain (some "acme") d

end Maintenance

end Entitlements
