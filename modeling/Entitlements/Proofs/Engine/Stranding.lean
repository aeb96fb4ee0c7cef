import Entitlements.Proofs.Administration.Effects
import Entitlements.Proofs.Engine.Atomicity
import Entitlements.Proofs.Evaluation.Decision

/-!
What the access store keeps although it fails. A write is answered with the row as it stands, so it
reads the row back once it is kept, and two things can be written that this reading does not take:
a state that is none of the known ones, and an expiry that is no instant. The write then fails and
is kept all the same. The expiry does no harm after that, since a row holds it as a reading, but a
row in an unknown state cannot be read by anybody. Every other failure leaves the tables alone, and
as long as no unknown state is recorded, all look-ups of the access store go on to answer.
-/

namespace Entitlements

open Time Call

/-! ### Readable rows -/

namespace Store

/-- A row in a state that nobody knows clashes with no other, so the tables take it. -/
theorem setStatus?_of_unknown (s : Store) (r : AssignmentRow) {text : String}
    (h : AssignmentStatus.ofText? text = none) (actor : Given) (now : Instant) :
    ∃ row, row.Continues r ∧ row.status = text ∧
      s.setStatus? r (some text) actor now = some ({ s with
        assignments := s.assignments.map fun q => if q = r then row else q }, row) := by
  have hinactive : text ≠ AssignmentStatus.active.text := by
    rintro rfl
    cases h
  refine ⟨{ r with status := text, updatedBy := actor, updatedAt := now },
    AssignmentRow.continues_of_status rfl, rfl, ?_⟩
  simp [setStatus?, clashes, AssignmentRow.isActive, hinactive]

/-- Can every assignment be read? There is nothing in the other tables that could not. -/
def IsReadable (s : Store) : Prop := ∀ r ∈ s.assignments, ∃ a, r.record = .ok a

variable {s s' : Store} {tenant : Given} {now : Instant}

theorem IsReadable.of_assignments (h : s.IsReadable) (ha : s'.assignments = s.assignments) :
    s'.IsReadable := by
  rw [IsReadable, ha]
  exact h

theorem IsReadable.expireWhere (h : s.IsReadable) (selected : AssignmentRow → Bool)
    (time : Instant) : (s.expireWhere selected time).IsReadable := by
  intro b hb
  obtain ⟨a, ha, rfl⟩ := List.mem_map.1 hb
  split
  · exact ⟨_, AssignmentRow.record_of_state (AssignmentStatus.ofText?_text .expired)⟩
  · exact h a ha

theorem IsReadable.insertAssignment? (h : s.IsReadable) {id : String} {d : AssignmentDraft}
    {row : AssignmentRow} (hins : s.insertAssignment? id tenant d now = some (s', row)) :
    s'.IsReadable := by
  obtain ⟨⟨-, -, -, -, -, hactive⟩, retired, rfl, -, rfl⟩ := insertAssignment?_eq_some hins
  exact forall_mem_append_singleton (h.expireWhere _ now)
    ⟨_, AssignmentRow.record_of_isActive hactive⟩

theorem IsReadable.setStatus? (h : s.IsReadable) {r row : AssignmentRow} {status actor : Given}
    (hknown : ∀ text, status = some text → (AssignmentStatus.ofText? text).isSome = true)
    (hset : s.setStatus? r status actor now = some (s', row)) : s'.IsReadable := by
  obtain ⟨⟨text, rfl, rfl⟩, rfl⟩ := setStatus?_eq_some hset
  obtain ⟨state, hstate⟩ := Option.isSome_iff_exists.1 (hknown text rfl)
  exact forall_mem_replace h ⟨_, AssignmentRow.record_of_state hstate⟩

end Store

/-! ### Look-ups -/

namespace AccessStore

/-- The look-ups that the access store offers. -/
inductive Look where
  | policy (key : Given)
  | policies (offset limit : Option Int)
  | role (key : Given)
  | roles
  | rolesUsing (policy : Given)
  | assignment (id : Given)
  | assignments (user : Given) (liveOnly : Bool)
  | liveAssignment (user role scope : Given)
  | countLive (role : Given)

namespace Look

def call (tenant : Given) : Look → Call Unit
  | policy key => discard (policy? tenant key)
  | policies offset limit => discard (AccessStore.policies tenant offset limit)
  | role key => discard (role? tenant key)
  | roles => discard (AccessStore.roles tenant)
  | rolesUsing key => discard (AccessStore.rolesUsing tenant key)
  | assignment id => discard (assignment? tenant id)
  | assignments user liveOnly => discard (AccessStore.assignments tenant user liveOnly)
  | liveAssignment user key scope => discard (liveAssignment? tenant user key scope)
  | countLive key => discard (AccessStore.countLive tenant key)

/-- Are the numbers of a page ones that a table can take? -/
def IsInRange : Look → Prop
  | policies offset limit => (offset.toList ++ limit.toList).all isTableInteger = true
  | _ => True

end Look

variable {env : Environment} {e : Engine} {tenant : Given}

/-- Of rows that can be read, a walk reads all. -/
theorem exists_mapM_record {rows : List AssignmentRow} (h : ∀ r ∈ rows, ∃ a, r.record = .ok a) :
    ∃ as, rows.mapM AssignmentRow.record = .ok as := by
  induction rows with
  | nil => exact ⟨[], rfl⟩
  | cons r rows ih =>
    obtain ⟨a, ha⟩ := h r List.mem_cons_self
    obtain ⟨as, has⟩ := ih fun q hq => h q (List.mem_cons_of_mem _ hq)
    exact ⟨a :: as, by rw [List.mapM_cons, ha, ok_bind, has, ok_bind, pure_eq_ok]⟩

/-- A row that is found is one of the table's. -/
theorem exists_option_mapM_record (h : e.store.IsReadable) (row? : Option AssignmentRow)
    (hrow : ∀ r, row? = some r → r ∈ e.store.assignments) :
    ∃ a?, row?.mapM AssignmentRow.record = .ok a? := by
  cases row? with
  | none => exact ⟨none, rfl⟩
  | some r =>
    obtain ⟨a, ha⟩ := h r (hrow r rfl)
    exact ⟨some a, by rw [Option.mapM_some, ha]; rfl⟩

theorem Look.outcome_call (h : e.store.IsReadable)
    (htenant : env.settings.checkTenant tenant = .ok ()) (look : Look) (hrange : look.IsInRange) :
    (look.call tenant).outcome env e = (.ok (), e) := by
  cases look with
  | policy key => simp [call, outcome_policy?, htenant, Except.map]
  | policies offset limit =>
    rw [IsInRange] at hrange
    simp [call, AccessStore.policies, window, htenant, hrange]
  | role key => simp [call, outcome_role?, htenant, Except.map]
  | roles => simp [call, AccessStore.roles, htenant]
  | rolesUsing key => simp [call, outcome_rolesUsing, htenant, Except.map]
  | assignment id =>
    obtain ⟨a?, ha⟩ := exists_option_mapM_record h (e.store.assignmentRow? tenant id)
      fun r hr => (Store.of_assignmentRow? hr).1
    simp [call, outcome_assignment?, htenant, Except.bind, ha]
  | assignments user liveOnly =>
    have hlook (r : AssignmentRow) := outcome_ofExcept env e r.record
    have hall : ∀ r ∈ e.store.assignmentsOf tenant user, ∃ a, r.record = .ok a :=
      fun r hr => h r (Store.mem_assignmentsOf.1 hr).1
    cases liveOnly with
    | false =>
      obtain ⟨as, has⟩ := exists_mapM_record hall
      simp [call, AccessStore.assignments, htenant, outcome_mapM hlook, has]
    | true =>
      have hlive : ∀ r ∈ e.store.liveAssignmentsOf tenant user e.clock, ∃ a, r.record = .ok a :=
        fun r hr => hall r (List.mem_filter.1 hr).1
      obtain ⟨as, has⟩ := exists_mapM_record hlive
      simp [call, AccessStore.assignments, htenant, outcome_mapM hlook, has]
  | liveAssignment user key scope =>
    obtain ⟨a?, ha⟩ := exists_option_mapM_record h
      (e.store.liveAssignment? tenant user key scope e.clock)
      fun r hr => List.mem_of_find?_eq_some hr
    simp [call, outcome_liveAssignment?, htenant, Except.bind, ha]
  | countLive key => simp [call, outcome_countLive, htenant, Except.map]

/-! ### Stranded writes -/

/-- A grant that strands has added its row, and fails. -/
theorem StrandsGrant.outcome {d : AssignmentDraft} {grantedAt : Option Instant}
    (h : StrandsGrant env e tenant d grantedAt) :
    ∃ s, (createAssignment tenant d grantedAt).outcome env e =
        (.error .outOfRange, { e with store := s, ids := e.ids.advance .assignment }) ∧
      s.assignments.length = e.store.assignments.length + 1 := by
  obtain ⟨htenant, now, rfl, hins, stamp, hexp, hlimit⟩ := h
  obtain ⟨⟨s, row⟩, hins⟩ := Option.isSome_iff_exists.1 hins
  refine ⟨s, ?_, ?_⟩
  · simp [createAssignment, htenant, hins, hexp, Stamp.instant, hlimit]
  · obtain ⟨-, retired, rfl, -, rfl⟩ := Store.insertAssignment?_eq_some hins
    simp [Store.expireWhere]

/-- A state that strands is recorded in the row of the assignment, and the call fails. -/
theorem StrandsState.outcome {id : Given} {text : String}
    (h : StrandsState env e tenant id (some text)) (actor : Given) :
    ∃ r row : AssignmentRow, e.store.assignmentRow? tenant id = some r ∧
      row.Continues r ∧ row.status = text ∧ AssignmentStatus.ofText? text = none ∧
      (setStatus tenant id (some text) actor).outcome env e =
        (.error (.unknownStatus (.str text)), { e with store := { e.store with
          assignments := e.store.assignments.map fun q => if q = r then row else q } }) := by
  obtain ⟨htenant, hfound, _, ⟨⟩, hunknown⟩ := h
  obtain ⟨r, hr⟩ := Option.isSome_iff_exists.1 hfound
  obtain ⟨row, hrow, rfl, hset⟩ := e.store.setStatus?_of_unknown r hunknown actor e.clock
  refine ⟨r, row, hr, hrow, rfl, hunknown, ?_⟩
  simp [setStatus, htenant, hr, hset, AssignmentRow.record_of_unknown hunknown]

/-- From then on, whoever asks for the assignment is refused. -/
theorem StrandsState.unreadable {id : Given} {text : String}
    (h : StrandsState env e tenant id (some text)) (actor : Given) :
    (assignment? tenant id).outcome env ((setStatus tenant id (some text) actor).after env e) =
      (.error (.unknownStatus (.str text)),
        (setStatus tenant id (some text) actor).after env e) := by
  obtain ⟨r, row, hr, hrow, rfl, hunknown, houtcome⟩ := h.outcome actor
  have hfound := List.find?_some hr
  have hthere : (some row.id == id && some row.tenant == tenant) = true := by
    rw [hrow.id, hrow.tenant]
    exact hfound
  have hreplaced := find?_replace_of_find? hr hthere
  rw [after_eq_of_outcome houtcome, outcome_assignment?, h.1, Store.assignmentRow?, hreplaced,
    Except.bind, Option.mapM_some, AssignmentRow.record_of_unknown hunknown, map_error]

/-! ### Writes -/

namespace Write

/-- Is a write kept although it fails? -/
def Strands (env : Environment) (e : Engine) : Write → Prop
  | createAssignment tenant draft grantedAt => StrandsGrant env e tenant draft grantedAt
  | setStatus tenant id status _ => StrandsState env e tenant id status
  | _ => False

/-- Does a write make a row unreadable? -/
def Spoils (env : Environment) (e : Engine) : Write → Prop
  | setStatus tenant id status _ => StrandsState env e tenant id status
  | _ => False

theorem failsClean (w : Write) (h : ¬w.Strands env e) : w.call.FailsClean env e := by
  cases w with
  | savePolicy tenant draft actor => exact .discard (savePolicy_failsClean env e tenant actor draft)
  | removePolicy tenant key => exact .discard (removePolicy_failsClean env e tenant key)
  | saveRole tenant draft actor => exact .discard (saveRole_failsClean env e tenant actor draft)
  | removeRole tenant key => exact .discard (removeRole_failsClean env e tenant key)
  | createAssignment tenant draft grantedAt => exact .discard (createAssignment_failsClean h)
  | setStatus tenant id status actor => exact .discard (setStatus_failsClean actor h)
  | expireAssignments tenant now => exact .discard (expireAssignments_failsClean env e tenant now)

/-- On rows that can be read, a write that strands does change them. -/
theorem Strands.outcome (hreadable : e.store.IsReadable) {w : Write} (h : w.Strands env e) :
    ∃ failure e', w.call.outcome env e = (.error failure, e') ∧ e'.store ≠ e.store := by
  cases w with
  | createAssignment tenant draft grantedAt =>
    obtain ⟨s, houtcome, hlonger⟩ := StrandsGrant.outcome h
    refine ⟨_, _, by rw [call, outcome_discard, houtcome, andThen_error], ?_⟩
    rintro rfl
    omega
  | setStatus tenant id status actor =>
    obtain ⟨text, rfl, -⟩ := h.2.2
    obtain ⟨r, row, hr, -, rfl, hunknown, houtcome⟩ := StrandsState.outcome h actor
    refine ⟨_, _, by rw [call, outcome_discard, houtcome, andThen_error], fun hsame => ?_⟩
    -- The row that was found is gone, since it was in a state that is known.
    have hmem := (Store.of_assignmentRow? hr).1
    have hrow : row ∈ e.store.assignments := by
      rw [← congrArg Store.assignments hsame]
      exact List.mem_map.2 ⟨r, hmem, if_pos rfl⟩
    obtain ⟨a, ha⟩ := hreadable row hrow
    rw [AssignmentRow.record_of_unknown hunknown] at ha
    cases ha
  | savePolicy | removePolicy | saveRole | removeRole | expireAssignments => exact h.elim

end Write

/-! ### Rows that stay readable -/

/-- A call that asks for a tenant first. -/
theorem isReadable_of_requireTenant (h : e.store.IsReadable) {f : Unit → Call α}
    (hf : env.settings.checkTenant tenant = .ok () → ((f ()).after env e).store.IsReadable) :
    ((requireTenant tenant >>= f).after env e).store.IsReadable :=
  after_bind_of_outcome (P := fun e => e.store.IsReadable) (outcome_requireTenant env e tenant) h
    fun _ htenant => hf htenant

/-- A draft that is saved in another table. -/
theorem isReadable_of_saved (h : e.store.IsReadable) {saved? : Option (Store × α)}
    (hsaved : ∀ s answer, saved? = some (s, answer) → s.assignments = e.store.assignments) :
    ((do
      let (s, answer) ← orFail .constraint saved?
      write s
      return answer : Call α).after env e).store.IsReadable :=
  after_bind_of_outcome (P := fun e => e.store.IsReadable) (outcome_orFail env e _ _) h
    fun saved hs => h.of_assignments (hsaved saved.1 saved.2 (eq_some_of_elim hs))

theorem isReadable_savePolicy (h : e.store.IsReadable) (d : PolicyDraft) (actor : Given) :
    ((savePolicy tenant d actor).after env e).store.IsReadable := by
  refine isReadable_of_requireTenant h fun _ => ?_
  rw [after_bind_of_ok (outcome_store env e), after_bind_of_ok (outcome_now env e)]
  rcases e.store.policyRow? tenant d.key with _ | row
  · dsimp only
    rw [after_bind_of_ok (outcome_freshId env e .policy)]
    refine isReadable_of_saved (e := { e with ids := e.ids.advance .policy }) h
      fun s policy hins => ?_
    obtain ⟨row, -, -, -, rfl⟩ := Store.insertPolicy?_eq_some hins
    rfl
  · refine isReadable_of_saved h fun s policy hupd => ?_
    obtain ⟨row', -, -, -, -, rfl⟩ := Store.updatePolicy?_eq_some hupd
    rfl

theorem isReadable_saveRole (h : e.store.IsReadable) (d : RoleDraft) (actor : Given) :
    ((saveRole tenant d actor).after env e).store.IsReadable := by
  refine isReadable_of_requireTenant h fun _ => ?_
  rw [after_bind_of_ok (outcome_store env e), after_bind_of_ok (outcome_now env e)]
  rcases e.store.roleRow? tenant d.key with _ | row
  · dsimp only
    rw [after_bind_of_ok (outcome_freshId env e .role)]
    refine isReadable_of_saved (e := { e with ids := e.ids.advance .role }) h
      fun s role hins => ?_
    obtain ⟨row, -, -, rfl⟩ := Store.insertRole?_eq_some hins
    rfl
  · refine isReadable_of_saved h fun s role hupd => ?_
    obtain ⟨row', -, -, -, rfl⟩ := Store.updateRole?_eq_some hupd
    rfl

theorem isReadable_createAssignment (h : e.store.IsReadable) (d : AssignmentDraft)
    (grantedAt : Option Instant) :
    ((createAssignment tenant d grantedAt).after env e).store.IsReadable := by
  cases grantedAt with
  | none => exact isReadable_of_requireTenant h fun _ => h
  | some now =>
    rcases after_createAssignment env e tenant d now with
      hsame | hspent | ⟨s, row, hins, hgranted⟩
    · rw [hsame]
      exact h
    · rw [hspent]
      exact h
    · rw [hgranted]
      exact h.insertAssignment? hins

theorem isReadable_setStatus (h : e.store.IsReadable) {id status : Given}
    (hknown : ¬StrandsState env e tenant id status) (actor : Given) :
    ((setStatus tenant id status actor).after env e).store.IsReadable := by
  refine isReadable_of_requireTenant h fun htenant => ?_
  rw [after_bind_of_ok (outcome_store env e)]
  rcases hrow : e.store.assignmentRow? tenant id with _ | row
  · exact h
  · dsimp only
    rw [after_bind_of_ok (outcome_now env e)]
    refine after_bind_of_outcome (P := fun e => e.store.IsReadable) (outcome_orFail env e _ _) h
      fun saved hsaved => ?_
    have hkept : saved.1.IsReadable := by
      refine h.setStatus? (fun text htext => ?_) (eq_some_of_elim hsaved)
      rw [Option.isSome_iff_ne_none]
      exact fun hunknown => hknown ⟨htenant, by rw [hrow]; rfl, text, htext, hunknown⟩
    rw [after_bind_of_ok (outcome_write env e _)]
    exact after_bind_of_outcome (P := fun e => e.store.IsReadable)
      (outcome_ofExcept env _ saved.2.record) hkept fun _ _ => hkept

/-- A write that records no unknown state leaves nothing that could not be read. -/
theorem Write.isReadable_after (h : e.store.IsReadable) (w : Write) (hw : ¬w.Spoils env e) :
    (w.call.after env e).store.IsReadable := by
  cases w with
  | savePolicy tenant draft actor =>
    rw [call, after_discard]
    exact isReadable_savePolicy h draft actor
  | removePolicy tenant key =>
    rw [call, after_discard]
    exact isReadable_of_requireTenant h fun _ => h
  | saveRole tenant draft actor =>
    rw [call, after_discard]
    exact isReadable_saveRole h draft actor
  | removeRole tenant key =>
    rw [call, after_discard]
    exact isReadable_of_requireTenant h fun _ => h
  | createAssignment tenant draft grantedAt =>
    rw [call, after_discard]
    exact isReadable_createAssignment h draft grantedAt
  | setStatus tenant id status actor =>
    rw [call, after_discard]
    exact isReadable_setStatus h hw actor
  | expireAssignments tenant now =>
    rw [call, after_discard]
    exact isReadable_of_requireTenant h fun _ => h.expireWhere _ now

/-- Along a course of writes, none of which records an unknown state, rows stay readable. -/
theorem isReadable_of_course {start : Engine} (hstart : start.store.IsReadable)
    (h : Course (fun env e request => ∃ w : Write, request = .write w ∧ ¬w.Spoils env e) start e) :
    e.store.IsReadable := by
  induction h with
  | nil => exact hstart
  | step env request _ hadmitted ih =>
    obtain ⟨w, rfl, hw⟩ := hadmitted
    exact w.isReadable_after ih hw

/-- Of rows that can all be read, and after any course of writes that records no unknown state, the
writes that fail and yet change something are those that strand, and every look-up in the name of a
tenant has an answer. An unknown state is recorded if it is asked for, by a call that fails, and
nobody can look at the assignment after that. -/
theorem stranded_writes {start : Engine} (hstart : start.store.IsReadable)
    (hcourse : Course (fun env e request => ∃ w : Write, request = .write w ∧ ¬w.Spoils env e)
      start e) (env : Environment) :
    (∀ w : Write, (∃ failure e', w.call.outcome env e = (.error failure, e') ∧
      e'.store ≠ e.store) ↔ w.Strands env e) ∧
    (∀ (tenant : String) (look : Look), tenant ≠ "" → look.IsInRange →
      (look.call (some tenant)).outcome env e = (.ok (), e)) ∧
    ∀ tenant id text actor, StrandsState env e tenant id (some text) →
      (assignment? tenant id).outcome env ((setStatus tenant id (some text) actor).after env e) =
        (.error (.unknownStatus (.str text)),
          (setStatus tenant id (some text) actor).after env e) := by
  have hreadable := isReadable_of_course hstart hcourse
  refine ⟨fun w => ⟨?_, fun h => h.outcome hreadable⟩, fun tenant look htenant hrange => ?_,
    fun tenant id text actor h => h.unreadable actor⟩
  · rintro ⟨failure, e', hfailed, hchanged⟩
    by_contra h
    obtain ⟨ids, rfl⟩ := w.failsClean h failure e' hfailed
    exact hchanged rfl
  · exact look.outcome_call hreadable (env.settings.checkTenant_some htenant) hrange

/-- A grant whose expiry, read in a zone two hours ahead, lies before the first instant. -/
def Write.grantBeforeTime : Write :=
  .createAssignment (some "acme")
    { user := some "bob", role := some "operator", scope := some "tenant:*"
      grantedBy := some "admin", expiresAt := some ⟨⟨0⟩, some 7200⟩, reason := none } (some ⟨0⟩)

/-- The engine after this grant, which fails and is kept. -/
def grantedBeforeTime : Engine :=
  Write.grantBeforeTime.call.after Environment.plain Engine.fansAllowed

theorem stranded_of_grantedBeforeTime :
    grantedBeforeTime.store ≠ Engine.fansAllowed.store ∧
    ((Look.assignments (some "bob") false).call (some "acme")).outcome Environment.plain
      grantedBeforeTime = (.ok (), grantedBeforeTime) ∧
    (∃ failure e', (Write.setStatus (some "acme") (some "ra-0001") (some "bogus") none).call.outcome
      Environment.plain grantedBeforeTime = (.error failure, e') ∧
        e'.store ≠ grantedBeforeTime.store) ∧
    (assignment? (some "acme") (some "ra-0001")).outcome Environment.plain
      ((setStatus (some "acme") (some "ra-0001") (some "bogus") none).after Environment.plain
        grantedBeforeTime) =
      (.error (.unknownStatus (.str "bogus")),
        (setStatus (some "acme") (some "ra-0001") (some "bogus") none).after Environment.plain
          grantedBeforeTime) := by
  have hreadable : Engine.fansAllowed.store.IsReadable := by
    intro r hr
    obtain rfl := List.mem_singleton.1 hr
    exact ⟨_, rfl⟩
  obtain ⟨hstranded, -, -⟩ := stranded_writes hreadable .nil Environment.plain
  have hgrant : Write.grantBeforeTime.Strands Environment.plain Engine.fansAllowed :=
    ⟨rfl, ⟨0⟩, rfl, rfl, _, rfl, rfl⟩
  obtain ⟨failure, e', hfailed, hchanged⟩ := (hstranded _).2 hgrant
  obtain ⟨hwrites, hlooks, hlost⟩ := stranded_writes hreadable
    (.step Environment.plain (.write Write.grantBeforeTime) .nil ⟨_, rfl, id⟩) Environment.plain
  have hstate : StrandsState Environment.plain grantedBeforeTime (some "acme") (some "ra-0001")
      (some "bogus") := ⟨rfl, rfl, "bogus", rfl, rfl⟩
  refine ⟨?_, hlooks "acme" _ (by decide) trivial, (hwrites _).2 hstate, hlost _ _ _ none hstate⟩
  rw [grantedBeforeTime, after_eq_of_outcome hfailed]
  exact hchanged

end AccessStore

end Entitlements
