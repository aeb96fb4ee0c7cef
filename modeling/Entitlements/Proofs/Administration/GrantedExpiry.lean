import Entitlements.Proofs.Administration.Lifecycle
import Entitlements.Proofs.Engine.Atomicity

/-!
When an assignment ends. Its limit is given as a stamp, the reading of a clock with an offset, and
takes two ways from there. The check that it lies ahead and the answer of the grant go by the
instant that is meant, but the row keeps the reading, and every later look goes by the row. For a
stamp in UTC both are the same. Otherwise they lie as far apart as the offset says: an assignment
lasts longer than its answer shows if it was granted by a clock east of UTC, and shorter west of it.
-/

namespace Entitlements

open Time Call

/-! ### Stamps -/

namespace Time.Stamp

variable {s : Stamp} {i : Instant}

theorem micros_of_instant? (h : s.instant? = some i) :
    s.reading.micros = i.micros + s.offset.getD 0 * Instant.microsPerSecond := by
  simp only [instant?, Instant.add?, Option.ite_none_right_eq_some, Option.some.injEq] at h
  rw [← h.2, Instant.microsPerSecond]
  dsimp only
  omega

theorem reading_eq_iff (h : s.instant? = some i) : s.reading = i ↔ s.offset.getD 0 = 0 := by
  have hmicros := micros_of_instant? h
  rcases s with ⟨⟨reading⟩, offset⟩
  rcases i with ⟨instant⟩
  simp only [Instant.microsPerSecond, Instant.mk.injEq] at hmicros ⊢
  omega

end Time.Stamp

/-! ### One row of a table -/

namespace Store

variable {s : Store} {row : AssignmentRow} {rows : List AssignmentRow}

theorem assignmentRow?_of_mem (hids : (s.assignments.map (·.id)).Nodup)
    (hrow : row ∈ s.assignments) :
    s.assignmentRow? (some row.tenant) (some row.id) = some row := by
  have hsome : (s.assignmentRow? (some row.tenant) (some row.id)).isSome = true :=
    List.find?_isSome.2 ⟨row, hrow, by simp⟩
  obtain ⟨r, hr⟩ := Option.isSome_iff_exists.1 hsome
  obtain ⟨hmem, hid, -⟩ := of_assignmentRow? hr
  rw [hr, List.inj_on_of_nodup_map hids hmem hrow (Option.some.inj hid)]

/-- A row counts for itself, beside those with other identifiers. -/
theorem countP_eq_of_mem (hids : (rows.map (·.id)).Nodup) (hrow : row ∈ rows)
    (p : AssignmentRow → Bool) :
    rows.countP p = (rows.filter (·.id != row.id)).countP p + if p row then 1 else 0 := by
  obtain ⟨before, behind, rfl⟩ := List.append_of_mem hrow
  have hothers : ((before ++ row :: behind).filter (·.id != row.id)) = before ++ behind := by
    rw [List.map_append, List.map_cons, List.nodup_middle, List.nodup_cons, ← List.map_append]
      at hids
    have hkept : ∀ r ∈ before ++ behind, (r.id != row.id) = true := by
      intro r hr
      rw [bne_iff_ne]
      exact fun hid => hids.1 (List.mem_map.2 ⟨r, hr, hid⟩)
    rw [List.filter_append, List.filter_cons_of_neg (by simp), ← List.filter_append,
      List.filter_eq_self.2 hkept]
  rw [hothers, List.countP_append, List.countP_append, List.countP_cons]
  omega

theorem expiresAt_of_inserted {s' : Store} {id : String} {tenant : Given} {d : AssignmentDraft}
    {now : Instant} (h : s.insertAssignment? id tenant d now = some (s', row)) :
    row.expiresAt = d.expiresAt.map (·.reading) := by
  simp only [insertAssignment?, Option.bind_eq_bind, Option.bind_eq_some_iff] at h
  obtain ⟨_, -, _, -, _, -, _, -, _, -, h⟩ := h
  split at h
  · cases h
  · cases h
    rfl

end Store

namespace AssignmentRow

variable {a b : AssignmentRow} {now : Instant}

theorem id_of_record {r : AssignmentRow} {shown : Assignment} (h : r.record = .ok shown) :
    shown.id = r.id := by
  rw [AssignmentRow.record] at h
  rcases hstate : AssignmentStatus.parse r.status with failure | state
  · rw [hstate] at h
    cases h
  · rw [hstate] at h
    cases h
    rfl

/-- What has become of a row that was active can be read. -/
theorem Becomes.record (h : a.Becomes b now) (ha : a.isActive = true) :
    ∃ state, b.record = .ok (b.withStatus state) ∧ b.status = state.text := by
  have hstate : ∃ state : AssignmentStatus, b.status = state.text := by
    rcases h.status with hsame | ⟨-, hrevoked | ⟨hexpired, -⟩⟩
    · exact ⟨.active, by rw [hsame]; simpa [AssignmentRow.isActive] using ha⟩
    · exact ⟨.revoked, hrevoked⟩
    · exact ⟨.expired, hexpired⟩
  obtain ⟨state, hstate⟩ := hstate
  refine ⟨state, record_of_state ?_, hstate⟩
  rw [hstate, AssignmentStatus.ofText?_text]

/-- Unless it is revoked, a row that was active is in force until its limit and not after. -/
theorem Becomes.isLive_eq (h : a.Becomes b now) (ha : a.isActive = true)
    (hrevoked : b.status ≠ AssignmentStatus.revoked.text) :
    b.isLive now = isAhead b.expiresAt now := by
  rcases h.status with hsame | ⟨-, hrevoked' | ⟨hexpired, t, hlimit, hpast⟩⟩
  · have hb : b.isActive = true := by rwa [AssignmentRow.isActive, hsame]
    rw [isLive, hb, Bool.true_and]
  · exact (hrevoked hrevoked').elim
  · -- The expiry was recorded after it had come, so both sides are false.
    have hb : b.isActive = false := by rw [AssignmentRow.isActive, hexpired]; rfl
    rw [isLive, hb, Bool.false_and, h.expiresAt, hlimit, isAhead]
    exact (decide_eq_false (Instant.not_lt.2 hpast)).symm

end AssignmentRow

/-! ### A grant that succeeds -/

namespace Call

variable {env : Environment} {e e' : Engine} {b : β}

/-- A call with an answer has got over each step that only looks. -/
theorem ok_of_look {x : Call α} {f : α → Call β} {answer : Except Failure α}
    (hx : x.outcome env e = (answer, e)) (h : (x >>= f).outcome env e = (.ok b, e')) :
    ∃ a, answer = .ok a ∧ (f a).outcome env e = (.ok b, e') := by
  rw [outcome_bind, hx] at h
  obtain ⟨a, e₁, hanswer, h⟩ := andThen_eq_ok_iff.1 h
  cases hanswer
  exact ⟨a, rfl, h⟩

/-- And over each check. -/
theorem ok_of_guard {c : Prop} [Decidable c] {failure : Failure} {f : Unit → Call β} {x : Call β}
    (h : (if c then throw failure >>= f else x).outcome env e = (.ok b, e')) :
    ¬c ∧ x.outcome env e = (.ok b, e') := by
  split at h
  · cases h
  · next hc => exact ⟨hc, h⟩

end Call

namespace Administration

variable {env : Environment} {e e₁ : Engine} {tenant : Given} {d : AssignmentDraft}
  {a : Assignment}

theorem of_createAssignment {now : Instant}
    (h : (AccessStore.createAssignment tenant d (some now)).outcome env e = (.ok a, e₁)) :
    ∃ s row, e.store.insertAssignment? (e.ids.next .assignment) tenant d now = some (s, row) ∧
      e₁ = { e with store := s, ids := e.ids.advance .assignment } ∧
      (∀ stamp, d.expiresAt = some stamp → stamp.instant?.isSome = true) ∧
      a = { row.withStatus .active with expiresAt := d.expiresAt.bind Stamp.instant? } := by
  obtain ⟨_, -, h⟩ := ok_of_look (outcome_requireTenant env e tenant) h
  rcases hins : e.store.insertAssignment? (e.ids.next .assignment) tenant d now with _ | ⟨s, row⟩
  · simp [hins] at h
  · refine ⟨s, row, rfl, ?_⟩
    rcases hlimit : d.expiresAt with _ | stamp
    · simp only [hins, hlimit, outcome_bind, outcome_freshId, outcome_store, outcome_orFail,
        outcome_write, andThen_ok, outcome_pure, Option.elim_some, Option.mapM_none] at h
      cases h
      exact ⟨rfl, by simp, rfl⟩
    · rcases hinstant : stamp.instant? with _ | instant
      · simp [hins, hlimit, Stamp.instant, hinstant] at h
      · simp only [hins, hlimit, Stamp.instant, hinstant, outcome_bind, outcome_freshId,
          outcome_store, outcome_orFail, outcome_write, andThen_ok, Option.elim_some,
          Option.mapM_some] at h
        cases h
        exact ⟨rfl, by simp [hinstant], by simp [hinstant]⟩

/-- A call that ends with a write and its follow-up answers what the write does, and leaves the
tables as the write has left them. -/
theorem of_followedUp {x : Call α} {event : α → Event} {stale : Stale} {reason : String}
    {actor : Given} {answer : α}
    (h : (do let a ← x; followUp (event a) stale reason actor; return a).outcome env e =
      (.ok answer, e₁)) :
    ∃ e₂ m, x.outcome env e = (.ok answer, e₂) ∧ e₁ = e₂.withMargin m := by
  rw [outcome_bind] at h
  obtain ⟨a, e₂, hx, h⟩ := andThen_eq_ok_iff.1 h
  obtain ⟨_, hok⟩ := followUp_answers (event a) stale reason actor env e₂
  obtain ⟨m, hm⟩ := followUp_inMargin (event a) stale reason actor env e₂
  rw [outcome_bind, hok, andThen_ok, hm] at h
  cases h
  exact ⟨e₂, m, hx, rfl⟩

/-- What a grant has written and what it answers. -/
theorem of_assignRole (h : (assignRole tenant d).outcome env e = (.ok a, e₁)) :
    ∃ s row, e.store.insertAssignment? (e.ids.next .assignment) tenant d e.clock = some (s, row) ∧
      (∀ stamp, d.expiresAt = some stamp → stamp.instant?.isSome = true) ∧
      a = { row.withStatus .active with expiresAt := d.expiresAt.bind Stamp.instant? } ∧
      ∃ m, e₁ = { e with store := s, ids := e.ids.advance .assignment }.withMargin m := by
  obtain ⟨scope, -, h⟩ := ok_of_look (outcome_ofExcept env e _) h
  obtain ⟨_, hnow, h⟩ := ok_of_look (outcome_now env e) h
  cases hnow
  obtain ⟨_, -, h⟩ := ok_of_look (outcome_ofExcept env e _) h
  obtain ⟨found, -, h⟩ := ok_of_look (outcome_role tenant d.role env e) h
  obtain ⟨_, henv, h⟩ := ok_of_look (outcome_read env e) h
  cases henv
  have hgranted : (do
      let assignment ← AccessStore.createAssignment tenant d (some e.clock)
      followUp
        (assignmentEvent .roleAssigned tenant (some assignment.id) "CREATE" d.grantedBy d.user
          d.role d.scope d.reason)
        (.user d.user) ("Role " ++ d.role.mention ++ " assigned") d.grantedBy
      return assignment).outcome env e = (.ok a, e₁) := by
    dsimp only at h
    split at h
    · obtain ⟨live, -, h⟩ := ok_of_look
        (AccessStore.outcome_liveAssignment? tenant env e d.user d.role d.scope) h
      exact (ok_of_guard h).2
    · exact h
  obtain ⟨e₂, m, hcreated, rfl⟩ := of_followedUp hgranted
  obtain ⟨s, row, hins, rfl, hlimit, hassignment⟩ := of_createAssignment hcreated
  exact ⟨s, row, hins, hlimit, hassignment, m, rfl⟩

end Administration

/-! ### What is seen of it -/

/-- Is an assignment in a state, wherever somebody looks, and does it end at a limit? Unless it is
revoked, it gives rights and keeps its role from being deleted for as long as the limit is ahead. -/
structure Engine.Ends (e : Engine) (tenant : Given) (a : Assignment) (limit : Option Instant)
    (state : AssignmentStatus) : Prop where
  found : ∀ env, env.settings.checkTenant tenant = .ok () →
    (AccessStore.assignment? tenant (some a.id)).outcome env e =
      (.ok (some { a with expiresAt := limit, status := state }), e)
  stored : ∀ env user liveOnly as e',
    (AccessStore.assignments tenant user liveOnly).outcome env e = (.ok as, e') →
      ∀ b ∈ as, b.id = a.id → b = { a with expiresAt := limit, status := state }
  listed : ∀ env user liveOnly as e',
    (Administration.assignments tenant user liveOnly).outcome env e = (.ok as, e') →
      ∀ b ∈ as, b.id = a.id → b = { a with expiresAt := limit, status := state }
  isListed : ∀ env as e',
    (Administration.assignments tenant (some a.userId) false).outcome env e = (.ok as, e') →
      { a with expiresAt := limit, status := state } ∈ as
  inForce : state ≠ .revoked →
    ((∃ r ∈ e.store.liveAssignmentsOf tenant (some a.userId) e.clock, r.id = a.id) ↔
      isAhead limit e.clock = true)
  counted : state ≠ .revoked → e.store.countLive tenant (some a.roleKey) e.clock =
    { e.store with assignments := e.store.assignments.filter (·.id != a.id) }.countLive tenant
      (some a.roleKey) e.clock + if isAhead limit e.clock then 1 else 0

/-- Whatever a walk that succeeds comes by, it answers with. -/
theorem mem_of_mapM {f : α → Except Failure β} {xs : List α} {bs : List β}
    (h : xs.mapM f = .ok bs) {a : α} (ha : a ∈ xs) {b : β} (hb : f a = .ok b) : b ∈ bs := by
  induction xs generalizing bs with
  | nil => cases ha
  | cons x xs ih =>
    rw [List.mapM_cons] at h
    obtain ⟨y, hx, h⟩ := bind_eq_ok_iff.1 h
    obtain ⟨ys, hxs, h⟩ := bind_eq_ok_iff.1 h
    cases h
    rcases List.mem_cons.1 ha with rfl | ha
    · rw [hb] at hx
      cases hx
      exact List.mem_cons_self
    · exact List.mem_cons_of_mem _ (ih hxs ha)

section

variable {env : Environment} {e e' : Engine} {tenant user : Given} {liveOnly : Bool}
  {as : List Assignment}

/-- A list of assignments is read off rows. -/
theorem AccessStore.of_assignments
    (h : (assignments tenant user liveOnly).outcome env e = (.ok as, e')) :
    ∃ rows, rows.mapM AssignmentRow.record = .ok as ∧ (∀ r ∈ rows, r ∈ e.store.assignments) ∧
      (liveOnly = false → rows = e.store.assignmentsOf tenant user) ∧ e' = e := by
  obtain ⟨_, -, h⟩ := ok_of_look (outcome_requireTenant env e tenant) h
  obtain ⟨_, hs, h⟩ := ok_of_look (outcome_store env e) h
  obtain ⟨_, hnow, h⟩ := ok_of_look (outcome_now env e) h
  cases hs
  cases hnow
  dsimp only at h
  have hstep (row : AssignmentRow) :
      (ofExcept row.record : Call Assignment).outcome env e = (row.record, e) :=
    outcome_ofExcept env e row.record
  rw [outcome_mapM hstep] at h
  obtain ⟨hread, rfl⟩ := Prod.mk.inj h
  refine ⟨_, hread, ?_, ?_, rfl⟩
  · intro r hr
    cases liveOnly
    · exact (Store.mem_assignmentsOf.1 hr).1
    · exact (Store.mem_liveAssignmentsOf.1 hr).1
  · rintro rfl
    rfl

theorem Administration.of_assignments
    (h : (assignments tenant user liveOnly).outcome env e = (.ok as, e')) :
    ∃ all, (AccessStore.assignments tenant user liveOnly).outcome env e = (.ok all, e) ∧
      (∀ b ∈ as, b ∈ all) ∧ (liveOnly = false → as = all) := by
  rw [assignments, outcome_bind] at h
  obtain ⟨all, e₁, hall, hshown⟩ := andThen_eq_ok_iff.1 h
  obtain ⟨-, -, -, -, rfl⟩ := AccessStore.of_assignments hall
  refine ⟨all, hall, ?_, ?_⟩
  · intro b hb
    cases liveOnly
    · cases hshown
      exact hb
    · cases hshown
      exact (List.mem_filter.1 hb).1
  · rintro rfl
    cases hshown
    rfl

end

namespace Engine

variable {e : Engine} {granted row : AssignmentRow} {a : Assignment} {limit : Option Instant}

/-- What becomes of a row that was granted is what everybody sees of the assignment. -/
theorem exists_ends (hids : (e.store.assignments.map (·.id)).Nodup)
    (hrow : row ∈ e.store.assignments) (hbecomes : granted.Becomes row e.clock)
    (hactive : granted.isActive = true)
    (ha : { a with expiresAt := limit } = granted.withStatus .active) :
    ∃ state, e.Ends (some granted.tenant) a limit state := by
  obtain ⟨state, hread, hstate⟩ := hbecomes.record hactive
  have hshown : row.withStatus state = { a with expiresAt := limit, status := state } := by
    rw [hbecomes.grant]
    exact congrArg (fun b : Assignment => { b with status := state }) ha.symm
  have hid : row.id = a.id := congrArg Assignment.id hshown
  have huser : row.userId = a.userId := congrArg Assignment.userId hshown
  have hrole : row.roleKey = a.roleKey := congrArg Assignment.roleKey hshown
  have hlimit : row.expiresAt = limit := congrArg Assignment.expiresAt hshown
  have htenant : row.tenant = granted.tenant := by rw [hbecomes.grant]
  rw [hshown] at hread
  have hstored : ∀ env user liveOnly as e',
      (AccessStore.assignments (some granted.tenant) user liveOnly).outcome env e = (.ok as, e') →
        ∀ b ∈ as, b.id = a.id → b = { a with expiresAt := limit, status := state } := by
    intro env user liveOnly as e' h b hb hbid
    obtain ⟨rows, hrows, hsub, -, -⟩ := AccessStore.of_assignments h
    obtain ⟨r, hr, hrecord⟩ := exists_of_mem_mapM hrows hb
    have hrid : r.id = row.id := by rw [← AssignmentRow.id_of_record hrecord, hbid, hid]
    obtain rfl := List.inj_on_of_nodup_map hids (hsub r hr) hrow hrid
    rw [hread] at hrecord
    cases hrecord
    rfl
  have hrevoked (h : state ≠ .revoked) : row.status ≠ AssignmentStatus.revoked.text := by
    rw [hstate]
    cases state <;> simp_all [AssignmentStatus.text]
  refine ⟨state, ?_⟩
  constructor
  case found =>
    intro env hg
    have hfound : e.store.assignmentRow? (some granted.tenant) (some a.id) = some row := by
      rw [← htenant, ← hid]
      exact Store.assignmentRow?_of_mem hids hrow
    rw [AccessStore.outcome_assignment?, hg, hfound]
    simp [Except.bind, hread]
  case stored => exact hstored
  case listed =>
    intro env user liveOnly as e' h b hb
    obtain ⟨all, hall, hsub, -⟩ := Administration.of_assignments h
    exact hstored env user liveOnly all e hall b (hsub b hb)
  case isListed =>
    intro env as e' h
    obtain ⟨all, hall, -, heq⟩ := Administration.of_assignments h
    obtain ⟨rows, hrows, -, hrowsEq, -⟩ := AccessStore.of_assignments hall
    rw [hrowsEq rfl] at hrows
    rw [heq rfl]
    exact mem_of_mapM hrows
      (Store.mem_assignmentsOf.2 ⟨hrow, congrArg some htenant, congrArg some huser⟩) hread
  case inForce =>
    intro h
    have hlive := hbecomes.isLive_eq hactive (hrevoked h)
    rw [hlimit] at hlive
    rw [← hlive]
    constructor
    · rintro ⟨r, hr, hrid⟩
      have hmem := Store.mem_liveAssignmentsOf.1 hr
      obtain rfl := List.inj_on_of_nodup_map hids hmem.1 hrow (by rw [hrid, hid])
      exact AssignmentRow.isLive_iff.2 ⟨hmem.2.active, hmem.2.ahead⟩
    · intro h
      obtain ⟨hactive, hahead⟩ := AssignmentRow.isLive_iff.1 h
      exact ⟨row, Store.mem_liveAssignmentsOf.2
        ⟨hrow, congrArg some htenant, congrArg some huser, hactive, hahead⟩, hid⟩
  case counted =>
    intro h
    have hlive := hbecomes.isLive_eq hactive (hrevoked h)
    rw [hlimit] at hlive
    rw [Store.countLive_eq_countP, Store.countP_eq_of_mem hids hrow, hid, ← hlive, htenant, hrole]
    simp [Store.countLive_eq_countP]

end Engine

/-! ### Along a run -/

namespace Administration

/-- Whatever happens after a grant, the assignment ends at the reading of its limit, while the
answer of the grant has shown the instant. The two agree exactly if the limit was given in UTC. -/
theorem assignment_ends_at_reading {env : Environment} {e e₁ e' : Engine} {tenant : Given}
    {d : AssignmentDraft} {a : Assignment}
    (hkept : AssignmentTable.WellKept e.ids e.store.assignments)
    (h : (assignRole tenant d).outcome env e = (.ok a, e₁))
    (hrest : Course (fun _ e request => request.IsCurrent e) e₁ e') :
    a.expiresAt = d.expiresAt.bind Stamp.instant? ∧
      (∃ state, e'.Ends tenant a (d.expiresAt.map (·.reading)) state) ∧
      ∀ stamp, d.expiresAt = some stamp → ∃ instant, stamp.instant? = some instant ∧
        stamp.reading.micros = instant.micros + stamp.offset.getD 0 * Instant.microsPerSecond ∧
        (stamp.reading = instant ↔ stamp.offset.getD 0 = 0) := by
  obtain ⟨s, row, hins, hinstant, rfl, m, rfl⟩ := of_assignRole h
  obtain ⟨⟨htenant, -, -, -, -, hactive⟩, retired, -, -, hs⟩ :=
    Store.insertAssignment?_eq_some hins
  have hlimit : row.expiresAt = d.expiresAt.map (·.reading) := Store.expiresAt_of_inserted hins
  have hlives := livesOn_of_course hrest
  have hmem : row ∈ s.assignments := by
    rw [hs]
    exact List.mem_append_right _ (List.mem_singleton_self row)
  obtain ⟨b, hb, hbecomes⟩ := hlives.rows row hmem
  have hids := (hlives.table ((Engine.LivesOn.grants hins).table hkept)).distinct
  refine ⟨rfl, ?_, ?_⟩
  · rw [← htenant]
    refine Engine.exists_ends hids hb hbecomes hactive ?_
    rw [← hlimit]
    rfl
  · intro stamp hstamp
    obtain ⟨instant, hi⟩ := Option.isSome_iff_exists.1 (hinstant stamp hstamp)
    exact ⟨instant, hi, Stamp.micros_of_instant? hi, Stamp.reading_eq_iff hi⟩

/-- A loan for a minute, granted by a clock two hours ahead of UTC. -/
def loanFromAbroad : AssignmentDraft :=
  { user := some "alice", role := some "operator", scope := some "tenant:*"
    grantedBy := some "admin"
    expiresAt := some ⟨⟨7260 * Instant.microsPerSecond⟩, some 7200⟩, reason := none }

/-- The engine in which there is a role to lend. -/
def readyToLend : Engine :=
  (Engine.allowFans.take 3).foldl (fun e op => op.call.after Environment.plain e)
    (Engine.start ⟨0⟩ false)

/-- The answer shows that the loan ends after a minute, and after two it is still in force. -/
theorem loan_outlasts_its_answer :
    ∃ a e₁ e', (assignRole (some "acme") loanFromAbroad).outcome Environment.plain readyToLend =
        (.ok a, e₁) ∧
      Course (fun _ e request => request.IsCurrent e) e₁ e' ∧
      a.expiresAt = some ⟨60 * Instant.microsPerSecond⟩ ∧
      e'.clock = ⟨120 * Instant.microsPerSecond⟩ ∧
      ∃ r ∈ e'.store.liveAssignmentsOf (some "acme") (some a.userId) e'.clock, r.id = a.id := by
  have hkept : AssignmentTable.WellKept readyToLend.ids readyToLend.store.assignments :=
    ⟨List.nodup_nil, fun a ha => (List.not_mem_nil ha).elim, List.Pairwise.nil⟩
  obtain ⟨a, e₁, hgranted, hclock⟩ : ∃ a e₁,
      (assignRole (some "acme") loanFromAbroad).outcome Environment.plain readyToLend =
        (.ok a, e₁) ∧ e₁.clock = ⟨0⟩ := ⟨_, _, rfl, rfl⟩
  have hstart : Course (fun _ e request => request.IsCurrent e) e₁ e₁ := .nil
  have hmoved := hstart.step Environment.plain
    (.operation (.moveClock none (120 * Instant.microsPerSecond)))
    (Operation.isTimely_advance e₁ (by decide))
  rw [Request.call, Operation.after_moveClock] at hmoved
  obtain ⟨hanswer, ⟨state, hends⟩, -⟩ := assignment_ends_at_reading hkept hgranted hmoved
  -- Nobody has revoked it, as a look at it shows.
  have hstate : state ≠ .revoked := by
    rintro rfl
    have hfound := congrArg Prod.fst (hends.found Environment.plain rfl)
    cases hgranted
    cases hfound
  refine ⟨a, e₁, _, hgranted, hmoved, hanswer, ?_, (hends.inForce hstate).2 ?_⟩
  · rw [hclock]
    rfl
  · rw [hclock]
    rfl

end Administration

end Entitlements
