import Entitlements.Proofs.Administration.GrantedExpiry

/-!
When a grant is refused. Three tests deal with an assignment that is there already, and no two of
them take the same rows for active. The check before a grant passes over those that have expired;
the write then records the expiry of what has lapsed; and the table refuses a second row that is
recorded as active, expired or not. They fit because a row that is recorded as active is either in
force or has lapsed, also at the moment of its expiry: the check finds the one, the write retires
the other, and nothing is left for the table to refuse.
-/

namespace Entitlements

open Time Call

/-! ### Follow-ups -/

/-- A call that ends with a write and its follow-up answers what the write does. -/
theorem Administration.outcome_followedUp {env : Environment} {e e' : Engine} {x : Call α} {a : α}
    {event : α → Event} {stale : Stale} {reason : String} {actor : Given}
    (hx : x.outcome env e = (.ok a, e')) :
    ∃ m, (do let a ← x; followUp (event a) stale reason actor; return a).outcome env e =
      (.ok a, e'.withMargin m) := by
  obtain ⟨_, hok⟩ := followUp_answers (event a) stale reason actor env e'
  obtain ⟨m, hm⟩ := followUp_inMargin (event a) stale reason actor env e'
  refine ⟨m, ?_⟩
  rw [outcome_bind, hx, andThen_ok, outcome_bind, hok, andThen_ok, hm]
  rfl

/-! ### What is asked for -/

/-- A draft that leaves no text out, with its tenant. -/
structure CompleteDraft where
  tenant : String
  user : String
  role : String
  scope : String
  grantedBy : String
  expiresAt : Option Stamp
  reason : Option String

namespace CompleteDraft

variable (d : CompleteDraft)

def draft : AssignmentDraft :=
  { user := some d.user, role := some d.role, scope := some d.scope, grantedBy := some d.grantedBy
    expiresAt := d.expiresAt, reason := d.reason }

/-- The row that a draft is granted as. -/
def row (id : String) (now : Instant) : AssignmentRow :=
  { tenant := d.tenant, id, userId := d.user, roleKey := d.role, scope := d.scope
    status := AssignmentStatus.active.text, grantedBy := d.grantedBy, grantedAt := now
    expiresAt := d.expiresAt.map (·.reading), reason := d.reason, updatedBy := some d.grantedBy
    updatedAt := now }

/-- Does a row give the user of a draft the same role at the same scope? -/
def isFor (r : AssignmentRow) : Bool :=
  r.hasTriple (some d.tenant) (some d.user) (some d.role) (some d.scope)

/-- The engine once a draft is granted: the lapsed rows of the kind are recorded as expired, every
other row stays as it is, and one row is added. -/
def granted (e : Engine) : Engine :=
  { e with
    store := { e.store with assignments :=
      e.store.assignments.map (Store.settle d.isFor e.clock) ++
        [d.row (e.ids.next .assignment) e.clock] }
    ids := e.ids.advance .assignment }

/-- Is there an assignment in force of what a draft asks for? -/
def IsHeld (s : Store) (now : Instant) : Prop :=
  ∃ r ∈ s.assignments, r.InForce (some d.tenant) (some d.user) now ∧
    r.roleKey = d.role ∧ r.scope = d.scope

/-- Does a draft pass every check but the one for an assignment in force? Its limit, if it has one,
is a time in UTC, written with or without its offset. -/
structure Passes (e : Engine) : Prop where
  tenant : d.tenant ≠ ""
  scope : Scope.isValid d.scope = true
  role : (e.store.role? (some d.tenant) (some d.role)).isSome = true
  limit : ∀ stamp, d.expiresAt = some stamp →
    stamp.offset.getD 0 = 0 ∧ stamp.reading.inRange = true ∧ e.clock < stamp.reading

variable {d} {s : Store} {now : Instant}

/-! ### The check -/

theorem isHeld_iff :
    d.IsHeld s now ↔ ∃ r ∈ s.assignments, d.isFor r = true ∧ r.isLive now = true := by
  refine exists_congr fun r => and_congr_right fun _ => ?_
  rw [AssignmentRow.isLive_iff]
  simp only [isFor, AssignmentRow.hasTriple, Bool.and_eq_true, beq_iff_eq, Option.some.injEq]
  constructor
  · rintro ⟨⟨htenant, huser, hactive, hahead⟩, hrole, hscope⟩
    exact ⟨⟨⟨⟨Option.some.inj htenant, Option.some.inj huser⟩, hrole⟩, hscope⟩, hactive, hahead⟩
  · rintro ⟨⟨⟨⟨htenant, huser⟩, hrole⟩, hscope⟩, hactive, hahead⟩
    exact ⟨⟨congrArg some htenant, congrArg some huser, hactive, hahead⟩, hrole, hscope⟩

theorem isSome_liveAssignment?_iff :
    (s.liveAssignment? (some d.tenant) (some d.user) (some d.role) (some d.scope) now).isSome =
      true ↔ d.IsHeld s now := by
  rw [isHeld_iff, Store.liveAssignment?, List.find?_isSome]
  simp only [isFor, Bool.and_eq_true]

/-! ### The write -/

/-- Once the lapsed rows of the kind are retired, the new one clashes with those in force. -/
theorem clashes_row (id : String) :
    (s.expireWhere d.isFor now).clashes (d.row id now) =
      s.assignments.any fun r => r.isLive now && r.id != id && d.isFor r :=
  Store.clashes_expireWhere _ rfl fun _ => rfl

theorem not_clashes_row (h : ¬d.IsHeld s now) (id : String) :
    (s.expireWhere d.isFor now).clashes (d.row id now) = false := by
  rw [clashes_row, List.any_eq_false]
  intro r hr hclash
  simp only [Bool.and_eq_true] at hclash
  exact h (isHeld_iff.2 ⟨r, hr, hclash.2, hclash.1.1⟩)

/-- The write retires what has lapsed and adds the row. -/
theorem insertAssignment?_draft (h : ¬d.IsHeld s now) (id : String) :
    s.insertAssignment? id (some d.tenant) d.draft now =
      some ({ s with assignments :=
        s.assignments.map (Store.settle d.isFor now) ++ [d.row id now] }, d.row id now) := by
  simp only [Store.insertAssignment?, draft, Option.bind_eq_bind, Option.bind_some]
  exact if_neg (Bool.eq_false_iff.1 (not_clashes_row h id))

/-! ### The grant -/

variable {env : Environment} {e : Engine}

theorem Passes.instant? (h : d.Passes e) :
    d.expiresAt.bind Stamp.instant? = d.expiresAt.map (·.reading) := by
  rcases hlimit : d.expiresAt with _ | stamp
  · rfl
  · obtain ⟨hoffset, hrange, -⟩ := h.limit stamp hlimit
    simp [Stamp.instant?, Instant.add?, hoffset, hrange]

theorem Passes.checkExpiry (h : d.Passes e) :
    Administration.checkExpiry d.expiresAt e.clock = .ok () := by
  have hinstant := h.instant?
  rcases hlimit : d.expiresAt with _ | stamp
  · rfl
  · rw [hlimit] at hinstant
    have hnot : ¬stamp.reading ≤ e.clock := Instant.not_le.2 (h.limit stamp hlimit).2.2
    simp only [Option.bind_some, Option.map_some] at hinstant
    simp [Administration.checkExpiry, Stamp.instant, hinstant, hnot]

theorem outcome_createAssignment (h : d.Passes e) (hheld : ¬d.IsHeld e.store e.clock) :
    (AccessStore.createAssignment (some d.tenant) d.draft (some e.clock)).outcome env e =
      (.ok ((d.row (e.ids.next .assignment) e.clock).withStatus .active), d.granted e) := by
  have htenant := Settings.checkTenant_some env.settings h.tenant
  have hinstant := h.instant?
  have hins := insertAssignment?_draft hheld (e.ids.next .assignment)
  have hdraft : d.draft.expiresAt = d.expiresAt := rfl
  rcases hlimit : d.expiresAt with _ | stamp
  · simp only [AccessStore.createAssignment, htenant, hins, hdraft, hlimit, outcome_bind,
      outcome_requireTenant, outcome_freshId, outcome_store, outcome_orFail, outcome_write,
      andThen_ok, outcome_pure, Option.elim_some, Option.mapM_none]
    simp [row, granted, AssignmentRow.withStatus, hlimit]
  · rw [hlimit, Option.bind_some, Option.map_some] at hinstant
    simp only [AccessStore.createAssignment, htenant, hins, hdraft, hlimit, Stamp.instant, hinstant,
      outcome_bind, outcome_requireTenant, outcome_freshId, outcome_store, outcome_orFail,
      outcome_write, andThen_ok, Option.elim_some, Option.mapM_some]
    simp [row, granted, AssignmentRow.withStatus, hlimit]

/-- Up to the check for an assignment in force, a draft that passes comes through. -/
theorem outcome_assignRole (hseq : env.isOvertaken = false) (h : d.Passes e) :
    (Administration.assignRole (some d.tenant) d.draft).outcome env e =
      (do
        if (← AccessStore.liveAssignment? (some d.tenant) (some d.user) (some d.role)
            (some d.scope)).isSome then
          throw (.assignmentExists (some d.user) (some d.role) (some d.scope))
        let assignment ← AccessStore.createAssignment (some d.tenant) d.draft (some e.clock)
        Administration.followUp
          (Administration.assignmentEvent .roleAssigned (some d.tenant) (some assignment.id)
            "CREATE" (some d.grantedBy) (some d.user) (some d.role) (some d.scope) d.reason)
          (.user (some d.user)) ("Role " ++ Given.mention (some d.role) ++ " assigned")
          (some d.grantedBy)
        return assignment : Call Assignment).outcome env e := by
  have htenant := Settings.checkTenant_some env.settings h.tenant
  obtain ⟨role, hrole⟩ := Option.isSome_iff_exists.1 h.role
  have hscope : checkScope (.ofText? (some d.scope)) = .ok d.scope := by
    simp [checkScope, Json.ofText?, h.scope]
  have hlooked : (Administration.role (some d.tenant) (some d.role)).outcome env e =
      (.ok role, e) := by
    rw [Administration.outcome_role, Administration.lookedUp, htenant, hrole]
    rfl
  rw [Administration.assignRole, outcome_bind, draft, hscope, outcome_ofExcept, andThen_ok,
    outcome_bind, outcome_now, andThen_ok, outcome_bind, h.checkExpiry, outcome_ofExcept,
    andThen_ok, outcome_bind, hlooked, andThen_ok, outcome_bind, outcome_read, andThen_ok, hseq]
  rfl

theorem outcome_assignRole_of_isHeld (hseq : env.isOvertaken = false) (h : d.Passes e)
    (hheld : d.IsHeld e.store e.clock) :
    (Administration.assignRole (some d.tenant) d.draft).outcome env e =
      (.error (.assignmentExists (some d.user) (some d.role) (some d.scope)), e) := by
  obtain ⟨r, hr⟩ := Option.isSome_iff_exists.1 (isSome_liveAssignment?_iff.2 hheld)
  have hlive := List.find?_some hr
  simp only [Bool.and_eq_true, AssignmentRow.isLive] at hlive
  have hrecord := AssignmentRow.record_of_isActive hlive.2.1
  have hlooked : (AccessStore.liveAssignment? (some d.tenant) (some d.user) (some d.role)
      (some d.scope)).outcome env e = (.ok (some (r.withStatus .active)), e) := by
    rw [AccessStore.outcome_liveAssignment?, Settings.checkTenant_some _ h.tenant, hr]
    simp [Except.bind, hrecord]
  rw [outcome_assignRole hseq h, outcome_bind, hlooked, andThen_ok]
  rfl

theorem outcome_assignRole_of_not_isHeld (hseq : env.isOvertaken = false) (h : d.Passes e)
    (hheld : ¬d.IsHeld e.store e.clock) :
    ∃ m, (Administration.assignRole (some d.tenant) d.draft).outcome env e =
      (.ok ((d.row (e.ids.next .assignment) e.clock).withStatus .active),
        (d.granted e).withMargin m) := by
  have hnone : e.store.liveAssignment? (some d.tenant) (some d.user) (some d.role) (some d.scope)
      e.clock = none := by
    rw [← Option.not_isSome_iff_eq_none, isSome_liveAssignment?_iff]
    exact hheld
  have hlooked : (AccessStore.liveAssignment? (some d.tenant) (some d.user) (some d.role)
      (some d.scope)).outcome env e = (.ok none, e) := by
    rw [AccessStore.outcome_liveAssignment?, Settings.checkTenant_some _ h.tenant, hnone]
    rfl
  rw [outcome_assignRole hseq h, outcome_bind, hlooked, andThen_ok]
  exact Administration.outcome_followedUp (outcome_createAssignment h hheld)

end CompleteDraft

/-! ### Refused exactly when held -/

namespace Administration

open AssignmentTable (WellKept)

/-- Along a run that starts without assignments, no row has the identifier that comes next. -/
theorem id_ne_next_of_course {start e : Engine} (hnone : start.store.assignments = [])
    (hrun : Course (fun _ e request => request.IsCurrent e) start e) :
    ∀ r ∈ e.store.assignments, r.id ≠ e.ids.next .assignment := by
  have hempty : WellKept start.ids start.store.assignments := by
    rw [hnone]
    exact ⟨List.nodup_nil, fun a ha => (List.not_mem_nil ha).elim, List.Pairwise.nil⟩
  have hkept := (livesOn_of_course hrun).table hempty
  intro r hr hid
  exact hkept.issued r hr (hid ▸ e.ids.isUpcoming_next .assignment)

/-- A grant that passes the other checks fails exactly if an assignment of its user, role and scope
is in force, and then nothing happens. Otherwise the lapsed rows of the kind are recorded as
expired, all others stay, and one row is added, under an identifier that no row has had. Whatever is
asked for, and until whenever: once the check has found nothing, the table takes the row. -/
theorem grant_refused_iff_held {env : Environment} {e : Engine} {d : CompleteDraft}
    (hseq : env.isOvertaken = false) (h : d.Passes e) :
    (((assignRole (some d.tenant) d.draft).outcome env e).1 =
        .error (.assignmentExists (some d.user) (some d.role) (some d.scope)) ↔
      d.IsHeld e.store e.clock) ∧
    (d.IsHeld e.store e.clock → (assignRole (some d.tenant) d.draft).after env e = e) ∧
    (¬d.IsHeld e.store e.clock → ∃ m, (assignRole (some d.tenant) d.draft).outcome env e =
      (.ok ((d.row (e.ids.next .assignment) e.clock).withStatus .active),
        (d.granted e).withMargin m)) ∧
    (∀ d : CompleteDraft,
      e.store.liveAssignment? (some d.tenant) (some d.user) (some d.role) (some d.scope) e.clock =
          none →
        (e.store.insertAssignment? (e.ids.next .assignment) (some d.tenant) d.draft
          e.clock).isSome = true) ∧
    ∀ start : Engine, start.store.assignments = [] →
      Course (fun _ e request => request.IsCurrent e) start e →
        ∀ r ∈ e.store.assignments, r.id ≠ e.ids.next .assignment := by
  have hrefused := fun hheld => d.outcome_assignRole_of_isHeld hseq h hheld
  have hgranted := fun hheld => d.outcome_assignRole_of_not_isHeld hseq h hheld
  refine ⟨⟨fun hfails => ?_, fun hheld => ?_⟩, fun hheld => ?_, hgranted, fun d hnone => ?_,
    fun start => id_ne_next_of_course⟩
  · by_contra hheld
    obtain ⟨m, hm⟩ := hgranted hheld
    rw [hm] at hfails
    cases hfails
  · rw [hrefused hheld]
  · exact after_eq_of_outcome (hrefused hheld)
  · have hheld : ¬d.IsHeld e.store e.clock := by
      rw [← CompleteDraft.isSome_liveAssignment?_iff, hnone]
      exact Bool.false_ne_true
    rw [CompleteDraft.insertAssignment?_draft hheld]
    rfl

/-- A role for two minutes after the beginning of time, written without an offset. -/
def fansAgain : CompleteDraft :=
  { tenant := "acme", user := "alice", role := "operator", scope := "tenant:*"
    grantedBy := "admin", expiresAt := some ⟨⟨120 * Instant.microsPerSecond⟩, none⟩
    reason := none }

/-- The loan for a minute at the very moment at which it ends. -/
def loanEnding : Engine :=
  (Operation.moveClock none (60 * Instant.microsPerSecond)).call.after Environment.plain
    Engine.fansLent

/-- While the loan lasts the role is refused; once it ends it is granted, and the loan is recorded
as expired. -/
theorem loan_regranted_at_its_end :
    Environment.plain.isOvertaken = false ∧
      fansAgain.Passes Engine.fansLent ∧ fansAgain.Passes loanEnding ∧
      (assignRole (some "acme") fansAgain.draft).after Environment.plain Engine.fansLent =
        Engine.fansLent ∧
      ((assignRole (some "acme") fansAgain.draft).after Environment.plain
          loanEnding).store.assignments =
        [Engine.fansLoan.expire ⟨60 * Instant.microsPerSecond⟩,
          fansAgain.row "ra-0002" ⟨60 * Instant.microsPerSecond⟩] := by
  have hseq : Environment.plain.isOvertaken = false := rfl
  have hlent : fansAgain.Passes Engine.fansLent :=
    ⟨by decide, by decide, rfl, fun stamp hstamp => by cases hstamp; decide⟩
  have hending : fansAgain.Passes loanEnding :=
    ⟨by decide, by decide, rfl, fun stamp hstamp => by cases hstamp; decide⟩
  have hheld : fansAgain.IsHeld Engine.fansLent.store Engine.fansLent.clock :=
    ⟨Engine.fansLoan, List.mem_singleton_self _,
      ⟨rfl, rfl, rfl, fun t ht => by cases ht; decide⟩, rfl, rfl⟩
  have hnot : ¬fansAgain.IsHeld loanEnding.store loanEnding.clock := by
    rintro ⟨r, hr, hforce, -, -⟩
    obtain rfl : r = Engine.fansLoan := List.mem_singleton.1 hr
    exact absurd (hforce.ahead _ rfl) (by decide)
  obtain ⟨m, hm⟩ := (grant_refused_iff_held hseq hending).2.2.1 hnot
  refine ⟨hseq, hlent, hending, (grant_refused_iff_held hseq hlent).2.1 hheld, ?_⟩
  have hafter := after_eq_of_outcome hm
  change (assignRole (some fansAgain.tenant) fansAgain.draft).after Environment.plain
    loanEnding = _ at hafter
  rw [show "acme" = fansAgain.tenant from rfl, hafter]
  rfl

end Administration

end Entitlements
