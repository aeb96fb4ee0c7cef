import Entitlements.Proofs.Engine.Writing

/-!
Calls that change nothing if they fail. A transaction gives up what it had written, but most calls
are no transactions: each write stands once it is made, so whatever can fail has to come before the
first write. `FailsClean` is that property of a call on an engine, with a rule for each kind of
step. A step that only looks may refuse, and so may a write, which is made as a whole or not at all;
what comes after a write has to be sure of its answer, and `Answers` is the judgement for that.
Identifiers count as used either way.

Two writes of the access store look again at what they have written and may fail over it.
`StrandsGrant` and `StrandsState` say when they do; otherwise they fail clean like the others.
-/

namespace Entitlements

open Time

namespace Call

/-! ### Calls that cannot fail -/

/-- Does a call have an answer, wherever it is made? -/
def Answers (x : Call α) : Prop := ∀ env e, ∃ a, x.outcome env e = (.ok a, x.after env e)

namespace Answers

variable {x : Call α}

theorem of_outcome (h : ∀ env e, ∃ a e', x.outcome env e = (.ok a, e')) : Answers x := by
  intro env e
  obtain ⟨a, e', hx⟩ := h env e
  exact ⟨a, by rw [after_eq_of_outcome hx, hx]⟩

theorem pure (a : α) : Answers (pure a) := fun _ _ => ⟨a, rfl⟩

theorem read : Answers read := fun env _ => ⟨env, rfl⟩

theorem attempt (x : Call Unit) : Answers (attempt x) :=
  of_outcome fun env e => ⟨(), _, outcome_attempt env e x⟩

theorem bind {f : α → Call β} (hx : Answers x) (hf : ∀ a, Answers (f a)) : Answers (x >>= f) := by
  refine of_outcome fun env e => ?_
  obtain ⟨a, ha⟩ := hx env e
  obtain ⟨b, hb⟩ := hf a env (x.after env e)
  exact ⟨b, _, by rw [outcome_bind, ha, andThen_ok, hb]⟩

theorem ite {c : Prop} [Decidable c] {y : Call α} (hx : Answers x) (hy : Answers y) :
    Answers (if c then x else y) := by
  split
  · exact hx
  · exact hy

end Answers

/-! ### Calls that fail without a trace -/

/-- Is everything as before, the identifiers apart, if a call fails? -/
def FailsClean (x : Call α) (env : Environment) (e : Engine) : Prop :=
  ∀ failure e', x.outcome env e = (.error failure, e') → ∃ ids, e' = { e with ids }

namespace FailsClean

variable {env : Environment} {e : Engine} {x : Call α}

/-- A call that has an answer here. -/
theorem of_ok (h : ∃ a e', x.outcome env e = (.ok a, e')) : x.FailsClean env e := by
  intro failure _ hfail
  obtain ⟨a, e', hok⟩ := h
  rw [hok] at hfail
  cases hfail

theorem of_answers (h : Answers x) : x.FailsClean env e := by
  obtain ⟨a, ha⟩ := h env e
  exact of_ok ⟨a, _, ha⟩

/-- A call that only looks. -/
theorem of_look {answer : Except Failure α} (hx : x.outcome env e = (answer, e)) :
    x.FailsClean env e := by
  intro failure e' hfail
  rw [hx] at hfail
  cases hfail
  exact ⟨e.ids, rfl⟩

/-- Over a step that only looks. -/
theorem look {f : α → Call β} {answer : Except Failure α} (hx : x.outcome env e = (answer, e))
    (h : ∀ a, answer = .ok a → (f a).FailsClean env e) : (x >>= f).FailsClean env e := by
  intro failure e' hfail
  rw [outcome_bind, hx] at hfail
  rcases answer with _ | a
  · cases hfail
    exact ⟨e.ids, rfl⟩
  · exact h a rfl failure e' hfail

/-- Over a check that refuses. -/
theorem guard {c : Prop} [Decidable c] {refusal : Failure} {f : Unit → Call α}
    (h : ¬c → x.FailsClean env e) :
    (if c then throw refusal >>= f else x).FailsClean env e := by
  split
  · exact look (outcome_throw env e refusal) fun _ hok => nomatch hok
  · next hc => exact h hc

/-- Over an identifier that is used up. -/
theorem freshId {kind : IdKind} {f : String → Call β}
    (h : (f (e.ids.next kind)).FailsClean env { e with ids := e.ids.advance kind }) :
    (freshId kind >>= f).FailsClean env e := by
  intro failure e' hfail
  rw [outcome_bind, outcome_freshId, andThen_ok] at hfail
  obtain ⟨ids, rfl⟩ := h failure e' hfail
  exact ⟨ids, rfl⟩

/-- A step whose failure leaves nothing behind, and after it what is sure of its answer. -/
theorem bind {f : α → Call β} (hx : x.FailsClean env e)
    (hf : ∀ a e', x.outcome env e = (.ok a, e') → ∃ b e'', (f a).outcome env e' = (.ok b, e'')) :
    (x >>= f).FailsClean env e := by
  intro failure e' hfail
  rw [outcome_bind] at hfail
  rcases hr : x.outcome env e with ⟨_ | a, e₁⟩
  · rw [hr] at hfail
    cases hfail
    exact hx _ _ hr
  · obtain ⟨b, e₂, hb⟩ := hf a e₁ hr
    rw [hr, andThen_ok, hb] at hfail
    cases hfail

theorem bind_answers {f : α → Call β} (hx : x.FailsClean env e) (hf : ∀ a, Answers (f a)) :
    (x >>= f).FailsClean env e := by
  refine hx.bind fun a e' _ => ?_
  obtain ⟨b, hb⟩ := hf a env e'
  exact ⟨b, _, hb⟩

theorem discard (hx : x.FailsClean env e) : (discard x : Call Unit).FailsClean env e := by
  intro failure e' hfail
  rw [outcome_discard] at hfail
  rcases hr : x.outcome env e with ⟨_ | a, e₁⟩
  · rw [hr] at hfail
    cases hfail
    exact hx _ _ hr
  · rw [hr] at hfail
    cases hfail

end FailsClean

end Call

open Call

/-! ### Writes of the access store -/

namespace AccessStore

variable (env : Environment) (e : Engine) (tenant actor : Given)

/-- A draft that the tables take is saved at once, and any other is refused at once. -/
theorem saved_failsClean (saved? : Option (Store × α)) :
    (do
      let (s, answer) ← orFail .constraint saved?
      write s
      return answer : Call α).FailsClean env e :=
  .look (outcome_orFail env e _ _) fun _ _ => .of_ok ⟨_, _, rfl⟩

theorem savePolicy_failsClean (d : PolicyDraft) :
    (savePolicy tenant d actor).FailsClean env e := by
  refine .look (outcome_requireTenant env e tenant) fun _ _ => ?_
  refine .look (outcome_store env e) fun s _ => ?_
  refine .look (outcome_now env e) fun now _ => ?_
  rcases s.policyRow? tenant d.key with _ | row
  · exact .freshId (saved_failsClean env _ _)
  · exact saved_failsClean env e _

theorem saveRole_failsClean (d : RoleDraft) : (saveRole tenant d actor).FailsClean env e := by
  refine .look (outcome_requireTenant env e tenant) fun _ _ => ?_
  refine .look (outcome_store env e) fun s _ => ?_
  refine .look (outcome_now env e) fun now _ => ?_
  rcases s.roleRow? tenant d.key with _ | row
  · exact .freshId (saved_failsClean env _ _)
  · exact saved_failsClean env e _

theorem removePolicy_failsClean (key : Given) : (removePolicy tenant key).FailsClean env e :=
  .look (outcome_requireTenant env e tenant) fun _ _ => .of_ok ⟨_, _, rfl⟩

theorem removeRole_failsClean (key : Given) : (removeRole tenant key).FailsClean env e :=
  .look (outcome_requireTenant env e tenant) fun _ _ => .of_ok ⟨_, _, rfl⟩

theorem expireAssignments_failsClean (now : Instant) :
    (expireAssignments tenant now).FailsClean env e :=
  .look (outcome_requireTenant env e tenant) fun _ _ => .of_ok ⟨_, _, rfl⟩

/-! ### Writes that are kept although they fail -/

/-- Is a row written whose expiry the answer cannot give? -/
def StrandsGrant (d : AssignmentDraft) (grantedAt : Option Instant) : Prop :=
  env.settings.checkTenant tenant = .ok () ∧
    ∃ now, grantedAt = some now ∧
      (e.store.insertAssignment? (e.ids.next .assignment) tenant d now).isSome = true ∧
        ∃ stamp, d.expiresAt = some stamp ∧ stamp.instant? = none

/-- Is a state recorded that nobody knows? -/
def StrandsState (id status : Given) : Prop :=
  env.settings.checkTenant tenant = .ok () ∧ (e.store.assignmentRow? tenant id).isSome = true ∧
    ∃ text, status = some text ∧ AssignmentStatus.ofText? text = none

variable {env e tenant}

/-- An expiry is looked at twice, for the row and for the answer, and the second look is the one
that can fail. -/
theorem createAssignment_failsClean {d : AssignmentDraft} {grantedAt : Option Instant}
    (h : ¬StrandsGrant env e tenant d grantedAt) :
    (createAssignment tenant d grantedAt).FailsClean env e := by
  refine .look (outcome_requireTenant env e tenant) fun _ htenant => ?_
  refine .look (outcome_orFail env e _ _) fun now hnow => ?_
  obtain rfl := eq_some_of_elim hnow
  refine .freshId (.look (outcome_store env _) fun s hs => ?_)
  cases hs
  refine .look (outcome_orFail env _ _ _) fun saved hsaved => ?_
  have hins : (e.store.insertAssignment? (e.ids.next .assignment) tenant d now).isSome = true := by
    rw [eq_some_of_elim hsaved]
    rfl
  rcases hexp : d.expiresAt with _ | stamp
  · exact .of_ok ⟨_, _, rfl⟩
  · rcases hlimit : stamp.instant? with _ | limit
    · exact (h ⟨htenant, now, rfl, hins, stamp, hexp, hlimit⟩).elim
    · refine .of_ok ⟨{ saved.2.withStatus .active with expiresAt := some limit },
        { e with store := saved.1, ids := e.ids.advance .assignment }, ?_⟩
      simp [Stamp.instant, hlimit]

theorem setStatus_failsClean {id status : Given} (h : ¬StrandsState env e tenant id status) :
    (setStatus tenant id status actor).FailsClean env e := by
  refine .look (outcome_requireTenant env e tenant) fun _ htenant => ?_
  refine .look (outcome_store env e) fun s hs => ?_
  cases hs
  rcases hrow : e.store.assignmentRow? tenant id with _ | row
  · exact .of_ok ⟨_, _, rfl⟩
  · refine .look (outcome_now env e) fun now _ => ?_
    refine .look (outcome_orFail env e _ _) fun saved hsaved => ?_
    obtain ⟨⟨text, rfl, hset⟩, -⟩ := Store.setStatus?_eq_some (eq_some_of_elim hsaved)
    rcases hstate : AssignmentStatus.ofText? text with _ | state
    · exact (h ⟨htenant, by rw [hrow]; rfl, text, rfl, hstate⟩).elim
    · have hrecord : saved.2.record = .ok (saved.2.withStatus state) := by
        refine AssignmentRow.record_of_state ?_
        rw [hset]
        exact hstate
      refine .of_ok ⟨some (saved.2.withStatus state), { e with store := saved.1 }, ?_⟩
      simp [hrecord]

end AccessStore

/-! ### What follows a change -/

theorem AuditLog.publish_answers (event : Event) : Answers (publish event) := .attempt _

/-- Neither an announcement nor the marking of bundles can fail the call that they follow. -/
theorem Administration.followUp_answers (event : Event) (stale : Stale) (reason : String)
    (actor : Given) : Answers (followUp event stale reason actor) :=
  (AuditLog.publish_answers event).bind fun _ => Answers.read.bind fun _ =>
    .ite (.attempt _) (.pure _)

end Entitlements
