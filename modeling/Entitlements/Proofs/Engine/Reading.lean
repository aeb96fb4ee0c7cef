import Entitlements.Administration.Assignments
import Entitlements.Proofs.Engine.Outcome

/-!
Calls that only look. Most of what a call does before it writes is to look something up and to
refuse, and none of that leaves a trace. `after_bind_of_outcome` walks over such a step: whatever is
to be shown of the engine in the end holds if it holds of the engine as it is, in case the step
refuses, and if the rest of the call establishes it, given what the step has answered. The answers
of the look-ups that administration makes are listed here.
-/

namespace Entitlements

open Time

namespace Call

variable {env : Environment} {e : Engine}

/-- Over a step that only looks. -/
theorem after_bind_of_outcome {P : Engine → Prop} {x : Call α} {f : α → Call β}
    {answer : Except Failure α} (hx : x.outcome env e = (answer, e)) (hrefused : P e)
    (h : ∀ a, answer = .ok a → P ((f a).after env e)) : P ((x >>= f).after env e) := by
  rw [after, outcome_bind, hx]
  rcases answer with failure | a
  · exact hrefused
  · exact h a rfl

/-- Over a check that refuses. -/
theorem after_of_guard {P : Engine → Prop} {c : Prop} [Decidable c] {failure : Failure}
    {f : Unit → Call α} {x : Call α} (hrefused : P e) (h : ¬c → P (x.after env e)) :
    P ((if c then throw failure >>= f else x).after env e) := by
  split
  · exact hrefused
  · next hc => exact h hc

/-- Over a step that cannot fail. -/
theorem after_bind_of_ok {x : Call α} {f : α → Call β} {a : α} {e' : Engine}
    (hx : x.outcome env e = (.ok a, e')) : (x >>= f).after env e = (f a).after env e' := by
  rw [after, outcome_bind, hx]
  rfl

/-- Over a step that keeps what the rest of the call keeps. -/
theorem after_bind_of_after {P : Engine → Prop} {x : Call α} {f : α → Call β}
    (hx : P (x.after env e)) (h : ∀ a e', P e' → P ((f a).after env e')) :
    P ((x >>= f).after env e) := by
  rw [after] at hx
  rw [after, outcome_bind]
  rcases hr : x.outcome env e with ⟨failure | a, e'⟩
  · rw [hr] at hx
    exact hx
  · rw [hr] at hx
    exact h a e' hx

/-- What is made of an answer is of no account to the engine. -/
theorem after_bind_pure (x : Call α) (f : α → β) (env : Environment) (e : Engine) :
    (do return f (← x) : Call β).after env e = x.after env e := by
  rw [after, outcome_bind, after]
  rcases x.outcome env e with ⟨_ | _, _⟩ <;> rfl

/-- A walk of steps that only look. -/
theorem outcome_mapM {f : α → Call β} {answer : α → Except Failure β}
    (hf : ∀ a, (f a).outcome env e = (answer a, e)) (xs : List α) :
    (xs.mapM f).outcome env e = (xs.mapM answer, e) := by
  induction xs with
  | nil => rfl
  | cons x xs ih =>
    rw [List.mapM_cons, List.mapM_cons, outcome_bind, hf]
    rcases answer x with failure | b
    · rfl
    · rw [andThen_ok, outcome_bind, ih, ok_bind]
      rcases xs.mapM answer with failure | bs <;> rfl

end Call

/-- Each member of the answer to a walk is the answer of a step. -/
theorem exists_of_mem_mapM {f : α → Except Failure β} {xs : List α} {bs : List β}
    (h : xs.mapM f = .ok bs) {b : β} (hb : b ∈ bs) : ∃ a ∈ xs, f a = .ok b := by
  induction xs generalizing bs with
  | nil =>
    cases h
    cases hb
  | cons x xs ih =>
    rw [List.mapM_cons] at h
    obtain ⟨y, hx, h⟩ := Call.bind_eq_ok_iff.1 h
    obtain ⟨ys, hxs, h⟩ := Call.bind_eq_ok_iff.1 h
    cases h
    rcases List.mem_cons.1 hb with rfl | hb
    · exact ⟨x, List.mem_cons_self, hx⟩
    · obtain ⟨a, ha, hfa⟩ := ih hxs hb
      exact ⟨a, List.mem_cons_of_mem _ ha, hfa⟩

/-- An answer that only waits for the tenant to be let through. -/
theorem eq_ok_of_map {r : Except Failure Unit} {a b : α} (h : r.map (fun _ => b) = .ok a) :
    r = .ok () ∧ b = a := by
  cases r with
  | error failure => cases h
  | ok _ =>
    cases h
    exact ⟨rfl, rfl⟩

theorem eq_some_of_elim {failure : Failure} {a? : Option α} {a : α}
    (h : a?.elim (Except.error failure) Except.ok = Except.ok a) : a? = some a := by
  cases a? with
  | none => cases h
  | some a =>
    cases h
    rfl

/-! ### Answers -/

namespace AccessStore

open Call

variable (tenant key : Given) (env : Environment) (e : Engine)

theorem outcome_policy? :
    (policy? tenant key).outcome env e =
      ((env.settings.checkTenant tenant).map fun _ => e.store.policy? tenant key, e) := by
  cases h : env.settings.checkTenant tenant <;> simp [policy?, h, Except.map]

theorem outcome_role? :
    (role? tenant key).outcome env e =
      ((env.settings.checkTenant tenant).map fun _ => e.store.role? tenant key, e) := by
  cases h : env.settings.checkTenant tenant <;> simp [role?, h, Except.map]

theorem outcome_rolesUsing :
    (rolesUsing tenant key).outcome env e =
      ((env.settings.checkTenant tenant).map fun _ => e.store.rolesUsing tenant key, e) := by
  cases h : env.settings.checkTenant tenant <;> simp [rolesUsing, h, Except.map]

theorem outcome_countLive :
    (countLive tenant key).outcome env e =
      ((env.settings.checkTenant tenant).map fun _ => e.store.countLive tenant key e.clock, e) := by
  cases h : env.settings.checkTenant tenant <;> simp [countLive, h, Except.map]

/-- Looking at an assignment fails if its recorded state is unknown. -/
theorem outcome_mapM_record (row? : Option AssignmentRow) :
    (row?.mapM fun row : AssignmentRow => (ofExcept row.record : Call Assignment)).outcome env e =
      (row?.mapM AssignmentRow.record, e) := by
  rcases row? with _ | row
  · rfl
  · rcases h : row.record <;> simp [h]

theorem outcome_assignment? :
    (assignment? tenant key).outcome env e =
      ((env.settings.checkTenant tenant).bind fun _ =>
        (e.store.assignmentRow? tenant key).mapM AssignmentRow.record, e) := by
  cases h : env.settings.checkTenant tenant <;>
    simp [assignment?, h, Except.bind, outcome_mapM_record]

theorem outcome_liveAssignment? (user role scope : Given) :
    (liveAssignment? tenant user role scope).outcome env e =
      ((env.settings.checkTenant tenant).bind fun _ =>
        (e.store.liveAssignment? tenant user role scope e.clock).mapM AssignmentRow.record, e) := by
  cases h : env.settings.checkTenant tenant <;>
    simp [liveAssignment?, h, Except.bind, outcome_mapM_record]

end AccessStore

namespace Administration

open Call

/-- What looking something up that has to be there answers. -/
def lookedUp (env : Environment) (tenant : Given) (missing : Failure) (a? : Option α) :
    Except Failure α := do
  env.settings.checkTenant tenant
  a?.elim (.error missing) .ok

/-- A tenant that finds something has been let through. -/
theorem of_lookedUp {env : Environment} {tenant : Given} {missing : Failure} {a? : Option α} {a : α}
    (h : lookedUp env tenant missing a? = .ok a) :
    env.settings.checkTenant tenant = .ok () ∧ a? = some a := by
  obtain ⟨_, hg, h⟩ := bind_eq_ok_iff.1 h
  exact ⟨hg, eq_some_of_elim h⟩

variable (tenant key : Given) (env : Environment) (e : Engine)

theorem outcome_policy :
    (policy tenant key).outcome env e =
      (lookedUp env tenant (.policyNotFound key) (e.store.policy? tenant key), e) := by
  cases h : env.settings.checkTenant tenant <;>
    simp [policy, AccessStore.outcome_policy?, lookedUp, h, Except.map]

theorem outcome_role :
    (role tenant key).outcome env e =
      (lookedUp env tenant (.roleNotFound key) (e.store.role? tenant key), e) := by
  cases h : env.settings.checkTenant tenant <;>
    simp [role, AccessStore.outcome_role?, lookedUp, h, Except.map]

/-- The keys that are asked for are looked up one by one. -/
theorem outcome_requirePolicies (keys : Json) :
    (requirePolicies tenant keys).outcome env e =
      (do
        let keys ← do (← membersOf keys).mapM keyOf
        (distinct keys).mapM fun key =>
          (·.key) <$> lookedUp env tenant (.policyNotFound key) (e.store.policy? tenant key),
        e) := by
  have hstep (key : Given) :
      (do return (← policy tenant key).key : Call String).outcome env e =
        ((·.key) <$> lookedUp env tenant (.policyNotFound key) (e.store.policy? tenant key),
          e) := by
    rw [outcome_bind, outcome_policy]
    rcases lookedUp env tenant (.policyNotFound key) (e.store.policy? tenant key) with _ | p
    · rfl
    · rfl
  rw [requirePolicies, outcome_bind, outcome_ofExcept]
  rcases membersOf keys with failure | members
  · rfl
  · simp only [ok_bind]
    rcases members.mapM keyOf with failure | given
    · rfl
    · rw [andThen_ok, outcome_mapM hstep, ok_bind]

end Administration

end Entitlements
