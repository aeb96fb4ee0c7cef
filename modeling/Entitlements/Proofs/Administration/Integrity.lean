import Entitlements.Proofs.Administration.Effects
import Entitlements.Proofs.Evaluation.Decision
import Entitlements.Proofs.Generation.Expiry

/-!
What administration keeps in order. A store is sound when no reference dangles that anybody could
follow, when no role lists a policy twice, and when every pattern and every scope in it would be
accepted if it were written now. The guards that see to it are spread over the calls, and one of
them goes by the time: a role may be deleted under assignments that have lapsed. That is safe
because what has lapsed never comes back, as long as the clock does not go back. By what time expiry
is recorded does not matter, since recording only takes assignments out of force.

On a sound store an evaluation finds every role and every policy that it follows.
-/

namespace Entitlements

open Time Call

theorem checkScope_of_ok {text scope : String} (h : checkScope (.str text) = .ok scope) :
    checkScope (.str text) = .ok text := by
  simp only [checkScope] at h ⊢
  split at h
  · next hvalid => rw [if_pos hvalid]
  · cases h

/-! ### Sound stores -/

/-- Would every pattern of a policy be accepted? -/
def Policy.HasAcceptedPatterns (p : Policy) : Prop :=
  (∀ text ∈ p.allow, checkPattern (.str text) = .ok text) ∧
    ∀ text ∈ p.deny, checkPattern (.str text) = .ok text

namespace Store

structure Sound (s : Store) (now : Instant) : Prop extends Linked s now where
  patterns : ∀ r ∈ s.policies, r.policy.HasAcceptedPatterns
  keys : ∀ r ∈ s.roles, r.role.policyKeys.Nodup
  scopes : ∀ a ∈ s.assignments, checkScope (.str a.scope) = .ok a.scope

variable {s s' : Store} {now : Instant}

theorem sound_empty (now : Instant) : Store.empty.Sound now where
  toLinked := linked_empty now
  patterns := by simp [Store.empty]
  keys := by simp [Store.empty]
  scopes := by simp [Store.empty]

theorem Sound.of_tables (h : s.Sound now) (hp : s'.policies = s.policies)
    (hr : s'.roles = s.roles) (ha : s'.assignments = s.assignments) : s'.Sound now where
  toLinked := h.toLinked.of_tables hp hr ha
  patterns := by rw [hp]; exact h.patterns
  keys := by rw [hr]; exact h.keys
  scopes := by rw [ha]; exact h.scopes

theorem Sound.later {earlier : Instant} (hle : earlier ≤ now) (h : s.Sound earlier) :
    s.Sound now := { h with toLinked := h.toLinked.later hle }

/-! ### Guards -/

theorem Sound.patterns_of_accepts (h : s.Sound now) {patterns : List String}
    (ha : s.AcceptsPatterns patterns) :
    ∀ text ∈ patterns, checkPattern (.str text) = .ok text := by
  rcases ha with hchecked | ⟨r, hr, rfl | rfl⟩
  · exact hchecked
  · exact (h.patterns r hr).1
  · exact (h.patterns r hr).2

theorem Sound.found_of_accepts (h : s.Sound now) {tenant : Given} {keys : List String}
    (ha : s.AcceptsKeys tenant keys) :
    keys.Nodup ∧ ∀ key ∈ keys, (s.policyRow? tenant (some key)).isSome = true := by
  rcases ha with hfound | ⟨r, hr, rfl, rfl⟩
  · exact hfound
  · exact ⟨h.keys r hr, h.policies r hr⟩

/-! ### Writes -/

/-- Recording an expiry by any time takes assignments out of force and no more. -/
theorem Linked.expireWhere (h : s.Linked now) (selected : AssignmentRow → Bool) (time : Instant) :
    (s.expireWhere selected time).Linked now where
  policies := h.policies
  roles b hb hlive := by
    obtain ⟨a, ha, rfl⟩ := List.mem_map.1 hb
    split at hlive
    · next hlapsed => simp [AssignmentRow.isLive_expire] at hlive
    · next hkept =>
      rw [if_neg hkept]
      exact h.roles a ha hlive

theorem Sound.expireWhere (h : s.Sound now) (selected : AssignmentRow → Bool) (time : Instant) :
    (s.expireWhere selected time).Sound now where
  toLinked := h.toLinked.expireWhere selected time
  patterns := h.patterns
  keys := h.keys
  scopes b hb := by
    obtain ⟨a, ha, rfl⟩ := List.mem_map.1 hb
    split <;> exact h.scopes a ha

end Store

/-- Every effect keeps a store sound. -/
theorem Engine.Effect.sound {passes : Instant → Prop} {e e' : Engine} (h : Effect passes e e')
    (hs : e.store.Sound e.clock) : e'.store.Sound e'.clock := by
  cases h with
  | registers hp hr ha => exact hs.of_tables hp hr ha
  | spends kind => exact hs
  | addsPolicy hallow hdeny hins =>
    obtain ⟨row, -, ha, hd, rfl⟩ := Store.insertPolicy?_eq_some hins
    have hrow : row.policy.HasAcceptedPatterns :=
      ⟨ha ▸ hs.patterns_of_accepts hallow, hd ▸ hs.patterns_of_accepts hdeny⟩
    exact
      { toLinked := (Store.changes_addPolicy row).linked hs.toLinked
        patterns := Store.forall_mem_append_singleton hs.patterns hrow
        keys := hs.keys
        scopes := hs.scopes }
  | changesPolicy _ hallow hdeny hupd =>
    obtain ⟨row, ht, hk, ha, hd, rfl⟩ := Store.updatePolicy?_eq_some hupd
    have hrow : row.policy.HasAcceptedPatterns :=
      ⟨ha ▸ hs.patterns_of_accepts hallow, hd ▸ hs.patterns_of_accepts hdeny⟩
    exact
      { toLinked := (Store.changes_replacePolicy ht hk).linked hs.toLinked
        patterns := Store.forall_mem_replace hs.patterns hrow
        keys := hs.keys
        scopes := hs.scopes }
  | removesPolicy _ hfree =>
    exact
      { toLinked := (Store.changes_removePolicy hfree).linked hs.toLinked
        patterns := fun r hr => hs.patterns r (List.mem_filter.1 hr).1
        keys := hs.keys
        scopes := hs.scopes }
  | addsRole hkeys hins =>
    obtain ⟨row, rfl, hlisted, rfl⟩ := Store.insertRole?_eq_some hins
    obtain ⟨honce, hfound⟩ := hs.found_of_accepts hkeys
    rw [← hlisted] at honce hfound
    exact
      { toLinked := (Store.changes_addRole fun _ => hfound).linked hs.toLinked
        patterns := hs.patterns
        keys := Store.forall_mem_append_singleton hs.keys honce
        scopes := hs.scopes }
  | changesRole _ hkeys hupd =>
    obtain ⟨row, ht, hk, hlisted, rfl⟩ := Store.updateRole?_eq_some hupd
    obtain ⟨honce, hfound⟩ := hs.found_of_accepts hkeys
    rw [← hlisted] at honce hfound
    rw [← ht] at hfound
    exact
      { toLinked := (Store.changes_replaceRole ht hk fun _ => hfound).linked hs.toLinked
        patterns := hs.patterns
        keys := Store.forall_mem_replace hs.keys honce
        scopes := hs.scopes }
  | removesRole _ hfree =>
    exact
      { toLinked := (Store.changes_removeRole hfree).linked hs.toLinked
        patterns := hs.patterns
        keys := fun r hr => hs.keys r (List.mem_filter.1 hr).1
        scopes := hs.scopes }
  | grants hrole hscope hins =>
    have hlinked := (Store.changes_insertAssignment? hins hrole).2.2.linked hs.toLinked
    obtain ⟨⟨-, -, -, -, hgiven, -⟩, retired, rfl, -, rfl⟩ :=
      Store.insertAssignment?_eq_some hins
    rw [← hgiven] at hscope
    exact
      { toLinked := hlinked
        patterns := hs.patterns
        keys := hs.keys
        scopes := Store.forall_mem_append_singleton (hs.expireWhere _ e.clock).scopes
          (checkScope_of_ok hscope) }
  | revokes hrow _ hset =>
    obtain ⟨⟨text, htext, hrevoked⟩, rfl⟩ := Store.setStatus?_eq_some hset
    have hcontinues := AssignmentRow.continues_of_status hrevoked
    have hscope := hs.scopes _ (Store.of_assignmentRow? hrow).1
    refine
      { toLinked := (Store.changes_deactivate hcontinues ?_).linked hs.toLinked
        patterns := hs.patterns
        keys := hs.keys
        scopes := Store.forall_mem_replace hs.scopes ?_ }
    · rw [hrevoked, AssignmentRow.isActive, ← Option.some.inj htext]
      rfl
    · rw [hrevoked]
      exact hscope
  | settles selected _ => exact hs.expireWhere selected _

/-! ### Requests -/

/-- Does a request leave rights to administration, and the clock where it is or later? Expiry may be
recorded by any time. -/
def Request.IsOrderly (e : Engine) : Request → Prop
  | operation (.moveClock setTo micros) => (Operation.moveClock setTo micros).IsTimely e
  | write _ => False
  | _ => True

/-- A request that stays off the access store has one effect, or moves the clock. -/
theorem Request.hasEffect_or_moves {passes : Instant → Prop} (env : Environment) (e : Engine)
    (request : Request) (hwrite : ∀ w, request ≠ write w)
    (hpasses : ∀ op, request = operation op → op.PassesBy passes e) :
    e.HasEffect passes (request.call.after env e) ∨
      ∃ setTo micros, request = operation (.moveClock setTo micros) := by
  cases request with
  | operation op =>
    by_cases hclock : ∃ setTo micros, op = .moveClock setTo micros
    · obtain ⟨setTo, micros, rfl⟩ := hclock
      exact .inr ⟨setTo, micros, rfl⟩
    · left
      refine op.hasEffect env e (fun setTo micros h => hclock ⟨setTo, micros, h⟩) ?_
      exact hpasses op rfl
  | generate tenant user o =>
    exact .inl (.of_inMargin (.discard (Generation.generate_inMargin tenant user o)))
  | write w => exact (hwrite w rfl).elim
  | edit w => exact .inl (.of_inMargin w.inMargin)

theorem Request.IsOrderly.sound {env : Environment} {e : Engine} {request : Request}
    (h : request.IsOrderly e) (hs : e.store.Sound e.clock) :
    (request.call.after env e).store.Sound (request.call.after env e).clock := by
  have hwrite : ∀ w, request ≠ write w := by
    rintro w rfl
    exact h
  have hpasses : ∀ op, request = operation op → op.PassesBy (fun _ => True) e := by
    intro op _
    cases op <;> trivial
  rcases request.hasEffect_or_moves env e hwrite hpasses with
    ⟨e₁, m, heffect, hafter⟩ | ⟨setTo, micros, rfl⟩
  · rw [hafter]
    exact (heffect.sound hs).of_tables rfl rfl rfl
  · rw [call, Operation.after_moveClock]
    rcases htime : (setTo.getD e.clock).add? micros with _ | time
    · exact hs
    · exact hs.later (h time htime)

/-! ### Runs -/

/-- Whatever administration is asked for, in whatever order, the tables are sound. -/
theorem sound_of_course {clock : Instant} {scheme : IdScheme} {e : Engine}
    (hrun : Course (fun _ e request => request.IsOrderly e) (Engine.empty clock scheme) e) :
    e.store.Sound e.clock := by
  induction hrun with
  | nil => exact Store.sound_empty clock
  | step env request _ horderly ih => exact horderly.sound ih

/-! ### Evaluation -/

/-- Does an assignment lead to a role that is there, and on to policies that are all there? -/
def Store.Resolves (s : Store) (tenant : Given) (a : AssignmentRow) : Prop :=
  ∃ role, s.role? tenant (some a.roleKey) = some role ∧
    ∀ key ∈ role.policyKeys, ∃ policy, s.policy? tenant (some key) = some policy

theorem Store.Linked.resolves {s : Store} {now : Instant} (h : s.Linked now) {tenant user : Given}
    {a : AssignmentRow} (ha : a ∈ s.liveAssignmentsOf tenant user now) : s.Resolves tenant a := by
  obtain ⟨row, hrow⟩ := Option.isSome_iff_exists.1 (h.role_of_live ha)
  have hrole : s.role? tenant (some a.roleKey) = some row.role := by rw [role?, hrow]; rfl
  refine ⟨row.role, hrole, fun key hkey => ?_⟩
  obtain ⟨policyRow, hpolicy⟩ := Option.isSome_iff_exists.1 (h.policy_of_role hrole hkey)
  exact ⟨policyRow.record, by rw [policy?, hpolicy]; rfl⟩

namespace Evaluation

/-- Questions about a tenant that is named are answered, and leave no trace. -/
theorem answers (env : Environment) (e : Engine) {tenant : String} (htenant : tenant ≠ "")
    (user permission scope : Given) (permissions : List Given) :
    (∃ decision, (evaluate (some tenant) user permission scope).outcome env e =
        (.ok decision, e)) ∧
      (∃ batch, (evaluateBatch (some tenant) user permissions scope).outcome env e =
        (.ok batch, e)) ∧
      ∃ entries, (effective (some tenant) user scope).outcome env e = (.ok entries, e) := by
  have hg := Settings.checkTenant_some env.settings htenant
  refine ⟨?_, ?_, ?_⟩
  · rw [outcome_evaluate, hg]
    exact ⟨_, rfl⟩
  · simp only [evaluateBatch, outcome_bind, outcome_requireTenant, hg, andThen_ok, outcome_now,
      outcome_store]
    exact ⟨_, rfl⟩
  · rw [Generation.outcome_effective, hg]
    exact ⟨_, rfl⟩

/-- Along every run of administration no reference dangles that an evaluation could follow, and what
is stored would pass the checks of writes. So whatever is asked about a tenant that is named, every
role and every policy on the way is found, and there is an answer. -/
theorem references_are_good {clock : Instant} {scheme : IdScheme} {e : Engine}
    (hrun : Course (fun _ e request => request.IsOrderly e) (Engine.empty clock scheme) e) :
    (∀ r ∈ e.store.roles, r.role.policyKeys.Nodup ∧ ∀ key ∈ r.role.policyKeys,
        ∃ p ∈ e.store.policies, p.tenant = r.tenant ∧ p.policy.key = key) ∧
      (∀ a ∈ e.store.assignments, a.isLive e.clock = true →
        ∃ r ∈ e.store.roles, r.tenant = a.tenant ∧ r.role.key = a.roleKey) ∧
      (∀ p ∈ e.store.policies, p.policy.HasAcceptedPatterns) ∧
      (∀ a ∈ e.store.assignments, checkScope (.str a.scope) = .ok a.scope) ∧
      ∀ tenant, tenant ≠ "" → ∀ user : Given,
        (∀ a ∈ e.store.liveAssignmentsOf (some tenant) user e.clock,
          e.store.Resolves (some tenant) a) ∧
        ∀ (env : Environment) (permission scope : Given) (permissions : List Given),
          (∃ decision, (evaluate (some tenant) user permission scope).outcome env e =
              (.ok decision, e)) ∧
            (∃ batch, (evaluateBatch (some tenant) user permissions scope).outcome env e =
              (.ok batch, e)) ∧
            ∃ entries, (effective (some tenant) user scope).outcome env e = (.ok entries, e) := by
  have hs := sound_of_course hrun
  refine ⟨fun r hr => ⟨hs.keys r hr, fun key hkey => ?_⟩, fun a ha hlive => ?_, hs.patterns,
    hs.scopes, fun tenant htenant user => ⟨fun a ha => hs.resolves ha, ?_⟩⟩
  · obtain ⟨row, hrow⟩ := Option.isSome_iff_exists.1 (hs.policies r hr key hkey)
    obtain ⟨hmem, ht, hk⟩ := Store.of_policyRow? hrow
    exact ⟨row, hmem, Option.some.inj ht, Option.some.inj hk⟩
  · obtain ⟨row, hrow⟩ := Option.isSome_iff_exists.1 (hs.roles a ha hlive)
    obtain ⟨hmem, ht, hk⟩ := Store.of_roleRow? hrow
    exact ⟨row, hmem, Option.some.inj ht, Option.some.inj hk⟩
  · exact fun env permission scope permissions =>
      answers env e htenant user permission scope permissions

/-- Calls that lend a user fans for a minute, and delete the role two minutes later. -/
def lendAndDelete : List Operation :=
  Engine.lendFans ++
    [.moveClock none (120 * Instant.microsPerSecond),
      .deleteRole (some "acme") (some "operator") (some "admin")]

/-- The engine after these calls. -/
def roleDeleted : Engine :=
  lendAndDelete.foldl (fun e op => op.call.after Environment.plain e) (Engine.start ⟨0⟩ false)

/-- The lapsed assignment is still recorded as active, and its role is gone; but nobody follows it,
so questions are answered. -/
theorem roleDeleted_answers :
    (∃ a ∈ roleDeleted.store.assignments, a.isActive = true ∧
        roleDeleted.store.role? (some "acme") (some a.roleKey) = none) ∧
      roleDeleted.store.liveAssignmentsOf (some "acme") (some "alice") roleDeleted.clock = [] ∧
      ∃ decision, (evaluate (some "acme") (some "alice") (some "hvac.fan.roof:start")
        (some "tenant:*")).outcome Environment.plain roleDeleted = (.ok decision, roleDeleted) := by
  have hrun : Course (fun _ e request => request.IsOrderly e) (Engine.start ⟨0⟩ false)
      roleDeleted := by
    refine Course.nil.operations fun op hop e => ?_
    simp only [lendAndDelete, Engine.lendFans, Engine.allowFans, List.take, List.mem_append,
      List.mem_cons, List.not_mem_nil, or_false] at hop
    rcases hop with ((rfl | rfl | rfl) | rfl) | rfl | rfl
    case inr.inl => exact Operation.isTimely_advance e (by decide)
    all_goals trivial
  obtain ⟨-, -, -, -, hnamed⟩ := references_are_good hrun
  obtain ⟨hresolves, hanswers⟩ := hnamed "acme" (by decide) (some "alice")
  have hloans : roleDeleted.store.assignments = [Engine.fansLoan] := by decide +kernel
  have hroles : roleDeleted.store.roles = [] := by decide +kernel
  have hnone (key : Given) : roleDeleted.store.role? (some "acme") key = none := by
    rw [Store.role?, Store.roleRow?, hroles]
    rfl
  refine ⟨⟨Engine.fansLoan, hloans ▸ List.mem_singleton_self _, rfl, hnone _⟩, ?_, ?_⟩
  · -- An assignment in force would lead to a role.
    refine List.eq_nil_iff_forall_not_mem.2 fun a ha => ?_
    obtain ⟨role, hrole, -⟩ := hresolves a ha
    rw [hnone] at hrole
    cases hrole
  · exact (hanswers Environment.plain _ _ []).1

end Evaluation

end Entitlements
