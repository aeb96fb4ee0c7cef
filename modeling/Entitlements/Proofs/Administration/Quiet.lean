import Entitlements.Proofs.Administration.Margins

/-!
Calls that have nothing to do with follow-ups. How a deployment follows up on changes is a part of
its environment, and the access store never looks there: of the environment it sees the settings,
for the tenants that are let through. `Overlooks` says that a call does the same on the same engine
whatever the follow-ups are. A call is `Quiet` if it does not look at what follow-ups have left
behind either, which is in the margin.
-/

namespace Entitlements

open Time Call

/-! ### Environments -/

/-- How a deployment follows up on changes. -/
structure FollowUps where
  sink : Sink
  canInvalidate : Bool
  hasBundles : Bool

/-- The same deployment with other follow-ups. -/
def Environment.withFollowUps (env : Environment) (f : FollowUps) : Environment :=
  { env with sink := f.sink, canInvalidate := f.canInvalidate, hasBundles := f.hasBundles }

@[simp] theorem Environment.settings_withFollowUps (env : Environment) (f : FollowUps) :
    (env.withFollowUps f).settings = env.settings := rfl

/-! ### Calls that overlook follow-ups -/

namespace Call

variable {env : Environment} {f : FollowUps}

/-- Does a call do the same with other follow-ups, on the same engine? -/
def Overlooks (env : Environment) (f : FollowUps) (x : Call α) : Prop :=
  ∀ e, x.outcome (env.withFollowUps f) e = x.outcome env e

namespace Overlooks

variable {x : Call α}

theorem pure (a : α) : Overlooks env f (pure a) := fun _ => rfl

theorem throw (failure : Failure) : Overlooks env f (throw failure : Call α) := fun _ => rfl

theorem now : Overlooks env f now := fun _ => rfl

theorem store : Overlooks env f store := fun _ => rfl

theorem write (s : Store) : Overlooks env f (write s) := fun _ => rfl

theorem freshId (kind : IdKind) : Overlooks env f (freshId kind) := fun _ => rfl

theorem ofExcept (r : Except Failure α) : Overlooks env f (ofExcept r) := fun e => by
  rw [outcome_ofExcept, outcome_ofExcept]

theorem orFail (failure : Failure) (a? : Option α) : Overlooks env f (orFail failure a?) :=
  fun e => by rw [outcome_orFail, outcome_orFail]

/-- Which tenants are let through is a matter of the settings. -/
theorem requireTenant (tenant : Given) : Overlooks env f (requireTenant tenant) := fun e => by
  rw [outcome_requireTenant, outcome_requireTenant, Environment.settings_withFollowUps]

theorem bind {g : α → Call β} (hx : Overlooks env f x) (hg : ∀ a, Overlooks env f (g a)) :
    Overlooks env f (x >>= g) := by
  intro e
  rw [outcome_bind, outcome_bind, hx]
  rcases x.outcome env e with ⟨failure | a, e'⟩
  · rfl
  · exact hg a e'

/-- Over a look at the environment, but not at its follow-ups. -/
theorem after_read {g : Environment → Call β} (hsame : g (env.withFollowUps f) = g env)
    (hg : Overlooks env f (g env)) : Overlooks env f (read >>= g) := by
  intro e
  rw [outcome_bind, outcome_bind, outcome_read, outcome_read, andThen_ok, andThen_ok, hsame]
  exact hg e

theorem mapM {g : α → Call β} (a? : Option α) (hg : ∀ a, Overlooks env f (g a)) :
    Overlooks env f (a?.mapM g) := by
  cases a? with
  | none => exact pure none
  | some a =>
    rw [Option.mapM_some]
    exact (hg a).bind fun b => pure (some b)

theorem list_mapM {g : α → Call β} (hg : ∀ a, Overlooks env f (g a)) (as : List α) :
    Overlooks env f (as.mapM g) := by
  induction as with
  | nil => exact pure []
  | cons a as ih =>
    rw [List.mapM_cons]
    exact (hg a).bind fun b => ih.bind fun bs => pure (b :: bs)

end Overlooks

/-- Does a call look at nothing that follow-ups depend on or touch? -/
structure Quiet (env : Environment) (f : FollowUps) (x : Call α) : Prop where
  unaware : Unaware x
  overlooks : Overlooks env f x

theorem Quiet.ofExcept (r : Except Failure α) : Quiet env f (ofExcept r) :=
  ⟨.ofExcept r, .ofExcept r⟩

theorem Quiet.orFail (failure : Failure) (a? : Option α) : Quiet env f (orFail failure a?) :=
  ⟨.orFail failure a?, .orFail failure a?⟩

end Call

namespace AccessStore

variable {env : Environment} {f : FollowUps} (tenant key actor : Given)

theorem quiet_policy? : Quiet env f (policy? tenant key) :=
  ⟨unaware_policy? tenant key,
    (Overlooks.requireTenant tenant).bind fun _ => Overlooks.store.bind fun _ => .pure _⟩

theorem quiet_role? : Quiet env f (role? tenant key) :=
  ⟨unaware_role? tenant key,
    (Overlooks.requireTenant tenant).bind fun _ => Overlooks.store.bind fun _ => .pure _⟩

theorem quiet_rolesUsing : Quiet env f (rolesUsing tenant key) :=
  ⟨unaware_rolesUsing tenant key,
    (Overlooks.requireTenant tenant).bind fun _ => Overlooks.store.bind fun _ => .pure _⟩

theorem quiet_countLive : Quiet env f (countLive tenant key) :=
  ⟨unaware_countLive tenant key,
    (Overlooks.requireTenant tenant).bind fun _ => Overlooks.store.bind fun _ =>
      Overlooks.now.bind fun _ => .pure _⟩

theorem quiet_assignment? : Quiet env f (assignment? tenant key) :=
  ⟨unaware_assignment? tenant key,
    (Overlooks.requireTenant tenant).bind fun _ => Overlooks.store.bind fun _ =>
      .mapM _ fun _ => .ofExcept _⟩

theorem quiet_liveAssignment? (user role scope : Given) :
    Quiet env f (liveAssignment? tenant user role scope) :=
  ⟨unaware_liveAssignment? tenant user role scope,
    (Overlooks.requireTenant tenant).bind fun _ => Overlooks.store.bind fun _ =>
      Overlooks.now.bind fun _ => .mapM _ fun _ => .ofExcept _⟩

theorem quiet_assignments (user : Given) (liveOnly : Bool) :
    Quiet env f (assignments tenant user liveOnly) :=
  ⟨fun m => (Unaware.requireTenant tenant m).bind fun _ => .store_bind fun _ =>
      (Unaware.now m).bind fun _ => Unaware.list_mapM (fun _ => .ofExcept _) _ m,
    (Overlooks.requireTenant tenant).bind fun _ => Overlooks.store.bind fun _ =>
      Overlooks.now.bind fun _ => .list_mapM (fun _ => .ofExcept _) _⟩

theorem quiet_savePolicy (d : PolicyDraft) : Quiet env f (savePolicy tenant d actor) := by
  refine ⟨unaware_savePolicy tenant actor d, ?_⟩
  refine (Overlooks.requireTenant tenant).bind fun _ => Overlooks.store.bind fun s =>
    Overlooks.now.bind fun now => ?_
  rcases s.policyRow? tenant d.key with _ | row
  · exact (Overlooks.freshId .policy).bind fun _ => (Overlooks.orFail _ _).bind fun _ =>
      (Overlooks.write _).bind fun _ => .pure _
  · exact (Overlooks.orFail _ _).bind fun _ => (Overlooks.write _).bind fun _ => .pure _

theorem quiet_removePolicy : Quiet env f (removePolicy tenant key) :=
  ⟨unaware_removePolicy tenant key,
    (Overlooks.requireTenant tenant).bind fun _ => Overlooks.store.bind fun _ =>
      (Overlooks.write _).bind fun _ => .pure _⟩

theorem quiet_saveRole (d : RoleDraft) : Quiet env f (saveRole tenant d actor) := by
  refine ⟨unaware_saveRole tenant actor d, ?_⟩
  refine (Overlooks.requireTenant tenant).bind fun _ => Overlooks.store.bind fun s =>
    Overlooks.now.bind fun now => ?_
  rcases s.roleRow? tenant d.key with _ | row
  · exact (Overlooks.freshId .role).bind fun _ => (Overlooks.orFail _ _).bind fun _ =>
      (Overlooks.write _).bind fun _ => .pure _
  · exact (Overlooks.orFail _ _).bind fun _ => (Overlooks.write _).bind fun _ => .pure _

theorem quiet_removeRole : Quiet env f (removeRole tenant key) :=
  ⟨unaware_removeRole tenant key,
    (Overlooks.requireTenant tenant).bind fun _ => Overlooks.store.bind fun _ =>
      (Overlooks.write _).bind fun _ => .pure _⟩

theorem quiet_createAssignment (d : AssignmentDraft) (grantedAt : Option Instant) :
    Quiet env f (createAssignment tenant d grantedAt) :=
  ⟨unaware_createAssignment tenant d grantedAt,
    (Overlooks.requireTenant tenant).bind fun _ => (Overlooks.orFail _ _).bind fun _ =>
      (Overlooks.freshId .assignment).bind fun _ => Overlooks.store.bind fun _ =>
        (Overlooks.orFail _ _).bind fun _ => (Overlooks.write _).bind fun _ =>
          (Overlooks.mapM _ fun _ => .ofExcept _).bind fun _ => .pure _⟩

theorem quiet_setStatus (id status : Given) : Quiet env f (setStatus tenant id status actor) := by
  refine ⟨unaware_setStatus tenant actor id status, ?_⟩
  refine (Overlooks.requireTenant tenant).bind fun _ => Overlooks.store.bind fun s => ?_
  rcases s.assignmentRow? tenant id with _ | row
  · exact .pure none
  · exact Overlooks.now.bind fun _ => (Overlooks.orFail _ _).bind fun _ =>
      (Overlooks.write _).bind fun _ => (Overlooks.ofExcept _).bind fun _ => .pure _

end AccessStore

namespace Administration

variable {env : Environment} {f : FollowUps} (tenant key : Given)

theorem quiet_policy : Quiet env f (policy tenant key) :=
  ⟨unaware_policy tenant key,
    (AccessStore.quiet_policy? tenant key).overlooks.bind fun _ => .orFail _ _⟩

theorem quiet_role : Quiet env f (role tenant key) :=
  ⟨unaware_role tenant key,
    (AccessStore.quiet_role? tenant key).overlooks.bind fun _ => .orFail _ _⟩

theorem quiet_requirePolicies (keys : Json) : Quiet env f (requirePolicies tenant keys) :=
  ⟨unaware_requirePolicies tenant keys,
    (Overlooks.ofExcept _).bind fun keys => .list_mapM
      (fun key => (quiet_policy tenant key).overlooks.bind fun _ => .pure _) (distinct keys)⟩

theorem quiet_assignments (user : Given) (liveOnly : Bool) :
    Quiet env f (assignments tenant user liveOnly) :=
  have hstored : Quiet env f (AccessStore.assignments tenant user liveOnly) :=
    AccessStore.quiet_assignments tenant user liveOnly
  ⟨hstored.unaware.bind fun _ => Unaware.now.bind fun _ => .pure _,
    hstored.overlooks.bind fun _ => Overlooks.now.bind fun _ => .pure _⟩

end Administration

end Entitlements
