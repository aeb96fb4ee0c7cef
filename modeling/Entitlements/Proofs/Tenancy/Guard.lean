import Entitlements.Proofs.Administration.BestEffort
import Entitlements.Proofs.Evaluation.Decision

/-!
The tenant guard. A call on the tables that does not name a tenant could meet the rows of all of
them, so each call of the access store, the directory and the bundle cache asks for the tenant, and
asks before it looks at a row or writes one. `IsTurnedAway` says of a call what follows from that
without a tenant: it fails at once, and everything is as it was. A call that begins with one that is
turned away is turned away as well, and that is all there is to the services: evaluation, generation
and administration have nothing to look at but what these calls answer. Only one of them looks at
its other arguments before.

With a tenant that is named the guard is never the reason for a failure. `Passes` is the judgement
for that, with a rule for each way in which calls are put together.
-/

namespace Entitlements

open Time Call

/-- Is a tenant not named? -/
def Given.IsMissing (tenant : Given) : Prop := tenant = none ∨ tenant = some ""

theorem Settings.checkTenant_of_isMissing {settings : Settings}
    (hguard : settings.requireTenant = true) {tenant : Given} (h : tenant.IsMissing) :
    settings.checkTenant tenant = .error .tenantMissing := by
  rcases h with rfl | rfl <;> simp [checkTenant, hguard, Given.nonempty?]

namespace Call

/-! ### Calls that are turned away -/

/-- Does a call fail for want of a tenant, wherever it is made, with everything as it was? -/
def IsTurnedAway (env : Environment) (x : Call α) : Prop :=
  ∀ e, x.outcome env e = (.error .tenantMissing, e)

namespace IsTurnedAway

variable {env : Environment} {x : Call α}

theorem requireTenant {tenant : Given}
    (h : env.settings.checkTenant tenant = .error .tenantMissing) :
    IsTurnedAway env (requireTenant tenant) := fun e => by rw [outcome_requireTenant, h]

/-- Nothing comes after a call that is turned away. -/
theorem bind {f : α → Call β} (hx : IsTurnedAway env x) : IsTurnedAway env (x >>= f) :=
  fun e => by rw [outcome_bind, hx, andThen_error]

/-- A look at the engine first makes no difference. -/
theorem look {f : α → Call β} (hx : ∀ e, ∃ a, x.outcome env e = (.ok a, e))
    (hf : ∀ a, IsTurnedAway env (f a)) : IsTurnedAway env (x >>= f) := by
  intro e
  obtain ⟨a, ha⟩ := hx e
  rw [outcome_bind, ha, andThen_ok, hf]

theorem read_bind {f : Environment → Call β} (hf : IsTurnedAway env (f env)) :
    IsTurnedAway env (read >>= f) := hf

end IsTurnedAway

/-! ### Calls that pass the guard -/

/-- Does a call never fail for want of a tenant? -/
def Passes (x : Call α) : Prop := ∀ env e, (x.outcome env e).1 ≠ .error .tenantMissing

namespace Passes

variable {x : Call α}

theorem pure (a : α) : Passes (pure a) := fun _ _ => nofun

theorem throw (failure : Failure) (h : failure ≠ .tenantMissing) :
    Passes (throw failure : Call α) := fun _ _ hfails => h (Except.error.inj hfails)

theorem read : Passes read := fun _ _ => nofun

theorem now : Passes now := fun _ _ => nofun

theorem store : Passes store := fun _ _ => nofun

theorem write (s : Store) : Passes (write s) := fun _ _ => nofun

theorem freshId (kind : IdKind) : Passes (freshId kind) := fun _ _ => nofun

theorem ofExcept {r : Except Failure α} (h : r ≠ .error .tenantMissing) : Passes (ofExcept r) :=
  fun env e => by rwa [outcome_ofExcept]

theorem orFail (failure : Failure) (h : failure ≠ .tenantMissing) (a? : Option α) :
    Passes (orFail failure a?) := by
  cases a? with
  | none => exact throw failure h
  | some a => exact pure a

theorem bind {f : α → Call β} (hx : Passes x) (hf : ∀ a, Passes (f a)) : Passes (x >>= f) := by
  intro env e
  rw [outcome_bind]
  have hpasses := hx env e
  rcases hr : x.outcome env e with ⟨failure | a, e'⟩
  · rw [hr] at hpasses
    exact fun hfails => hpasses (congrArg Except.error (Except.error.inj hfails))
  · exact hf a env e'

theorem ite {c : Prop} [Decidable c] {y : Call α} (hx : Passes x) (hy : Passes y) :
    Passes (if c then x else y) := by
  split
  · exact hx
  · exact hy

theorem window (offset limit : Option Int) (rows : List α) : Passes (window offset limit rows) :=
  .ite (.pure _) (.throw _ nofun)

theorem mapM {f : α → Call β} (a? : Option α) (hf : ∀ a, Passes (f a)) : Passes (a?.mapM f) := by
  cases a? with
  | none => exact pure none
  | some a =>
    rw [Option.mapM_some]
    exact (hf a).bind fun b => pure (some b)

theorem list_mapM {f : α → Call β} (hf : ∀ a, Passes (f a)) (as : List α) :
    Passes (as.mapM f) := by
  induction as with
  | nil => exact pure []
  | cons a as ih =>
    rw [List.mapM_cons]
    exact (hf a).bind fun b => ih.bind fun bs => pure (b :: bs)

/-- A write that the tables may refuse, for another reason than the tenant. -/
theorem saved (failure : Failure) (h : failure ≠ .tenantMissing) {saved? : Option (Store × α)}
    {f : α → Call β} (hf : ∀ a, Passes (f a)) :
    Passes (do let (s, a) ← Call.orFail failure saved?; Call.write s; f a) :=
  (orFail failure h saved?).bind fun ⟨s, a⟩ => (write s).bind fun _ => hf a

/-- The guard lets a tenant pass that is named, whether it is on or not. -/
theorem requireTenant {tenant : String} (h : tenant ≠ "") : Passes (requireTenant (some tenant)) :=
  fun env e => by
    rw [outcome_requireTenant, Settings.checkTenant_some _ h]
    nofun

end Passes

end Call

/-! ### The calls on the tables -/

/-- The calls that the access store, the directory and the bundle cache offer, each with the type of
its answers. -/
inductive StoreCall : Type → Type where
  -- The access store
  | policy? (key : Given) : StoreCall (Option Policy)
  | policyRowById? (id : Given) : StoreCall (Option PolicyRow)
  | policies (offset limit : Option Int) : StoreCall (List Policy)
  | savePolicy (d : PolicyDraft) (actor : Given) : StoreCall Policy
  | removePolicy (key : Given) : StoreCall Bool
  | role? (key : Given) : StoreCall (Option Role)
  | roleRowById? (id : Given) : StoreCall (Option RoleRow)
  | roleRows (offset limit : Option Int) : StoreCall (List RoleRow)
  | roles : StoreCall (List Role)
  | rolesUsing (policy : Given) : StoreCall (List String)
  | saveRole (d : RoleDraft) (actor : Given) : StoreCall Role
  | removeRole (key : Given) : StoreCall Bool
  | assignment? (id : Given) : StoreCall (Option Assignment)
  | assignments (user : Given) (liveOnly : Bool) : StoreCall (List Assignment)
  | liveAssignment? (user role scope : Given) : StoreCall (Option Assignment)
  | countLive (role : Given) : StoreCall Nat
  | createAssignment (d : AssignmentDraft) (grantedAt : Option Instant) : StoreCall Assignment
  | setStatus (id status actor : Given) : StoreCall (Option Assignment)
  | expireAssignments (now : Instant) : StoreCall Nat
  -- The directory
  | user? (id : Given) : StoreCall (Option UserRow)
  | customer? (id : Given) : StoreCall (Option CustomerRow)
  | primaryGroup? (user : Given) : StoreCall (Option GroupRow)
  -- The bundle cache
  | cached? (user scope : Given) : StoreCall (Option CacheEntry)
  | cache (user scope : Given) (bundle : Bundle) (checksum : Given)
      (generatedAt expiresAt : Option Instant) : StoreCall CacheEntry
  | markUser (user reason : Given) : StoreCall Nat
  | markScope (user scope reason : Given) : StoreCall Bool
  | markTenant (reason : Given) : StoreCall Nat
  | uncache (user scope : Given) : StoreCall Nat

namespace StoreCall

def call (tenant : Given) : StoreCall α → Call α
  | policy? key => AccessStore.policy? tenant key
  | policyRowById? id => AccessStore.policyRowById? tenant id
  | policies offset limit => AccessStore.policies tenant offset limit
  | savePolicy d actor => AccessStore.savePolicy tenant d actor
  | removePolicy key => AccessStore.removePolicy tenant key
  | role? key => AccessStore.role? tenant key
  | roleRowById? id => AccessStore.roleRowById? tenant id
  | roleRows offset limit => AccessStore.roleRows tenant offset limit
  | roles => AccessStore.roles tenant
  | rolesUsing policy => AccessStore.rolesUsing tenant policy
  | saveRole d actor => AccessStore.saveRole tenant d actor
  | removeRole key => AccessStore.removeRole tenant key
  | assignment? id => AccessStore.assignment? tenant id
  | assignments user liveOnly => AccessStore.assignments tenant user liveOnly
  | liveAssignment? user role scope => AccessStore.liveAssignment? tenant user role scope
  | countLive role => AccessStore.countLive tenant role
  | createAssignment d grantedAt => AccessStore.createAssignment tenant d grantedAt
  | setStatus id status actor => AccessStore.setStatus tenant id status actor
  | expireAssignments now => AccessStore.expireAssignments tenant now
  | user? id => Directory.user? tenant id
  | customer? id => Directory.customer? tenant id
  | primaryGroup? user => Directory.primaryGroup? tenant user
  | cached? user scope => BundleCache.get? tenant user scope
  | cache user scope bundle checksum generatedAt expiresAt =>
    BundleCache.put tenant user scope bundle checksum generatedAt expiresAt
  | markUser user reason => BundleCache.invalidateUser tenant user reason
  | markScope user scope reason => BundleCache.invalidateScope tenant user scope reason
  | markTenant reason => BundleCache.invalidateTenant tenant reason
  | uncache user scope => BundleCache.delete tenant user scope

end StoreCall

section

variable {env : Environment} {tenant : Given}

theorem BundleCache.invalidateWhere_turnedAway
    (h : env.settings.checkTenant tenant = .error .tenantMissing)
    (hcache : env.canInvalidate = true) (selected : CacheRow → Bool) (reason : String) :
    IsTurnedAway env (invalidateWhere tenant selected reason) := by
  refine .read_bind ?_
  rw [if_pos hcache]
  exact (IsTurnedAway.requireTenant h).bind

theorem StoreCall.turnedAway (h : env.settings.checkTenant tenant = .error .tenantMissing)
    (hcache : env.canInvalidate = true) (op : StoreCall α) :
    IsTurnedAway env (op.call tenant) := by
  cases op with
  | markUser user reason => exact BundleCache.invalidateWhere_turnedAway h hcache _ _
  | markScope user scope reason => exact (BundleCache.invalidateWhere_turnedAway h hcache _ _).bind
  | markTenant reason => exact BundleCache.invalidateWhere_turnedAway h hcache _ _
  -- All others ask for the tenant first.
  | _ => exact (IsTurnedAway.requireTenant h).bind

end

/-! ### Rows that are read -/

theorem AssignmentRow.record_ne_tenantMissing (r : AssignmentRow) :
    r.record ≠ .error .tenantMissing := by
  unfold record AssignmentStatus.parse
  cases AssignmentStatus.ofText? r.status <;> exact nofun

theorem CacheRow.entry_ne_tenantMissing (r : CacheRow) : r.entry ≠ .error .tenantMissing := by
  unfold entry
  cases Bundle.read r.bundle <;> exact nofun

theorem Time.Stamp.instant_ne_tenantMissing (s : Stamp) : s.instant ≠ .error .tenantMissing := by
  unfold instant
  cases s.instant? <;> exact nofun

/-! ### With a tenant -/

namespace AccessStore

variable {tenant : String} (ht : tenant ≠ "")

include ht

theorem savePolicy_passes (d : PolicyDraft) (actor : Given) :
    Passes (savePolicy (some tenant) d actor) := by
  refine (Passes.requireTenant ht).bind fun _ => Passes.store.bind fun s => ?_
  refine Passes.now.bind fun _ => ?_
  split
  · exact (Passes.freshId _).bind fun _ => .saved .constraint nofun .pure
  · exact .saved .constraint nofun .pure

theorem saveRole_passes (d : RoleDraft) (actor : Given) :
    Passes (saveRole (some tenant) d actor) := by
  refine (Passes.requireTenant ht).bind fun _ => Passes.store.bind fun s => ?_
  refine Passes.now.bind fun _ => ?_
  split
  · exact (Passes.freshId _).bind fun _ => .saved .constraint nofun .pure
  · exact .saved .constraint nofun .pure

theorem createAssignment_passes (d : AssignmentDraft) (grantedAt : Option Instant) :
    Passes (createAssignment (some tenant) d grantedAt) := by
  refine (Passes.requireTenant ht).bind fun _ => .bind (.orFail .incomparable nofun _) fun _ => ?_
  refine (Passes.freshId _).bind fun _ => Passes.store.bind fun _ => ?_
  refine .bind (.orFail (.assignmentExists _ _ _) nofun _) fun ⟨s, row⟩ => ?_
  refine (Passes.write s).bind fun _ => ?_
  exact (Passes.mapM _ fun stamp => .ofExcept stamp.instant_ne_tenantMissing).bind fun _ => .pure _

theorem setStatus_passes (id status actor : Given) :
    Passes (setStatus (some tenant) id status actor) := by
  refine (Passes.requireTenant ht).bind fun _ => Passes.store.bind fun s => ?_
  dsimp only
  split
  · exact .pure none
  · refine Passes.now.bind fun _ => .bind (.orFail .constraint nofun _) fun ⟨s, row⟩ => ?_
    exact (Passes.write s).bind fun _ =>
      (Passes.ofExcept row.record_ne_tenantMissing).bind fun _ => .pure _

end AccessStore

namespace BundleCache

variable {tenant : String} (ht : tenant ≠ "")

include ht

theorem put_passes (user scope : Given) (bundle : Bundle) (checksum : Given)
    (generatedAt expiresAt : Option Instant) :
    Passes (put (some tenant) user scope bundle checksum generatedAt expiresAt) :=
  (Passes.requireTenant ht).bind fun _ => Passes.store.bind fun _ =>
    .saved .constraint nofun fun row => .ofExcept row.entry_ne_tenantMissing

theorem invalidateWhere_passes (selected : CacheRow → Bool) (reason : String) :
    Passes (invalidateWhere (some tenant) selected reason) := by
  refine Passes.read.bind fun _ => .ite ?_ (.throw _ nofun)
  exact (Passes.requireTenant ht).bind fun _ => Passes.store.bind fun _ => Passes.now.bind fun _ =>
    (Passes.write _).bind fun _ => .pure _

end BundleCache

theorem StoreCall.passes {tenant : String} (ht : tenant ≠ "") (op : StoreCall α) :
    Passes (op.call (some tenant)) := by
  have hguard := Passes.requireTenant ht
  cases op with
  | policies offset limit =>
    exact hguard.bind fun _ => Passes.store.bind fun s =>
      (Passes.window offset limit _).bind fun _ => .pure _
  | roleRows offset limit =>
    exact hguard.bind fun _ => Passes.store.bind fun s => .window offset limit _
  | savePolicy d actor => exact AccessStore.savePolicy_passes ht d actor
  | saveRole d actor => exact AccessStore.saveRole_passes ht d actor
  | removePolicy key | removeRole key | expireAssignments key | uncache user scope =>
    exact hguard.bind fun _ => Passes.store.bind fun _ => (Passes.write _).bind fun _ => .pure _
  | assignment? id =>
    exact hguard.bind fun _ => Passes.store.bind fun s =>
      .mapM _ fun row => .ofExcept row.record_ne_tenantMissing
  | assignments user liveOnly =>
    exact hguard.bind fun _ => Passes.store.bind fun s => Passes.now.bind fun _ =>
      .list_mapM (fun row => .ofExcept row.record_ne_tenantMissing) _
  | liveAssignment? user role scope =>
    exact hguard.bind fun _ => Passes.store.bind fun s => Passes.now.bind fun _ =>
      .mapM _ fun row => .ofExcept row.record_ne_tenantMissing
  | countLive role | primaryGroup? role =>
    exact hguard.bind fun _ => Passes.store.bind fun s => Passes.now.bind fun _ => .pure _
  | createAssignment d grantedAt => exact AccessStore.createAssignment_passes ht d grantedAt
  | setStatus id status actor => exact AccessStore.setStatus_passes ht id status actor
  | cached? user scope =>
    exact hguard.bind fun _ => Passes.store.bind fun s => Passes.now.bind fun _ =>
      .mapM _ fun row => .ofExcept row.entry_ne_tenantMissing
  | cache user scope bundle checksum generatedAt expiresAt =>
    exact BundleCache.put_passes ht user scope bundle checksum generatedAt expiresAt
  | markUser user reason => exact BundleCache.invalidateWhere_passes ht _ _
  | markScope user scope reason =>
    exact (BundleCache.invalidateWhere_passes ht _ _).bind fun _ => .pure _
  | markTenant reason => exact BundleCache.invalidateWhere_passes ht _ _
  -- The other look-ups answer with what the tables hold.
  | _ => exact hguard.bind fun _ => Passes.store.bind fun _ => .pure _

/-! ### Services without a tenant -/

/-- The calls of evaluation and generation, each with the type of its answers. -/
inductive RightsCall : Type → Type where
  | evaluate (user right scope : Given) : RightsCall Decision
  | evaluateBatch (user : Given) (rights : List Given) (scope : Given) :
    RightsCall Evaluation.Batch
  | grants (user scope : Given) (present : Option Stamp) : RightsCall (List Grant)
  | effective (user scope : Given) : RightsCall (List EffectivePermission)
  | generate (user : Given) (o : BundleOptions) : RightsCall Bundle
  | refresh (user scope reason : Given) : RightsCall Bundle
  | permits (user : Given) (key : DomainKey) (scope : Given) : RightsCall Bool
  | featureAccess (user : Given) (feature : String) (scope : Given) : RightsCall FeatureAccess
  | invalidate (user reason scope actor : Given) : RightsCall Nat
  | invalidateTenant (reason actor : Given) : RightsCall Nat

def RightsCall.call (tenant : Given) : RightsCall α → Call α
  | evaluate user right scope => Evaluation.evaluate tenant user right scope
  | evaluateBatch user rights scope => Evaluation.evaluateBatch tenant user rights scope
  | grants user scope present => Evaluation.grants tenant user scope present
  | effective user scope => Evaluation.effective tenant user scope
  | generate user o => Generation.generate tenant user o
  | refresh user scope reason => Generation.refresh tenant user scope reason
  | permits user key scope => Generation.permits tenant user key scope
  | featureAccess user feature scope => Generation.featureAccess tenant user feature scope
  | invalidate user reason scope actor => Generation.invalidate tenant user reason scope actor
  | invalidateTenant reason actor => Generation.invalidateTenant tenant reason actor

/-- The tenant that administration is asked to change or to show. -/
def AdministrationCall.tenant : AdministrationCall α → Given
  | policy tenant _ => tenant
  | createPolicy tenant _ _ => tenant
  | updatePolicy tenant _ _ _ => tenant
  | deletePolicy tenant _ _ => tenant
  | role tenant _ => tenant
  | createRole tenant _ _ => tenant
  | updateRole tenant _ _ _ => tenant
  | deleteRole tenant _ _ => tenant
  | assignRole tenant _ => tenant
  | revoke tenant _ _ _ => tenant
  | assignments tenant _ _ => tenant

/-- What is checked of the arguments before the first look at the tables. -/
def AdministrationCall.precheck (op : AdministrationCall α) (now : Instant) : Except Failure Unit :=
  match op with
  | assignRole _ d => do
    let _ ← checkScope (.ofText? d.scope)
    Administration.checkExpiry d.expiresAt now
  | _ => .ok ()

section

variable {env : Environment} {tenant : Given}
  (h : env.settings.checkTenant tenant = .error .tenantMissing)

include h

theorem Evaluation.grants_turnedAway (user scope : Given) (present : Option Stamp) :
    IsTurnedAway env (grants tenant user scope present) := (IsTurnedAway.requireTenant h).bind

theorem Generation.compile_turnedAway (user : Given) (o : BundleOptions) :
    IsTurnedAway env (compile tenant user o) := by
  have hprofile : IsTurnedAway env (profile tenant user) := (IsTurnedAway.requireTenant h).bind.bind
  refine .read_bind (.look (fun e => ⟨_, outcome_scopeOf o env e⟩) fun _ => ?_)
  exact .look (fun e => ⟨_, outcome_now env e⟩) fun _ => hprofile.bind

theorem Generation.generate_turnedAway (user : Given) (o : BundleOptions) :
    IsTurnedAway env (generate tenant user o) := by
  unfold generate
  split
  · exact .look (fun e => ⟨_, outcome_scopeOf o env e⟩) fun _ =>
      (IsTurnedAway.requireTenant h).bind.bind
  · exact compile_turnedAway h user o

theorem Administration.policy_turnedAway (key : Given) : IsTurnedAway env (policy tenant key) :=
  (IsTurnedAway.requireTenant h).bind.bind

theorem Administration.role_turnedAway (key : Given) : IsTurnedAway env (role tenant key) :=
  (IsTurnedAway.requireTenant h).bind.bind

end

theorem RightsCall.turnedAway {env : Environment} {tenant : Given}
    (h : env.settings.checkTenant tenant = .error .tenantMissing)
    (hcache : env.canInvalidate = true) (op : RightsCall α) :
    IsTurnedAway env (op.call tenant) := by
  have hmark := BundleCache.invalidateWhere_turnedAway h hcache
  cases op with
  | evaluate user right scope => exact (IsTurnedAway.requireTenant h).bind
  | evaluateBatch user rights scope => exact (IsTurnedAway.requireTenant h).bind
  | grants user scope present => exact Evaluation.grants_turnedAway h user scope present
  | effective user scope => exact (Evaluation.grants_turnedAway h user scope none).bind
  | generate user o => exact Generation.generate_turnedAway h user o
  | refresh user scope reason =>
    exact .look (fun e => ⟨_, Generation.outcome_scopeOf _ env e⟩) fun _ => (hmark _ _).bind.bind
  | permits user key scope => exact (Generation.generate_turnedAway h user _).bind
  | featureAccess user feature scope => exact (Generation.generate_turnedAway h user _).bind
  | invalidate user reason scope actor =>
    rw [call, Generation.invalidate]
    cases scope.nonempty? with
    | none => exact (hmark _ _).bind
    | some scope => exact (hmark _ _).bind.bind
  | invalidateTenant reason actor => exact (hmark _ _).bind

/-- Administration fails over an argument that it checks before, or else for want of the tenant. -/
theorem AdministrationCall.outcome_of_tenantMissing {env : Environment} (op : AdministrationCall α)
    (h : env.settings.checkTenant op.tenant = .error .tenantMissing) (e : Engine) :
    op.call.outcome env e =
      (do op.precheck e.clock; .error .tenantMissing, e) := by
  have hpolicy (key : Given) := Administration.policy_turnedAway h key
  have hrole (key : Given) := Administration.role_turnedAway h key
  cases op with
  | policy tenant key => exact hpolicy key e
  | createPolicy tenant p actor => exact (IsTurnedAway.requireTenant h).bind.bind e
  | updatePolicy tenant key c actor => exact (hpolicy key).bind e
  | deletePolicy tenant key actor => exact (hpolicy key).bind e
  | role tenant key => exact hrole key e
  | createRole tenant r actor => exact (IsTurnedAway.requireTenant h).bind.bind e
  | updateRole tenant key c actor => exact (hrole key).bind e
  | deleteRole tenant key actor => exact (hrole key).bind e
  | assignRole tenant d =>
    rw [call, precheck, Administration.assignRole, outcome_bind, outcome_ofExcept]
    rcases checkScope (.ofText? d.scope) with failure | scope
    · rfl
    rw [andThen_ok, outcome_bind, outcome_now, andThen_ok, outcome_bind, outcome_ofExcept]
    rcases Administration.checkExpiry d.expiresAt e.clock with failure | _
    · rfl
    · exact (hrole d.role).bind e
  | revoke tenant id actor reason => exact (IsTurnedAway.requireTenant h).bind.bind e
  | assignments tenant user liveOnly => exact (IsTurnedAway.requireTenant h).bind.bind e

/-! ### The guard -/

/-- With the guard on, whatever the tables hold: a call on them that names no tenant fails for that
and nothing else, without a trace; and one that names a tenant never fails for that. No call of
evaluation, generation or administration gets past it without a tenant, and none leaves a trace.
Where marking does not work, the calls that mark fail over that already. -/
theorem guard_covers_every_call {env : Environment} (hguard : env.settings.requireTenant = true)
    (hcache : env.canInvalidate = true) (e : Engine) :
    (∀ {α : Type} (op : StoreCall α) (tenant : Given), tenant.IsMissing →
      (op.call tenant).outcome env e = (.error .tenantMissing, e)) ∧
    (∀ {α : Type} (op : StoreCall α) (tenant : Given), ¬tenant.IsMissing →
      ((op.call tenant).outcome env e).1 ≠ .error .tenantMissing) ∧
    (∀ {α : Type} (op : RightsCall α) (tenant : Given), tenant.IsMissing →
      (op.call tenant).outcome env e = (.error .tenantMissing, e)) ∧
    ∀ {α : Type} (op : AdministrationCall α), op.tenant.IsMissing →
      op.call.outcome env e = (do op.precheck e.clock; .error .tenantMissing, e) := by
  have hcheck {tenant : Given} (h : tenant.IsMissing) :=
    Settings.checkTenant_of_isMissing hguard h
  refine ⟨fun op tenant h => op.turnedAway (hcheck h) hcache e, fun op tenant h => ?_,
    fun op tenant h => op.turnedAway (hcheck h) hcache e,
    fun op h => op.outcome_of_tenantMissing (hcheck h) e⟩
  cases tenant with
  | none => exact absurd (.inl rfl) h
  | some tenant => exact op.passes (fun hempty => h (.inr (congrArg some hempty))) env e

/-- A grant at a scope that is none, in nobody's name. -/
def namelessGrant : AdministrationCall Assignment :=
  .assignRole (some "")
    { user := some "alice", role := some "operator", scope := some "", grantedBy := some "admin"
      expiresAt := none, reason := none }

/-- In nobody's name no policy is removed and no bundle is generated, and the grant fails over its
scope. In the name of its tenant the policy is removed. -/
theorem nameless_calls_fail :
    Environment.plain.settings.requireTenant = true ∧ Environment.plain.canInvalidate = true ∧
      ((StoreCall.removePolicy (some "fans")).call none).outcome Environment.plain
        Engine.fansAllowed = (.error .tenantMissing, Engine.fansAllowed) ∧
      (((StoreCall.removePolicy (some "fans")).call (some "acme")).outcome Environment.plain
        Engine.fansAllowed).1 = .ok true ∧
      (((StoreCall.removePolicy (some "fans")).call (some "acme")).outcome Environment.plain
        Engine.fansAllowed).1 ≠ .error .tenantMissing ∧
      ((RightsCall.generate (some "alice") (.atScope none)).call (some "")).outcome
        Environment.plain Engine.fansAllowed = (.error .tenantMissing, Engine.fansAllowed) ∧
      namelessGrant.call.outcome Environment.plain Engine.fansAllowed =
        (.error (.invalidScope (.str "")), Engine.fansAllowed) := by
  have hguard : Environment.plain.settings.requireTenant = true := rfl
  have hcache : Environment.plain.canInvalidate = true := rfl
  obtain ⟨hstore, hpasses, hrights, hadministration⟩ :=
    guard_covers_every_call hguard hcache Engine.fansAllowed
  have hnamed : ¬Given.IsMissing (some "acme") := by simp [Given.IsMissing]
  refine ⟨hguard, hcache, hstore _ none (.inl rfl), rfl, hpasses _ _ hnamed,
    hrights _ _ (.inr rfl), ?_⟩
  exact hadministration namelessGrant (.inr rfl)

end Entitlements
