import Entitlements.Proofs.Generation.Coherence

/-!
Coherence along every run. A run starts with empty tables and is made of the calls of
administration, of generating and checking with all views, of invalidation, of clean-up, of seeding
the directory, and of time moving on. Where events go, and whether another writer comes in between,
may be different for each call. What a call does to the cache is coherent however it ends, so
whatever bundle is still a hit shows the rights of the moment, up to an expiry that has come since
it was compiled.
-/

namespace Entitlements

open Time Call

/-! ### Steps without administration -/

theorem Maintenance.outcome_timeOf (env : Environment) (e : Engine) (present : Option Stamp) :
    (timeOf present).outcome env e = (.ok (present.elim e.clock (·.reading)), e) := by
  cases present <;> rfl

namespace Engine.MarksStale

open Maintenance (outcome_timeOf)

variable (env : Environment) (e : Engine)

theorem removeWhere (selected : CacheRow → Bool) :
    e.MarksStale ((BundleCache.removeWhere selected).after env e) := by
  have hmarks : e.Marks ((BundleCache.removeWhere selected).after env e) fun _ => True :=
    ⟨rfl, rfl, rfl, rfl, rfl, fun r hr _ => ⟨(List.mem_filter.1 hr).1, trivial⟩⟩
  exact of_marks hmarks

theorem pruneExpired (present : Option Stamp) :
    e.MarksStale ((Maintenance.pruneExpired present).after env e) := by
  rw [Maintenance.pruneExpired, after_bind_of_ok (outcome_timeOf env e present)]
  exact removeWhere env e _

theorem pruneInvalidated (days : Option Int) (present : Option Stamp) :
    e.MarksStale ((Maintenance.pruneInvalidated days present).after env e) := by
  rw [Maintenance.pruneInvalidated, after_bind_of_ok (outcome_read env e)]
  dsimp only
  rw [after_bind_of_ok (outcome_timeOf env e present)]
  refine after_bind_of_outcome (outcome_orFail env e _ _) (.refl e) fun cutoff _ => ?_
  exact removeWhere env e _

/-- An expiry that has come can be recorded unseen. -/
theorem expireAssignments (tenant : Given) {present : Option Stamp}
    (hpast : ∀ stamp, present = some stamp → stamp.reading ≤ e.clock) :
    e.MarksStale ((Maintenance.expireAssignments tenant present).after env e) := by
  rw [Maintenance.expireAssignments, after_bind_of_ok (outcome_timeOf env e present)]
  have hle : present.elim e.clock (·.reading) ≤ e.clock := by
    cases present with
    | none => exact Int.le_refl e.clock.micros
    | some stamp => exact hpast stamp rfl
  refine after_bind_of_outcome (outcome_requireTenant env e tenant) (.refl e) fun _ _ => ?_
  rw [after_bind_of_ok (outcome_store env e), after_bind_of_ok (outcome_write env e _)]
  exact of_invisible rfl (Store.changes_expireWhere hle)

/-- Scheduled tasks go by the clock. -/
theorem runTask (task tenant : Given) (days : Option Int) :
    e.MarksStale ((Maintenance.run task tenant days).after env e) := by
  unfold Maintenance.run
  split
  · exact .refl e
  · exact pruneExpired env e none
  · exact pruneInvalidated env e days none
  · split
    · refine expireAssignments env e tenant ?_
      rintro stamp ⟨⟩
    · exact .refl e

theorem add {insert? : Store → Option Store}
    (h : ∀ s', insert? e.store = some s' → e.store.Changes s' e.clock fun _ _ => False) :
    e.MarksStale ((Directory.add insert?).after env e) := by
  rw [Directory.add, after_bind_of_ok (outcome_store env e)]
  refine after_bind_of_outcome (outcome_orFail env e _ _) (.refl e) fun s' hs' => ?_
  exact of_invisible rfl (h s' (eq_some_of_elim hs'))

end Engine.MarksStale

/-! ### Operations -/

/-- The calls that a run is made of. -/
inductive Operation where
  | createPolicy (tenant : Given) (policy : NewPolicy) (actor : Given)
  | updatePolicy (tenant key : Given) (change : PolicyChange) (actor : Given)
  | deletePolicy (tenant key actor : Given)
  | createRole (tenant : Given) (role : NewRole) (actor : Given)
  | updateRole (tenant key : Given) (change : RoleChange) (actor : Given)
  | deleteRole (tenant key actor : Given)
  | assignRole (tenant : Given) (draft : AssignmentDraft)
  | revoke (tenant id actor reason : Given)
  | generate (tenant user scope : Given) (useCache : Bool) (lifetime : Option Lifetime)
  | refresh (tenant user scope reason : Given)
  | permits (tenant user : Given) (key : DomainKey) (scope : Given)
  | featureAccess (tenant user : Given) (feature : String) (scope : Given)
  | invalidate (tenant user reason scope actor : Given)
  | invalidateTenant (tenant reason actor : Given)
  | pruneExpired (present : Option Stamp)
  | pruneInvalidated (days : Option Int) (present : Option Stamp)
  | expireAssignments (tenant : Given) (present : Option Stamp)
  | runTask (task tenant : Given) (days : Option Int)
  | addUser (tenant id email : Given) (customerId : Option String)
  | addCustomer (tenant id name : Given)
  | addGroup (tenant id key name : Given)
  | addMember (tenant id group user : Given) (assignedAt expiresAt : Option Stamp)
  | moveClock (setTo : Option Instant) (micros : Int)

namespace Operation

def call : Operation → Call Unit
  | createPolicy tenant policy actor => discard (Administration.createPolicy tenant policy actor)
  | updatePolicy tenant key change actor =>
    discard (Administration.updatePolicy tenant key change actor)
  | deletePolicy tenant key actor => Administration.deletePolicy tenant key actor
  | createRole tenant role actor => discard (Administration.createRole tenant role actor)
  | updateRole tenant key change actor =>
    discard (Administration.updateRole tenant key change actor)
  | deleteRole tenant key actor => Administration.deleteRole tenant key actor
  | assignRole tenant draft => discard (Administration.assignRole tenant draft)
  | revoke tenant id actor reason => discard (Administration.revoke tenant id actor reason)
  | generate tenant user scope useCache lifetime =>
    discard (Generation.generate tenant user (.full scope useCache lifetime))
  | refresh tenant user scope reason => discard (Generation.refresh tenant user scope reason)
  | permits tenant user key scope => discard (Generation.permits tenant user key scope)
  | featureAccess tenant user feature scope =>
    discard (Generation.featureAccess tenant user feature scope)
  | invalidate tenant user reason scope actor =>
    discard (Generation.invalidate tenant user reason scope actor)
  | invalidateTenant tenant reason actor =>
    discard (Generation.invalidateTenant tenant reason actor)
  | pruneExpired present => discard (Maintenance.pruneExpired present)
  | pruneInvalidated days present => discard (Maintenance.pruneInvalidated days present)
  | expireAssignments tenant present => discard (Maintenance.expireAssignments tenant present)
  | runTask task tenant days => discard (Maintenance.run task tenant days)
  | addUser tenant id email customerId => Directory.addUser tenant id email customerId
  | addCustomer tenant id name => Directory.addCustomer tenant id name
  | addGroup tenant id key name => Directory.addGroup tenant id key name
  | addMember tenant id group user assignedAt expiresAt =>
    Directory.addMember tenant id group user assignedAt expiresAt
  | moveClock setTo micros => discard (Call.moveClock setTo micros)

/-- Does time not go back? The clock is not set to an earlier time, and a pass over assignments goes
by the clock, as every scheduled one does, or by a time that the clock has come to. -/
def IsTimely (e : Engine) : Operation → Prop
  | expireAssignments _ present => ∀ stamp, present = some stamp → stamp.reading ≤ e.clock
  | moveClock setTo micros => ∀ time, (setTo.getD e.clock).add? micros = some time → e.clock ≤ time
  | _ => True

/-- Is it a call that neither compiles bundles nor moves the clock? -/
def isPlain : Operation → Bool
  | generate .. | refresh .. | permits .. | featureAccess .. | moveClock .. => false
  | _ => true

/-- Whatever is not compiled anew has been marked by the time a call ends, however it ends. -/
theorem marksStale {env : Environment} {e : Engine} (hb : env.hasBundles = true)
    (hm : env.canInvalidate = true) (op : Operation) (hplain : op.isPlain = true)
    (htimely : op.IsTimely e) : e.MarksStale (op.call.after env e) := by
  cases op with
  | createPolicy tenant policy actor =>
    rw [call, after_discard]
    exact Administration.createPolicy_marksStale hb hm e tenant actor policy
  | updatePolicy tenant key change actor =>
    rw [call, after_discard]
    exact Administration.updatePolicy_marksStale hb hm e tenant key actor change
  | deletePolicy tenant key actor =>
    exact Administration.deletePolicy_marksStale hb hm e tenant key actor
  | createRole tenant role actor =>
    rw [call, after_discard]
    exact Administration.createRole_marksStale hb hm e tenant actor role
  | updateRole tenant key change actor =>
    rw [call, after_discard]
    exact Administration.updateRole_marksStale hb hm e tenant key actor change
  | deleteRole tenant key actor =>
    exact Administration.deleteRole_marksStale hb hm e tenant key actor
  | assignRole tenant draft =>
    rw [call, after_discard]
    exact Administration.assignRole_marksStale hb hm e tenant draft
  | revoke tenant id actor reason =>
    rw [call, after_discard]
    exact Administration.revoke_marksStale hb hm e tenant actor id reason
  | invalidate tenant user reason scope actor =>
    rw [call, after_discard]
    exact .of_marks (Generation.invalidate_only_marks env e tenant user reason scope actor)
  | invalidateTenant tenant reason actor =>
    rw [call, after_discard]
    exact .of_marks (Generation.invalidateTenant_only_marks env e tenant reason actor)
  | pruneExpired present =>
    rw [call, after_discard]
    exact .pruneExpired env e present
  | pruneInvalidated days present =>
    rw [call, after_discard]
    exact .pruneInvalidated env e days present
  | expireAssignments tenant present =>
    rw [call, after_discard]
    exact .expireAssignments env e tenant htimely
  | runTask task tenant days =>
    rw [call, after_discard]
    exact .runTask env e task tenant days
  | addUser tenant id email customerId =>
    exact .add env e fun _ => Store.changes_insertUser?
  | addCustomer tenant id name =>
    exact .add env e fun _ => Store.changes_insertCustomer?
  | addGroup tenant id key name =>
    exact .add env e fun _ => Store.changes_insertGroup?
  | addMember tenant id group user assignedAt expiresAt =>
    exact .add env e fun _ => Store.changes_insertMember?
  | _ => cases hplain

end Operation

/-- The engines that a deployment can get to. Each call may find another sink, one that refuses
included, and may or may not be overtaken. -/
inductive Run (env : Environment) (start : Engine) : Engine → Prop
  | nil : Run env start start
  | step {e : Engine} (op : Operation) (sink : Sink) (isOvertaken : Bool) :
    Run env start e → op.IsTimely e →
      Run env start (op.call.after { env with sink, isOvertaken } e)

/-- Calls one after another, none of which depends on the time. -/
theorem run_of_operations {env : Environment} {start e : Engine} (h : Run env start e)
    {ops : List Operation} (htimely : ∀ op ∈ ops, ∀ e, op.IsTimely e) :
    Run env start (ops.foldl (fun e op => op.call.after env e) e) := by
  induction ops generalizing e with
  | nil => exact h
  | cons op ops ih =>
    have hop := Run.step op env.sink env.isOvertaken h (htimely op List.mem_cons_self e)
    exact ih hop fun op hop => htimely op (List.mem_cons_of_mem _ hop)

namespace Engine

variable {env : Environment} {e : Engine}

/-- Generating within a call that only has a look at the bundle. -/
theorem Coherent.generated (hf : env.features.IsMap) (hc : e.Coherent env.settings env.features)
    (tenant user scope : Given) (f : Bundle → α) :
    ((do return f (← Generation.generate tenant user (.atScope scope)) : Call α).after env
      e).Coherent env.settings env.features := by
  exact after_bind_of_after (hc.generate hf tenant user scope true none) fun _ _ hc' => hc'

/-- One call, however it ends. -/
theorem Coherent.step (env : Environment) (hf : env.features.IsMap) (hb : env.hasBundles = true)
    (hm : env.canInvalidate = true) (hc : e.Coherent env.settings env.features) (op : Operation)
    (htimely : op.IsTimely e) : (op.call.after env e).Coherent env.settings env.features := by
  cases op with
  | generate tenant user scope useCache lifetime =>
    rw [Operation.call, after_discard]
    exact hc.generate hf tenant user scope useCache lifetime
  | refresh tenant user scope reason =>
    rw [Operation.call, after_discard]
    exact hc.refresh hf tenant user scope reason
  | permits tenant user key scope =>
    rw [Operation.call, after_discard]
    exact hc.generated hf tenant user scope fun b => b.permits key
  | featureAccess tenant user feature scope =>
    rw [Operation.call, after_discard]
    exact hc.generated hf tenant user scope fun b => b.featureAccess feature
  | moveClock setTo micros =>
    rw [Operation.call, after_discard, after, outcome_moveClock]
    rcases htime : (setTo.getD e.clock).add? micros with _ | time
    · exact hc
    · exact hc.later (Instant.add?_inRange htime) (htimely time htime)
  | _ => exact hc.of_marksStale (Operation.marksStale hb hm _ rfl htimely)

/-- A whole run. -/
theorem coherent_of_run (hf : env.features.IsMap) (hb : env.hasBundles = true)
    (hm : env.canInvalidate = true) {clock : Instant} (hclock : clock.inRange = true)
    {scheme : IdScheme} (h : Run env (empty clock scheme) e) :
    e.Coherent env.settings env.features := by
  induction h with
  | nil => exact coherent_empty clock scheme hclock
  | step op sink isOvertaken _ htimely ih =>
    -- The invariant looks at the settings and the feature table, which every step shares.
    exact Coherent.step { env with sink, isOvertaken } hf hb hm ih op htimely

/-- Along every run, a bundle that is a hit shows the rights of its user as they are now: its views
are those of a bundle generated past the cache, unless an assignment of the user has expired since
it was compiled. -/
theorem hit_shows_current_rights (env : Environment) (hf : env.features.IsMap)
    (hb : env.hasBundles = true) (hm : env.canInvalidate = true) {clock : Instant}
    (hclock : clock.inRange = true) {scheme : IdScheme} {e : Engine}
    (hrun : Run env (empty clock scheme) e) {tenant user scope : Given} {row : CacheRow}
    (hhit : e.store.cacheHit? tenant user scope e.clock = some row)
    (hlapse : ¬e.store.LapsesBetween row.tenant row.userId row.generatedAt e.clock) :
    ∃ entry, (BundleCache.get? tenant user scope).outcome env e = (.ok (some entry), e) ∧
      ∀ lifetime limits, Generation.spanFor env (.full scope false lifetime) e.clock = .ok limits →
        ∃ b, (Generation.generate tenant user (.full scope false lifetime)).outcome env e =
            (.ok b, e) ∧
          b.views = entry.bundle.views := by
  have hfound := List.find?_some hhit
  have hmem := List.mem_of_find?_eq_some hhit
  simp only [CacheRow.hasKey, CacheRow.isHit, Bool.and_eq_true, beq_iff_eq,
    Option.isNone_iff_eq_none] at hfound
  obtain ⟨⟨⟨rfl, rfl⟩, rfl⟩, hopen, -⟩ := hfound
  -- The row is unmarked, so the invariant of the run speaks of it.
  obtain ⟨hg, huser, hscope, -, b, hread, hviews⟩ :=
    (coherent_of_run hf hb hm hclock hrun).rows row hmem hopen
  obtain ⟨entry, hentry, hbundle⟩ := CacheRow.exists_entry hread
  refine ⟨entry, ?_, ?_⟩
  · simp [BundleCache.get?, hg, hhit, hentry]
  · rintro lifetime ⟨ttlSeconds, expiresAt⟩ hspan
    obtain ⟨profile, hfresh⟩ := Generation.exists_fresh hg huser hspan
    have hgenerated := Generation.outcome_generate_uncached (some row.tenant) (some row.userId)
      (.full (some row.scope) false lifetime) env e rfl
    rw [hfresh] at hgenerated
    refine ⟨_, hgenerated, ?_⟩
    obtain ⟨hat, -, hshown⟩ := Generation.views_of_fresh hfresh
    rw [hscope] at hat
    rw [hbundle, hshown, hat, hviews hlapse]

/-- Calls that let a user start fans. -/
def allowFans : List Operation :=
  [.addUser (some "acme") (some "alice") (some "alice@example.com") none,
    .createPolicy (some "acme")
      { key := some "fans", displayName := some "Fans", allow := .ofTexts ["hvac.fan.roof:start"]
        deny := .arr [], risk := .null, conditions := .null, description := none
        isSystem := false } (some "admin"),
    .createRole (some "acme")
      { key := some "operator", displayName := some "Operator", policyKeys := .ofTexts ["fans"]
        risk := .null, description := none, tags := .arr [], isSystem := false } (some "admin"),
    .assignRole (some "acme")
      { user := some "alice", role := some "operator", scope := some "tenant:*"
        grantedBy := some "admin", expiresAt := none, reason := none }]

/-- The engine after these calls. -/
def fansAllowed : Engine :=
  allowFans.foldl (fun e op => op.call.after Environment.plain e) (start ⟨0⟩ false)

/-- The user's bundle, generated right after these calls, is a hit. -/
theorem exists_hit_of_fansAllowed :
    ∃ row, Run Environment.plain (start ⟨0⟩ false) (Generation.cached fansAllowed row) ∧
      (Generation.cached fansAllowed row).store.cacheHit? (some "acme") (some "alice")
        (some "tenant:*") ⟨0⟩ = some row := by
  have hrun : Run Environment.plain (start ⟨0⟩ false) fansAllowed := by
    refine run_of_operations .nil fun op hop e => ?_
    simp only [allowFans, List.mem_cons, List.not_mem_nil, or_false] at hop
    rcases hop with rfl | rfl | rfl | rfl <;> trivial
  have huser : (fansAllowed.store.user? (some "acme") (some "alice")).isSome = true := rfl
  have hspan : Generation.spanFor Environment.plain (.full (some "tenant:*") true none)
      fansAllowed.clock = .ok (300, ⟨300000000⟩) := rfl
  have htenant : Environment.plain.settings.checkTenant (some "acme") = .ok () := rfl
  have hmiss : fansAllowed.store.cacheHit? (some "acme") (some "alice")
      (some (Generation.scopeFor Environment.plain (.full (some "tenant:*") true none)))
      fansAllowed.clock = none := rfl
  obtain ⟨profile, hfresh⟩ := Generation.exists_fresh htenant huser hspan
  have hgenerated := Generation.outcome_generate_miss rfl htenant hmiss
  rw [Generation.outcome_compileAndCache FeatureTable.isMap_builtIn rfl hfresh] at hgenerated
  have hstep := hrun.step
    (.generate (some "acme") (some "alice") (some "tenant:*") true none) .none false trivial
  rw [Operation.call, after_discard] at hstep
  have hafter := (after_eq_of_outcome hgenerated) ▸ hstep
  exact ⟨_, hafter, rfl⟩

theorem hit_of_fansAllowed :
    ∃ e entry b, Run Environment.plain (start ⟨0⟩ false) e ∧
      (BundleCache.get? (some "acme") (some "alice") (some "tenant:*")).outcome Environment.plain
        e = (.ok (some entry), e) ∧
      (Generation.generate (some "acme") (some "alice")
        (.full (some "tenant:*") false none)).outcome Environment.plain e = (.ok b, e) ∧
      b.views = entry.bundle.views := by
  obtain ⟨row, hrun, hhit⟩ := exists_hit_of_fansAllowed
  have hlapse : ¬(Generation.cached fansAllowed row).store.LapsesBetween row.tenant row.userId
      row.generatedAt ⟨0⟩ := by
    rintro ⟨a, ha, -, -, t, hexp, -⟩
    obtain rfl := List.mem_singleton.1 ha
    cases hexp
  obtain ⟨entry, hget, hall⟩ := hit_shows_current_rights Environment.plain
    FeatureTable.isMap_builtIn rfl rfl rfl hrun hhit hlapse
  obtain ⟨b, hb, hviews⟩ := hall none (300, ⟨300000000⟩) rfl
  exact ⟨_, entry, b, hrun, hget, hb, hviews⟩

end Engine

end Entitlements
