import Entitlements.Proofs.Evaluation.Agreement
import Entitlements.Proofs.Generation.PartialViews

/-!
How long an assignment shows in bundles. An assignment past its expiry gives no rights to whatever
is compiled from then on. But nothing is written when it expires, so nothing marks the bundles that
were compiled before, and these live for as long as their own time to live says. Along a run of
administration in which time does not go back, that is the only way for a right to outlast the
assignment it comes from: everything else that ends an assignment marks the bundles of its user.
-/

namespace Entitlements

open Time Call

/-! ### Grants as time goes on -/

/-- Has the assignment of a grant expired by a time? -/
def Grant.HasLapsed (g : Grant) (now : Instant) : Prop :=
  ∃ t, g.assignment.expiresAt = some t ∧ t ≤ now

theorem Grant.HasLapsed.later {g : Grant} {now time : Instant} (h : g.HasLapsed now)
    (hle : now ≤ time) : g.HasLapsed time := by
  obtain ⟨t, hexp, hpast⟩ := h
  exact ⟨t, hexp, Int.le_trans hpast hle⟩

/-- Time ends a grant by its expiry only. -/
theorem Store.mem_grantsWhere_or_hasLapsed {s : Store} {tenant user : Given}
    {selected : AssignmentRow → Bool} {now : Instant} {g : Grant}
    (hg : g ∈ s.grantsWhere tenant user selected now) (time : Instant) :
    g ∈ s.grantsWhere tenant user selected time ∨ g.HasLapsed time := by
  obtain ⟨a, ha, hforce, hsel, hgrant⟩ := mem_grantsWhere.1 hg
  by_cases hahead : ∀ t, a.expiresAt = some t → time < t
  · left
    exact mem_grantsWhere.2
      ⟨a, ha, ⟨hforce.tenant, hforce.user, hforce.active, hahead⟩, hsel, hgrant⟩
  · right
    push Not at hahead
    obtain ⟨t, hexp, hpast⟩ := hahead
    have hassignment : g.assignment.expiresAt = a.expiresAt :=
      congrArg Assignment.expiresAt (mem_grantsOf.1 hgrant).1
    exact ⟨t, hassignment.trans hexp, Instant.not_lt.1 hpast⟩

/-! ### Steps of administration -/

/-- Operations in the order of time, and bundles with any options. -/
def Request.IsTimely (e : Engine) : Request → Prop
  | operation op => op.IsTimely e
  | generate .. => True
  | write _ | edit _ => False

/-- Is it a request to a deployment in which the cache works, at a time that does not go back? -/
structure Administers (env env' : Environment) (e : Engine) (request : Request) : Prop
    extends Serves env env' e request where
  hasBundles : env'.hasBundles = true
  canInvalidate : env'.canInvalidate = true
  timely : request.IsTimely e

/-- Time that is moved on does not go back. -/
theorem Operation.isTimely_advance (e : Engine) {micros : Int} (h : 0 ≤ micros) :
    (moveClock none micros).IsTimely e := by
  intro time htime
  simp only [Option.getD_none, Instant.add?, Option.ite_none_right_eq_some,
    Option.some.injEq] at htime
  rw [← htime.2]
  exact Int.le_add_of_nonneg_right h

/-- A step marks what it makes stale, or changes nothing but the cache, or lets time pass. -/
inductive Engine.Proceeds (e : Engine) : Engine → Prop
  | marks {e' : Engine} : e.MarksStale e' → Proceeds e e'
  | caches (rows : List CacheRow) : Proceeds e (e.withCache rows)
  | moves {time : Instant} : e.clock ≤ time → Proceeds e { e with clock := time }

section

variable {env env' : Environment} {e e' : Engine} {request : Request}

theorem Administers.proceeds (hf : env.features.IsMap) (hnow : e.clock.inRange = true)
    (h : Administers env env' e request) : e.Proceeds (request.call.after env' e) := by
  have hf' : env'.features.IsMap := by rw [h.features]; exact hf
  have of_compiles {asked : Asked} {e' : Engine} (hcompiles : Engine.Compiles env' asked e e') :
      e.Proceeds e' := by
    rw [hcompiles.frame]
    exact .caches _
  cases request with
  | generate tenant user o =>
    rw [Request.call, after_discard]
    exact of_compiles (.generate hf' hnow tenant user o)
  | write w => exact h.timely.elim
  | edit w => exact h.timely.elim
  | operation op =>
    rcases hplain : op.isPlain with _ | _
    · rcases op.compiles_or_moves hf' hnow hplain with
        ⟨asked, -, hcompiles⟩ | ⟨setTo, micros, rfl⟩
      · exact of_compiles hcompiles
      · rw [Request.call, Operation.after_moveClock]
        rcases htime : (setTo.getD e.clock).add? micros with _ | time
        · exact .caches e.store.cache
        · exact .moves (h.timely time htime)
    · exact .marks (op.marksStale h.hasBundles h.canInvalidate hplain h.timely)

namespace Engine.Proceeds

theorem clock_le (h : e.Proceeds e') : e.clock ≤ e'.clock := by
  cases h with
  | marks h =>
    rw [h.clock]
    exact Int.le_refl e.clock.micros
  | caches rows => exact Int.le_refl e.clock.micros
  | moves hle => exact hle

theorem linked (h : e.Proceeds e') (hl : e.store.Linked e.clock) : e'.store.Linked e'.clock := by
  cases h with
  | marks h =>
    rw [h.clock]
    exact h.linked hl
  | caches rows => exact Store.Linked.of_tables (s := e.store) rfl rfl rfl hl
  | moves hle => exact hl.later hle

/-- While a row stays unmarked, a grant of its user ends by expiry only. -/
theorem grant (h : e.Proceeds e') (hl : e.store.Linked e.clock) {r : CacheRow}
    (hr : r ∈ e'.store.cache) (hopen : r.invalidatedAt = none) {selected : AssignmentRow → Bool}
    {g : Grant}
    (hg : g ∈ e.store.grantsWhere (some r.tenant) (some r.userId) selected e.clock) :
    g ∈ e'.store.grantsWhere (some r.tenant) (some r.userId) selected e'.clock ∨
      g.HasLapsed e'.clock := by
  cases h with
  | marks h =>
    left
    rw [h.clock, (h.cache hl r hr hopen).2 selected]
    exact hg
  | caches rows => exact .inl hg
  | moves hle => exact Store.mem_grantsWhere_or_hasLapsed hg _

end Engine.Proceeds

end

/-! ### Runs of administration -/

/-- What holds of every engine on a run of administration. -/
structure Engine.InOrder (e : Engine) : Prop where
  inRange : e.clock.inRange = true
  linked : e.store.Linked e.clock

section

variable {env : Environment} {start e : Engine}

theorem Engine.InOrder.step {env' : Environment} {request : Request} (hf : env.features.IsMap)
    (h : e.InOrder) (hadmitted : Administers env env' e request) :
    (request.call.after env' e).InOrder where
  inRange := by
    rcases Request.compiles_or_addsNothing hf h.inRange hadmitted.toServes with
      ⟨asked, -, hcompiles⟩ | hadds
    · rw [hcompiles.frame]
      exact h.inRange
    · exact hadds.inRange
  linked := (hadmitted.proceeds hf h.inRange).linked h.linked

theorem inOrder_of_course (hf : env.features.IsMap) (hstart : start.InOrder)
    (h : Course (Administers env) start e) : e.InOrder := by
  induction h with
  | nil => exact hstart
  | step env' request _ hadmitted ih => exact ih.step hf hadmitted

/-- As long as an unmarked row is kept, each grant of its user is there until it expires. -/
theorem grant_or_hasLapsed_of_holding (hf : env.features.IsMap) (hstart : start.InOrder)
    {r : CacheRow} (hopen : r.invalidatedAt = none) {selected : AssignmentRow → Bool} {g : Grant}
    (hg : g ∈ start.store.grantsWhere (some r.tenant) (some r.userId) selected start.clock)
    (h : Course (Holding (Administers env) r) start e) :
    e.InOrder ∧
      (g ∈ e.store.grantsWhere (some r.tenant) (some r.userId) selected e.clock ∨
        g.HasLapsed e.clock) := by
  induction h with
  | nil => exact ⟨hstart, .inl hg⟩
  | step env' request _ hholding ih =>
    obtain ⟨hadmitted, hr⟩ := hholding
    obtain ⟨horder, hstands⟩ := ih
    have hproceeds := hadmitted.proceeds hf horder.inRange
    refine ⟨horder.step hf hadmitted, ?_⟩
    rcases hstands with hthere | hlapsed
    · exact hproceeds.grant horder.linked hr hopen hthere
    · exact .inr (hlapsed.later hproceeds.clock_le)

end

/-! ### Bundles -/

/-- A bundle lists as allowed what is listed in reach and what nothing in reach denies. -/
theorem Store.mem_allowed_iff {s : Store} {tenant user : Given} {scope : String} {now : Instant}
    {text : String} (hscope : scope ≠ "*") :
    text ∈ (FlatPermissions.ofPermissions
        (effectivePermissions (s.grantsFor tenant user (some scope) now))).allowed ↔
      s.Lists tenant user (some scope) now text ∧
        ¬s.Denies tenant user (some scope) now (some text) := by
  rw [FlatPermissions.mem_allowed_iff, grantsFor_eq_grantsAt hscope, exists_grantsAt_lists_iff,
    ← exists_grantsAt_denies_iff]
  simp

/-- Does a policy that an assignment leads to list a text as allowed? -/
def Store.Lends (s : Store) (tenant : Given) (a : AssignmentRow) (text : String) : Prop :=
  ∃ g ∈ s.grantsOf tenant a, text ∈ g.policy.allow

namespace Generation

variable {env : Environment} {e : Engine} {tenant user : Given} {o : BundleOptions} {b : Bundle}

/-- What is listed in a bundle is listed by a grant it was compiled from. -/
theorem exists_grant_of_mem_allowed (h : fresh env e tenant user o = .ok b) {text : String}
    (htext : text ∈ b.permissions.allowed) :
    ∃ g ∈ e.store.grantsFor tenant user (some (scopeFor env o)) e.clock,
      text ∈ g.policy.allow := by
  have hflat : b.permissions = if o.withFlat then
      (rights env e tenant user o).permissions else FlatPermissions.none :=
    congrArg Views.permissions (shown_of_fresh h).2.2
  rw [hflat] at htext
  split at htext
  · exact (FlatPermissions.mem_allowed_iff.1 htext).1
  · cases htext

/-- An answer is compiled now, or it is that of a hit. -/
theorem fresh_or_hit_of_generate (hf : env.features.IsMap) (hnow : e.clock.inRange = true)
    (h : ((generate tenant user o).outcome env e).1 = .ok b) :
    fresh env e tenant user o = .ok b ∨
      o.useCache = true ∧ ∃ row, row.entry.map (·.bundle) = .ok b ∧
        e.store.cacheHit? tenant user (some (scopeFor env o)) e.clock = some row := by
  cases huse : o.useCache with
  | false =>
    rw [outcome_generate_uncached tenant user o env e huse] at h
    exact .inl h
  | true =>
    rcases hg : env.settings.checkTenant tenant with failure | _
    · simp [generate, huse, BundleCache.get?, hg] at h
    rcases hhit : e.store.cacheHit? tenant user (some (scopeFor env o)) e.clock with _ | row
    · left
      rw [outcome_generate_miss huse hg hhit] at h
      rcases hfresh : fresh env e tenant user o with failure | b'
      · simp [compileAndCache, hfresh] at h
      · obtain ⟨t, u, rfl, rfl⟩ := exists_names_of_fresh hfresh
        rw [outcome_compileAndCache hf hnow hfresh] at h
        exact h
    · rw [outcome_generate_hit huse hg hhit] at h
      exact .inr ⟨rfl, row, h, rfl⟩

/-- Along every run of administration, what a bundle lists as allowed is in the allow list of a
policy that an assignment in force leads to; or else the bundle is from the cache, its time to live
is not over, and an assignment that led to such a policy when the bundle was compiled has expired
since then. -/
theorem allowed_is_lent_or_lapsed (env : Environment) (hf : env.features.IsMap) {clock : Instant}
    (hclock : clock.inRange = true) {scheme : IdScheme} {e : Engine}
    (hrun : Course (Administers env) (Engine.empty clock scheme) e)
    (h : ((generate tenant user o).outcome env e).1 = .ok b) {text : String}
    (htext : text ∈ b.permissions.allowed) :
    (∃ a ∈ e.store.assignments, a.InForce tenant user e.clock ∧ e.store.Lends tenant a text) ∨
      o.useCache = true ∧ e.clock < b.metadata.expiresAt.reading ∧
        ∃ row, ∃ x : Origin env (Administers env) (Engine.empty clock scheme) e row,
          x.bundle = b ∧
          ∃ a ∈ x.stored.store.assignments, a.InForce tenant user x.stored.clock ∧
            x.stored.store.Lends tenant a text ∧ ∃ t, a.expiresAt = some t ∧ t ≤ e.clock := by
  have hstart : (Engine.empty clock scheme).InOrder := ⟨hclock, Store.linked_empty clock⟩
  have horder := inOrder_of_course hf hstart hrun
  rcases fresh_or_hit_of_generate hf horder.inRange h with hfresh | ⟨huse, row, hread, hhit⟩
  · left
    obtain ⟨g, hg, hlisted⟩ := exists_grant_of_mem_allowed hfresh htext
    obtain ⟨a, ha, hforce, -, hgrant⟩ := Store.mem_grantsWhere.1 hg
    exact ⟨a, ha, hforce, g, hgrant, hlisted⟩
  · obtain ⟨hmem, ⟨rfl, rfl, hscope⟩, hopen, hahead⟩ := Store.of_cacheHit? hhit
    obtain ⟨x⟩ := (exists_origin hf (fun _ _ _ h => h.toServes) rfl hclock hrun).2 row hmem hopen
    obtain rfl : x.bundle = b := Except.ok.inj (x.holds.entry.symm.trans hread)
    have hend : row.expiresAt = x.bundle.metadata.expiresAt.reading :=
      congrArg CacheRow.expiresAt x.holds.row
    obtain ⟨g, hg, hlisted⟩ := exists_grant_of_mem_allowed x.fresh_stored htext
    -- The grant was there when the bundle was stored, and only its expiry can have ended it.
    have hstored := inOrder_of_course hf hstart (x.run.step _ _ x.admitted)
    rcases (grant_or_hasLapsed_of_holding hf hstored hopen hg x.rest).2 with hthere | hlapsed
    · obtain ⟨a, ha, hforce, -, hgrant⟩ := Store.mem_grantsWhere.1 hthere
      exact .inl ⟨a, ha, hforce, g, hgrant, hlisted⟩
    · obtain ⟨a, ha, hforce, -, hgrant⟩ := Store.mem_grantsWhere.1 hg
      obtain ⟨t, hexp, hpast⟩ := hlapsed
      have hassignment : g.assignment.expiresAt = a.expiresAt :=
        congrArg Assignment.expiresAt (Store.mem_grantsOf.1 hgrant).1
      refine .inr ⟨huse, hend ▸ hahead, row, x, rfl, a, ha, hforce, ⟨g, hgrant, hlisted⟩, t, ?_,
        hpast⟩
      exact hassignment.symm.trans hexp

end Generation

/-! ### A bundle that outlives an assignment -/

namespace Engine

/-- Calls that let a user start fans for a minute. -/
def lendFans : List Operation :=
  allowFans.take 3 ++
    [.assignRole (some "acme")
      { user := some "alice", role := some "operator", scope := some "tenant:*"
        grantedBy := some "admin", expiresAt := some (.utc ⟨60 * Instant.microsPerSecond⟩)
        reason := none }]

/-- The engine after these calls. -/
def fansLent : Engine :=
  lendFans.foldl (fun e op => op.call.after Environment.plain e) (start ⟨0⟩ false)

/-- The only assignment after these calls. -/
def fansLoan : AssignmentRow :=
  { AssignmentRow.plain "acme" "ra-0001" "alice" "operator" "tenant:*" with
    grantedBy := "admin", updatedBy := some "admin"
    expiresAt := some ⟨60 * Instant.microsPerSecond⟩ }

theorem fansLent_lists :
    fansLent.store.Lists (some "acme") (some "alice") (some "tenant:*") ⟨0⟩
      "hvac.fan.roof:start" := by
  refine ⟨{ Role.plain "operator" ["fans"] with id := "rl-0001", displayName := "Operator" },
    { Policy.plain "fans" ["hvac.fan.roof:start"] [] with
      id := "po-0001", displayName := "Fans" }, ⟨fansLoan, List.mem_singleton_self _, ?_, by decide,
      rfl, "fans", List.mem_singleton_self _, rfl⟩, List.mem_singleton_self _⟩
  exact ⟨rfl, rfl, rfl, fun t ht => by cases ht; decide⟩

end Engine

/-- The bundle that was generated right after these calls is still a hit two minutes later. -/
theorem Generation.exists_hit_of_fansLent :
    ∃ e b, Course (Administers Environment.plain) (Engine.start ⟨0⟩ false) e ∧
      (generate (some "acme") (some "alice") (.atScope (some "tenant:*"))).outcome
        Environment.plain e = (.ok b, e) ∧
      "hvac.fan.roof:start" ∈ b.permissions.allowed ∧
      e.store.assignments = [Engine.fansLoan] ∧ e.clock = ⟨120 * Instant.microsPerSecond⟩ := by
  have hf := FeatureTable.isMap_builtIn
  have hnow : Engine.fansLent.clock.inRange = true := by decide
  have hmiss : Engine.fansLent.store.cacheHit? (some "acme") (some "alice")
      (some (scopeFor Environment.plain (.atScope (some "tenant:*")))) Engine.fansLent.clock =
        none := rfl
  have huser : (Engine.fansLent.store.user? (some "acme") (some "alice")).isSome = true := rfl
  have hspan : spanFor Environment.plain (.atScope (some "tenant:*")) Engine.fansLent.clock =
      .ok (300, ⟨300000000⟩) := rfl
  obtain ⟨profile, hfresh⟩ := exists_fresh rfl huser hspan
  have hafter := Request.after_of_miss hf hnow rfl hmiss hfresh
  have hlent : Course (Administers Environment.plain) (Engine.start ⟨0⟩ false) Engine.fansLent := by
    refine Course.nil.operations fun op hop e => ⟨serves_operation _ e op, rfl, rfl, ?_⟩
    simp only [Engine.lendFans, Engine.allowFans, List.take, List.mem_append, List.mem_cons,
      List.not_mem_nil, or_false] at hop
    rcases hop with (rfl | rfl | rfl) | rfl <;> trivial
  have hcached := hlent.step Environment.plain
    (.generate (some "acme") (some "alice") (.atScope (some "tenant:*")))
    ⟨serves_generate _ _ _ _ _, rfl, rfl, trivial⟩
  rw [hafter] at hcached
  have hmoved := hcached.step Environment.plain
    (.operation (.moveClock none (120 * Instant.microsPerSecond)))
    ⟨serves_operation _ _ _, rfl, rfl, Operation.isTimely_advance _ (by decide)⟩
  rw [Request.call, Operation.after_moveClock] at hmoved
  have hread := (CacheRow.holds_rowOf hf hnow hfresh).entry
  have hdeny : ∀ row ∈ Engine.fansLent.store.policies, row.record.deny = [] := by
    intro row hrow
    rw [List.mem_singleton.1 hrow]
    rfl
  have hlisted := (Store.mem_allowed_iff (by decide)).2
    ⟨Engine.fansLent_lists, Store.not_denies_of_policies hdeny⟩
  refine ⟨_, bundleOf Environment.plain Engine.fansLent (some "acme") (some "alice")
    (.atScope (some "tenant:*")) profile 300 ⟨300000000⟩, hmoved, ?_, hlisted, rfl, rfl⟩
  rw [outcome_generate_hit (o := .atScope (some "tenant:*")) rfl rfl rfl, hread]

/-- Two minutes after the loan for a minute was cached, the bundle still lists it. -/
theorem Generation.loan_is_listed_after_expiry :
    ∃ e b, Course (Administers Environment.plain) (Engine.start ⟨0⟩ false) e ∧
      (generate (some "acme") (some "alice") (.atScope (some "tenant:*"))).outcome
        Environment.plain e = (.ok b, e) ∧
      "hvac.fan.roof:start" ∈ b.permissions.allowed ∧
      (¬∃ a ∈ e.store.assignments, a.InForce (some "acme") (some "alice") e.clock) ∧
      e.clock < b.metadata.expiresAt.reading := by
  obtain ⟨e, b, hrun, hanswer, htext, hassignments, hclock⟩ := exists_hit_of_fansLent
  have hnone : ¬∃ a ∈ e.store.assignments, a.InForce (some "acme") (some "alice") e.clock := by
    rintro ⟨a, ha, hforce⟩
    rw [hassignments] at ha
    have hexp : a.expiresAt = some ⟨60 * Instant.microsPerSecond⟩ := by
      rw [List.mem_singleton.1 ha]
      rfl
    have hahead := hforce.ahead _ hexp
    rw [hclock] at hahead
    exact absurd hahead (by decide)
  rcases allowed_is_lent_or_lapsed Environment.plain FeatureTable.isMap_builtIn rfl hrun
    (congrArg Prod.fst hanswer) htext with ⟨a, ha, hforce, -⟩ | ⟨-, hend, -⟩
  · exact (hnone ⟨a, ha, hforce⟩).elim
  · exact ⟨e, b, hrun, hanswer, htext, hnone, hend⟩

end Entitlements
