import Entitlements.Proofs.Generation.Requests

/-!
Where cached bundles come from. Only compiling makes an unmarked row; every other request marks
rows, removes them, or leaves them alone. So along a run each unmarked row leads back to the one
request that has compiled it, and it has been in the table ever since: whatever was asked for its
key in between was answered with what that request had asked for. Runs in which callers put bundles
of their own into the cache are left out, because such bundles come from nowhere.
-/

namespace Entitlements

open Time Call

/-! ### Compiling -/

/-- Who listens, or comes in between, has no part in a bundle. -/
theorem Generation.fresh_congr {env env' : Environment} (hs : env'.settings = env.settings)
    (hf : env'.features = env.features) (e : Engine) (tenant user : Given) (o : BundleOptions) :
    fresh env' e tenant user o = fresh env e tenant user o := by
  simp only [fresh, spanFor, bundleOf, scopeFor, hs, hf]

/-- Does a row hold the bundle that an engine compiles for its key under some options? -/
structure CacheRow.Holds (r : CacheRow) (env : Environment) (e : Engine) (o : BundleOptions)
    (b : Bundle) : Prop where
  fresh : Generation.fresh env e (some r.tenant) (some r.userId) o = .ok b
  row : r = Generation.rowOf r.tenant r.userId b
  entry : r.entry.map (·.bundle) = .ok b

theorem CacheRow.holds_rowOf {env : Environment} {e : Engine} {t u : String} {o : BundleOptions}
    {b : Bundle} (hf : env.features.IsMap) (hnow : e.clock.inRange = true)
    (h : Generation.fresh env e (some t) (some u) o = .ok b) :
    (Generation.rowOf t u b).Holds env e o b where
  fresh := h
  row := rfl
  entry := by
    rw [Generation.entry_rowOf (Generation.isWritable_of_fresh hf hnow h)]
    rfl

/-- The bundle that a request asks for. -/
structure Asked where
  tenant : Given
  user : Given
  options : BundleOptions

/-- Has a step done nothing but compile the bundle that was asked for, at most, and mark rows? -/
structure Engine.Compiles (env : Environment) (asked : Asked) (e e' : Engine) : Prop where
  frame : e' = e.withCache e'.store.cache
  rows : ∀ r ∈ e'.store.cache, r.invalidatedAt = none →
    r ∈ e.store.cache ∨ some r.tenant = asked.tenant ∧ some r.userId = asked.user ∧
      ∃ b, r.Holds env e asked.options b

namespace Engine.Compiles

variable {env : Environment} {asked : Asked} {e e' e'' : Engine}

theorem refl (env : Environment) (asked : Asked) (e : Engine) : Compiles env asked e e where
  frame := rfl
  rows _ hr _ := .inl hr

theorem trans (h : Compiles env asked e e') (h' : Compiles env asked e' e'') :
    Compiles env asked e e'' where
  frame := by
    rw [h'.frame, h.frame]
    rfl
  rows r hr hopen := by
    rcases h'.rows r hr hopen with hr | ⟨htenant, huser, b, hholds⟩
    · exact h.rows r hr hopen
    · -- A bundle is compiled from the tables, which are those of before.
      rw [h.frame] at hholds
      exact .inr ⟨htenant, huser, b, hholds.fresh, hholds.row, hholds.entry⟩

theorem generate (hf : env.features.IsMap) (hnow : e.clock.inRange = true) (tenant user : Given)
    (o : BundleOptions) :
    Compiles env ⟨tenant, user, o⟩ e ((Generation.generate tenant user o).after env e) := by
  rcases Generation.after_generate hf hnow tenant user o with
    hsame | ⟨t, u, b, rfl, rfl, hfresh, hcached⟩
  · rw [hsame]
    exact refl env _ e
  · rw [hcached]
    refine ⟨rfl, fun r hr hopen => ?_⟩
    rcases Store.mem_putCacheRow hr with rfl | hr
    · exact .inr ⟨rfl, rfl, b, CacheRow.holds_rowOf hf hnow hfresh⟩
    · exact .inl hr

theorem invalidateScope (env : Environment) (asked : Asked) (e : Engine)
    (tenant user scope reason : Given) :
    Compiles env asked e
      ((BundleCache.invalidateScope tenant user scope reason).after env e) := by
  have hmarks := BundleCache.invalidateScope_only_marks env e tenant user scope reason
  refine ⟨?_, fun r hr hopen => .inl (hmarks.cache r hr hopen).1⟩
  rw [BundleCache.invalidateScope, after_bind_pure]
  rcases hg : env.settings.checkTenant tenant with failure | _
  · rw [BundleCache.after_invalidateWhere_of_error hg]
    rfl
  · cases hc : env.canInvalidate
    · simp [BundleCache.invalidateWhere, after, hc, withCache]
    · rw [after_eq_of_outcome (BundleCache.outcome_invalidateWhere hc hg _ _)]
      rfl

theorem refresh (hf : env.features.IsMap) (hnow : e.clock.inRange = true)
    (tenant user scope reason : Given) :
    Compiles env
      ⟨tenant, user, .atScope (some (Generation.scopeFor env (.atScope scope)))⟩ e
      ((Generation.refresh tenant user scope reason).after env e) := by
  rw [Generation.refresh, after_bind_of_ok (Generation.outcome_scopeOf _ env e)]
  have hmarked := invalidateScope env
    ⟨tenant, user, .atScope (some (Generation.scopeFor env (.atScope scope)))⟩ e tenant user
    (some (Generation.scopeFor env (.atScope scope))) reason
  refine after_bind_of_after hmarked fun _ e' h => h.trans (generate hf ?_ tenant user _)
  rw [h.frame]
  exact hnow

end Engine.Compiles

/-! ### Requests -/

/-- Is each unmarked row of a table one of another? -/
def CacheTable.OpenIn (old rows : List CacheRow) : Prop :=
  ∀ r ∈ rows, r.invalidatedAt = none → r ∈ old

/-- Neither marking nor removing makes an unmarked row. -/
theorem CacheTable.kept_openIn (time : Instant) (old : List CacheRow) :
    Kept fun now rows _ => now = time ∧ OpenIn old rows where
  mark now rows rows' selected reason h := by
    refine ⟨h.1, fun r hr hopen => ?_⟩
    obtain ⟨q, hq, rfl⟩ := List.mem_map.1 hr
    split at hopen
    · cases hopen
    · next hspared =>
      rw [if_neg hspared]
      exact h.2 q hq hopen
  remove now rows rows' selected h := ⟨h.1, fun r hr => h.2 r (List.mem_filter.1 hr).1⟩

/-- Has a step made no unmarked row, and left the time within range? -/
structure Engine.AddsNothing (e e' : Engine) : Prop where
  inRange : e'.clock.inRange = true
  rows : CacheTable.OpenIn e.store.cache e'.store.cache

/-- A call that goes alike beside any margin, as far as unmarked rows go, makes none. -/
theorem Engine.addsNothing_of_alike {x : Call Unit} {e : Engine} (hnow : e.clock.inRange = true)
    (hx : Alike (fun now rows _ => now = e.clock ∧ CacheTable.OpenIn e.store.cache rows) Eq x x)
    (env : Environment) : e.AddsNothing (x.after env e) := by
  obtain ⟨-, -, hclock, hrows⟩ :=
    (hx env e e.margin ⟨rfl, fun r hr _ => hr⟩).engines
  exact ⟨by rw [after, hclock, hnow], hrows⟩

/-- The bundle that an operation asks for. -/
def Operation.asked? (env : Environment) : Operation → Option Asked
  | generate tenant user scope useCache lifetime =>
    some ⟨tenant, user, .full scope useCache lifetime⟩
  | refresh tenant user scope _ =>
    some ⟨tenant, user, .atScope (some (Generation.scopeFor env (.atScope scope)))⟩
  | permits tenant user _ scope | featureAccess tenant user _ scope =>
    some ⟨tenant, user, .atScope scope⟩
  | _ => none

/-- The bundle that a request asks for. -/
def Request.asked? (env : Environment) : Request → Option Asked
  | operation op => op.asked? env
  | generate tenant user o => some ⟨tenant, user, o⟩
  | write _ | edit _ => none

/-- Compiling calls are those of generation; the clock has one call of its own. -/
theorem Operation.compiles_or_moves {env : Environment} {e : Engine} (hf : env.features.IsMap)
    (hnow : e.clock.inRange = true) (op : Operation) (h : op.isPlain = false) :
    (∃ asked, op.asked? env = some asked ∧ Engine.Compiles env asked e (op.call.after env e)) ∨
      ∃ setTo micros, op = .moveClock setTo micros := by
  cases op with
  | generate tenant user scope useCache lifetime =>
    rw [call, after_discard]
    exact .inl ⟨_, rfl, .generate hf hnow tenant user _⟩
  | refresh tenant user scope reason =>
    rw [call, after_discard]
    exact .inl ⟨_, rfl, .refresh hf hnow tenant user scope reason⟩
  | permits tenant user key scope =>
    rw [call, after_discard, Generation.permits, after_bind_pure]
    exact .inl ⟨_, rfl, .generate hf hnow tenant user _⟩
  | featureAccess tenant user feature scope =>
    rw [call, after_discard, Generation.featureAccess, after_bind_pure]
    exact .inl ⟨_, rfl, .generate hf hnow tenant user _⟩
  | moveClock setTo micros => exact .inr ⟨setTo, micros, rfl⟩
  | _ => cases h

/-- Is it a request that a deployment serves? Its settings and its feature table are those of the
deployment, and it puts no bundle into the cache that the caller has made up. -/
structure Serves (env env' : Environment) (_ : Engine) (request : Request) : Prop where
  settings : env'.settings = env.settings
  features : env'.features = env.features
  compiled : ∀ w, request = .edit w → w.isPut = false

theorem serves_operation (env : Environment) (e : Engine) (op : Operation) :
    Serves env env e (.operation op) :=
  ⟨rfl, rfl, fun _ h => by cases h⟩

theorem serves_generate (env : Environment) (e : Engine) (tenant user : Given)
    (o : BundleOptions) : Serves env env e (.generate tenant user o) :=
  ⟨rfl, rfl, fun _ h => by cases h⟩

section

variable {env env' : Environment} {e : Engine} {request : Request}

theorem Engine.Compiles.congr {asked : Asked} {e' : Engine} (hs : env'.settings = env.settings)
    (hf : env'.features = env.features) (h : Compiles env' asked e e') :
    Compiles env asked e e' where
  frame := h.frame
  rows r hr hopen := by
    refine (h.rows r hr hopen).imp id ?_
    rintro ⟨htenant, huser, b, hfresh, hrow, hentry⟩
    rw [Generation.fresh_congr hs hf] at hfresh
    exact ⟨htenant, huser, b, hfresh, hrow, hentry⟩

/-- A request compiles what it asks for and does nothing else, or makes no unmarked row. -/
theorem Request.compiles_or_addsNothing (hf : env.features.IsMap) (hnow : e.clock.inRange = true)
    (h : Serves env env' e request) :
    (∃ asked, request.asked? env' = some asked ∧
        Engine.Compiles env asked e (request.call.after env' e)) ∨
      e.AddsNothing (request.call.after env' e) := by
  have hf' : env'.features.IsMap := by rw [h.features]; exact hf
  have hkept := CacheTable.kept_openIn e.clock e.store.cache
  cases request with
  | generate tenant user o =>
    rw [call, after_discard]
    have hcompiles := Engine.Compiles.generate hf' hnow tenant user o
    exact .inl ⟨_, rfl, hcompiles.congr h.settings h.features⟩
  | write w => exact .inr (Engine.addsNothing_of_alike hnow w.alike env')
  | edit w => exact .inr (Engine.addsNothing_of_alike hnow (w.alike hkept (h.compiled w rfl)) env')
  | operation op =>
    rcases hplain : op.isPlain with _ | _
    · rcases op.compiles_or_moves hf' hnow hplain with
        ⟨asked, hasked, hcompiles⟩ | ⟨setTo, micros, rfl⟩
      · exact .inl ⟨asked, hasked, hcompiles.congr h.settings h.features⟩
      · right
        rw [call, Operation.after_moveClock]
        refine ⟨?_, fun r hr _ => hr⟩
        rcases htime : (setTo.getD e.clock).add? micros with _ | time
        · exact hnow
        · exact Instant.add?_inRange htime
    · exact .inr (Engine.addsNothing_of_alike hnow (op.alike hkept hplain) env')

end

/-- A request for a bundle that is no hit but can be compiled. -/
theorem Request.after_of_miss {env : Environment} {e : Engine} (hf : env.features.IsMap)
    (hnow : e.clock.inRange = true) {t u : String} {o : BundleOptions} {b : Bundle}
    (huse : o.useCache = true)
    (hmiss : e.store.cacheHit? (some t) (some u) (some (Generation.scopeFor env o)) e.clock = none)
    (hfresh : Generation.fresh env e (some t) (some u) o = .ok b) :
    (generate (some t) (some u) o).call.after env e =
      Generation.cached e (Generation.rowOf t u b) := by
  have hg := (Generation.fresh_eq_ok_iff.1 hfresh).1
  have hmissed := Generation.outcome_generate_miss huse hg hmiss
  rw [Generation.outcome_compileAndCache hf hnow hfresh] at hmissed
  rw [call, after_discard]
  exact after_eq_of_outcome hmissed

/-! ### Runs -/

/-- Requests that leave a row in the cache. -/
def Holding (admits : Environment → Engine → Request → Prop) (r : CacheRow) (env : Environment)
    (e : Engine) (request : Request) : Prop :=
  admits env e request ∧ r ∈ (request.call.after env e).store.cache

/-- Where a row of a run comes from: the request that has compiled it, with the engine it found and
the options it had, and the rest of the run, which has kept the row. -/
structure Origin (env : Environment) (admits : Environment → Engine → Request → Prop)
    (start e : Engine) (r : CacheRow) where
  before : Engine
  environment : Environment
  request : Request
  options : BundleOptions
  bundle : Bundle
  run : Course admits start before
  admitted : admits environment before request
  asked : request.asked? environment = some ⟨some r.tenant, some r.userId, options⟩
  holds : r.Holds env before options bundle
  frame : request.call.after environment before =
    before.withCache (request.call.after environment before).store.cache
  kept : r ∈ (request.call.after environment before).store.cache
  rest : Course (Holding admits r) (request.call.after environment before) e

namespace Origin

variable {env : Environment} {admits : Environment → Engine → Request → Prop}
  {start e : Engine} {r : CacheRow}

/-- The engine that the row was first in. -/
def stored (x : Origin env admits start e r) : Engine :=
  x.request.call.after x.environment x.before

/-- Storing a bundle changes nothing that it was compiled from. -/
theorem fresh_stored (x : Origin env admits start e r) :
    Generation.fresh env x.stored (some r.tenant) (some r.userId) x.options =
      .ok x.bundle := by
  have hframe : x.stored = x.before.withCache x.stored.store.cache := x.frame
  rw [hframe]
  exact x.holds.fresh

theorem scope_eq (x : Origin env admits start e r) :
    r.scope = Generation.scopeFor env x.options :=
  calc
    r.scope = x.bundle.metadata.scope := congrArg CacheRow.scope x.holds.row
    _ = Generation.scopeFor env x.options := (Generation.shown_of_fresh x.holds.fresh).1

/-- A row comes from where it came from before. -/
def step (x : Origin env admits start e r) (environment : Environment) (request : Request)
    (h : Holding admits r environment e request) :
    Origin env admits start (request.call.after environment e) r :=
  { x with rest := x.rest.step environment request h }

/-- What was no hit and could be compiled comes from the request for it. -/
def ofMiss (hf : env.features.IsMap) (hnow : e.clock.inRange = true) {t u : String}
    {o : BundleOptions} {b : Bundle} (huse : o.useCache = true)
    (hmiss : e.store.cacheHit? (some t) (some u) (some (Generation.scopeFor env o)) e.clock = none)
    (hfresh : Generation.fresh env e (some t) (some u) o = .ok b) (hrun : Course admits start e)
    (hadmitted : admits env e (.generate (some t) (some u) o)) :
    Origin env admits start ((Request.generate (some t) (some u) o).call.after env e)
      (Generation.rowOf t u b) where
  before := e
  environment := env
  request := .generate (some t) (some u) o
  options := o
  bundle := b
  run := hrun
  admitted := hadmitted
  asked := rfl
  holds := CacheRow.holds_rowOf hf hnow hfresh
  frame := by
    rw [Request.after_of_miss hf hnow huse hmiss hfresh]
    rfl
  kept := by
    rw [Request.after_of_miss hf hnow huse hmiss hfresh]
    exact Store.mem_putCacheRow_self _ _
  rest := .nil

end Origin

/-- Along a run from an empty cache, each unmarked row was compiled by a request of the run. -/
theorem exists_origin {env : Environment} {admits : Environment → Engine → Request → Prop}
    {start e : Engine} (hf : env.features.IsMap)
    (hadmits : ∀ env' e request, admits env' e request → Serves env env' e request)
    (hempty : start.store.cache = []) (hclock : start.clock.inRange = true)
    (h : Course admits start e) :
    e.clock.inRange = true ∧
      ∀ r ∈ e.store.cache, r.invalidatedAt = none → Nonempty (Origin env admits start e r) := by
  induction h with
  | nil =>
    refine ⟨hclock, fun r hr => ?_⟩
    rw [hempty] at hr
    cases hr
  | @step e environment request hrun hadmitted ih =>
    obtain ⟨hnow, horigins⟩ := ih
    have hkept (r : CacheRow) (hr : r ∈ (request.call.after environment e).store.cache)
        (hopen : r.invalidatedAt = none) (hold : r ∈ e.store.cache) :
        Nonempty (Origin env admits start (request.call.after environment e) r) := by
      obtain ⟨x⟩ := horigins r hold hopen
      exact ⟨x.step environment request ⟨hadmitted, hr⟩⟩
    rcases Request.compiles_or_addsNothing hf hnow (hadmits _ _ _ hadmitted) with
      ⟨⟨tenant, user, o⟩, hasked, hcompiles⟩ | hadds
    · refine ⟨by rw [hcompiles.frame]; exact hnow, fun r hr hopen => ?_⟩
      rcases hcompiles.rows r hr hopen with hold | ⟨rfl, rfl, b, hholds⟩
      · exact hkept r hr hopen hold
      · exact ⟨{ before := e, environment, request, options := o, bundle := b, run := hrun
                 admitted := hadmitted, asked := hasked, holds := hholds
                 frame := hcompiles.frame, kept := hr, rest := .nil }⟩
    · exact ⟨hadds.inRange, fun r hr hopen => hkept r hr hopen (hadds.rows r hr hopen)⟩

end Entitlements
