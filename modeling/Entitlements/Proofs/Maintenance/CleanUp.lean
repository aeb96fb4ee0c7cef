import Entitlements.Proofs.Cache.History
import Entitlements.Proofs.Evaluation.Decision
import Entitlements.Proofs.Generation.Requests

/-!
Clean-up cannot be observed. A run with clean-up in it has fewer rows than the same run without it,
and its invalidations count less, so the two tables are not compared row by row. What they share is
which row of each key is a hit, now and later: `SameHits`. Removing what is no hit keeps that, as
long as time does not go back, and so does everything that is done on both sides. Reads see hits
only, so no answer tells the two runs apart.
-/

namespace Entitlements

open Time Call

/-! ### Tables with the same hits -/

/-- Do two tables have the same hits? -/
structure CacheTable.SameHits (now : Instant) (rows rows' : List CacheRow) : Prop where
  left : HasDistinctKeys rows
  right : HasDistinctKeys rows'
  hits : ∀ tenant user scope r, r.isHit now = true →
    (row? rows tenant user scope = some r ↔ row? rows' tenant user scope = some r)

namespace CacheTable.SameHits

variable {now : Instant} {rows rows' : List CacheRow}

theorem refl (h : HasDistinctKeys rows) (now : Instant) : SameHits now rows rows :=
  ⟨h, h, fun _ _ _ _ _ => Iff.rfl⟩

/-- What is a hit later is one now, so tables with the same hits keep them as time goes on. -/
theorem later (h : SameHits now rows rows') {time : Instant} (hle : now ≤ time) :
    SameHits time rows rows' :=
  { h with hits := fun tenant user scope r hr =>
      h.hits tenant user scope r (CacheRow.isHit_of_later hle hr) }

/-- A row that is written on both sides is found on both. -/
theorem put (h : SameHits now rows rows') (row : CacheRow) :
    SameHits now (Store.putCacheRow row rows) (Store.putCacheRow row rows') where
  left := h.left.putCacheRow row
  right := h.right.putCacheRow row
  hits tenant user scope r hr := by
    rw [row?_putCacheRow, row?_putCacheRow]
    split
    · exact Iff.rfl
    · exact h.hits tenant user scope r hr

theorem remove (h : SameHits now rows rows') (stays : CacheRow → Bool) :
    SameHits now (rows.filter stays) (rows'.filter stays) where
  left := h.left.filter stays
  right := h.right.filter stays
  hits tenant user scope r hr := by
    rw [row?_filter h.left, row?_filter h.right, Option.filter_eq_some_iff,
      Option.filter_eq_some_iff, h.hits tenant user scope r hr]

/-- What is no hit can be removed on one side alone. -/
theorem remove_right (h : SameHits now rows rows') {gone : CacheRow → Bool}
    (hgone : ∀ r, gone r = true → r.isHit now = false) :
    SameHits now rows (rows'.filter fun r => !gone r) where
  left := h.left
  right := h.right.filter _
  hits tenant user scope r hr := by
    have hstays : (!gone r) = true := by
      rw [Bool.not_eq_true']
      apply Bool.eq_false_iff.2
      intro hg
      rw [hgone r hg] at hr
      cases hr
    rw [row?_filter h.right, Option.filter_eq_some_iff, h.hits tenant user scope r hr]
    exact (and_iff_left hstays).symm

theorem keepsKey_mark (selected : CacheRow → Bool) (time : Instant) (reason : String) :
    KeepsKey (some ∘ fun r =>
      if CacheRow.isMarkable selected r then r.invalidate time reason else r) := by
  intro r r' hr
  cases hr
  dsimp only
  split <;> rfl

theorem distinct_markWhere (h : HasDistinctKeys rows) (selected : CacheRow → Bool)
    (time : Instant) (reason : String) :
    HasDistinctKeys (markWhere selected time reason rows) := by
  rw [markWhere, ← List.filterMap_eq_map]
  exact h.filterMap (keepsKey_mark selected time reason)

/-- A row that is a hit after marking was one before, and was not selected. -/
theorem row?_markWhere (hrows : HasDistinctKeys rows) {selected : CacheRow → Bool}
    {time : Instant} {reason : String} {tenant user scope : Given} {r : CacheRow}
    (hr : r.isHit now = true) :
    row? (markWhere selected time reason rows) tenant user scope = some r ↔
      row? rows tenant user scope = some r ∧ selected r = false := by
  rw [markWhere, ← List.filterMap_eq_map,
    row?_filterMap hrows (keepsKey_mark selected time reason), Option.bind_eq_some_iff]
  simp only [CacheRow.isHit, Bool.and_eq_true, Option.isNone_iff_eq_none] at hr
  constructor
  · rintro ⟨q, hq, hqr⟩
    simp only [Function.comp, Option.some.injEq] at hqr
    split at hqr
    · -- A row that has just been marked is no hit.
      rw [← hqr] at hr
      cases hr.1
    · next hopen =>
      subst hqr
      simp only [CacheRow.isMarkable, hr.1, Option.isNone_none, Bool.and_true,
        Bool.not_eq_true] at hopen
      exact ⟨hq, hopen⟩
  · rintro ⟨hq, hsel⟩
    exact ⟨r, hq, by simp [CacheRow.isMarkable, hsel]⟩

/-- Nothing that is done on both sides makes a difference. -/
theorem kept : Kept SameHits where
  mark now rows rows' selected reason h :=
    { left := distinct_markWhere h.left selected now reason
      right := distinct_markWhere h.right selected now reason
      hits := fun tenant user scope r hr => by
        rw [row?_markWhere h.left hr, row?_markWhere h.right hr, h.hits tenant user scope r hr] }
  remove _ _ _ selected h := h.remove fun r => !selected r

theorem cacheHit?_eq {s s' : Store} (h : SameHits now s.cache s'.cache)
    (tenant user scope : Given) :
    s.cacheHit? tenant user scope now = s'.cacheHit? tenant user scope now := by
  apply Option.ext
  intro r
  rw [Store.cacheHit?_eq_filter h.left, Store.cacheHit?_eq_filter h.right,
    Option.filter_eq_some_iff, Option.filter_eq_some_iff]
  exact and_congr_left fun hr => h.hits tenant user scope r hr

end CacheTable.SameHits

/-! ### Reads beside a table with the same hits -/

open CacheTable (SameHits)

namespace Evaluation

theorem unaware_evaluate (tenant user permission scope : Given) :
    Unaware (evaluate tenant user permission scope) := fun m =>
  (Unaware.requireTenant tenant m).bind fun _ => (Unaware.now m).bind fun now =>
    .store_bind fun s => .pure
      ({ verdict := s.verdict tenant user permission scope now, evaluatedAt := now } : Decision)

theorem unaware_effective (tenant user scope : Given) :
    Unaware (effective tenant user scope) := by
  refine fun m => ⟨fun env e => ?_, fun env e => ?_⟩
  · simp only [Generation.outcome_effective, after]
    rfl
  · simp only [Generation.outcome_effective, after]

end Evaluation

theorem BundleCache.alike_get? (tenant user scope : Given) :
    Alike SameHits Eq (get? tenant user scope) (get? tenant user scope) := by
  intro env e m h
  have hsame : e.store.cacheHit? tenant user scope e.clock =
      (e.store.withMargin m).cacheHit? tenant user scope e.clock :=
    h.cacheHit?_eq tenant user scope
  rw [outcome_get?, outcome_get?, Engine.store_withMargin, Engine.clock_withMargin, hsame]
  generalize (env.settings.checkTenant tenant).bind _ = answer
  rcases answer with failure | found?
  · exact .error h
  · exact .ok rfl h

theorem BundleCache.alike_put (tenant user scope : Given) (bundle : Bundle) (checksum : Given)
    (generatedAt expiresAt : Option Instant) :
    Alike SameHits Eq (put tenant user scope bundle checksum generatedAt expiresAt)
      (put tenant user scope bundle checksum generatedAt expiresAt) := by
  intro env e m h
  rcases outcome_put env tenant user scope bundle checksum generatedAt expiresAt with
    ⟨p, -, hout⟩ | ⟨failure, -, hout⟩
  · rw [hout, hout]
    have hput := h.put p.row
    rcases p.row.entry with failure | entry
    · exact .error (e := e.withCache (Store.putCacheRow p.row e.store.cache))
        (m := { m with cache := Store.putCacheRow p.row m.cache }) hput
    · exact .ok (e := e.withCache (Store.putCacheRow p.row e.store.cache))
        (m := { m with cache := Store.putCacheRow p.row m.cache }) rfl hput
  · rw [hout, hout]
    exact .error h

namespace Generation

variable (tenant user : Given) (o : BundleOptions)

theorem unaware_compile : Unaware (compile tenant user o) := by
  refine fun m => ⟨fun env e => ?_, fun env e => ?_⟩
  · simp only [outcome_compile, after]
    rfl
  · simp only [outcome_compile, after]

theorem unaware_scopeOf : Unaware (scopeOf o) := .bind .read fun _ => .pure _

theorem alike_generate :
    Alike SameHits Eq (generate tenant user o) (generate tenant user o) := by
  refine .ite ?_ (.of_unaware (unaware_compile tenant user o))
  refine .after_unaware (unaware_scopeOf o) fun scope => ?_
  refine (BundleCache.alike_get? tenant user (some scope)).bind fun found? _ hentry => ?_
  rw [← hentry]
  cases found? with
  | some entry => exact .pure rfl
  | none =>
    refine .after_unaware (unaware_compile tenant user o) fun b => ?_
    exact (BundleCache.alike_put tenant user _ b _ _ _).bind fun _ _ _ => .pure rfl

theorem alike_refresh (scope reason : Given) :
    Alike SameHits Eq (refresh tenant user scope reason) (refresh tenant user scope reason) := by
  refine .after_unaware (unaware_scopeOf (.atScope scope)) fun at_ => ?_
  refine (BundleCache.alike_invalidateScope CacheTable.SameHits.kept.mark tenant user _
    reason).bind fun _ _ _ => ?_
  exact alike_generate tenant user _

theorem alike_permits (key : DomainKey) (scope : Given) :
    Alike SameHits Eq (permits tenant user key scope) (permits tenant user key scope) := by
  refine (alike_generate tenant user (.atScope scope)).bind fun b _ hb => ?_
  exact .pure (by rw [hb])

theorem alike_featureAccess (feature : String) (scope : Given) :
    Alike SameHits Eq (featureAccess tenant user feature scope)
      (featureAccess tenant user feature scope) := by
  refine (alike_generate tenant user (.atScope scope)).bind fun b _ hb => ?_
  exact .pure (by rw [hb])

end Generation

/-! ### Runs with clean-up in them -/

/-- Does an edit clean up at a time? What counts as expired has expired by then; how old marks have
to be is up to the caller. -/
def BundleCache.Edit.CleansUp (now : Instant) : Edit → Prop
  | .pruneExpired present => present.elim now (·.reading) ≤ now
  | .pruneInvalidated _ _ => True
  | _ => False

/-- Two runs that make the same requests at the same times, one of them with clean-up in between.
Requests do not turn the clock back. -/
inductive CleanedUp (start : Engine) : Engine → Engine → Prop
  | nil : CleanedUp start start start
  | request {e e' : Engine} (env : Environment) (request : Request) :
    CleanedUp start e e' → e.clock ≤ (request.call.after env e).clock →
      CleanedUp start (request.call.after env e) (request.call.after env e')
  | cleanUp {e e' : Engine} (env : Environment) (w : BundleCache.Edit) :
    CleanedUp start e e' → w.CleansUp e'.clock → CleanedUp start e (w.call.after env e')

/-- Can no read tell two engines apart? -/
structure Engine.SameAnswers (e e' : Engine) : Prop where
  get? : ∀ env tenant user scope,
    ((BundleCache.get? tenant user scope).outcome env e).1 =
      ((BundleCache.get? tenant user scope).outcome env e').1
  generate : ∀ env tenant user o,
    ((Generation.generate tenant user o).outcome env e).1 =
      ((Generation.generate tenant user o).outcome env e').1
  refresh : ∀ env tenant user scope reason,
    ((Generation.refresh tenant user scope reason).outcome env e).1 =
      ((Generation.refresh tenant user scope reason).outcome env e').1
  permits : ∀ env tenant user key scope,
    ((Generation.permits tenant user key scope).outcome env e).1 =
      ((Generation.permits tenant user key scope).outcome env e').1
  featureAccess : ∀ env tenant user feature scope,
    ((Generation.featureAccess tenant user feature scope).outcome env e).1 =
      ((Generation.featureAccess tenant user feature scope).outcome env e').1
  evaluate : ∀ env tenant user permission scope,
    ((Evaluation.evaluate tenant user permission scope).outcome env e).1 =
      ((Evaluation.evaluate tenant user permission scope).outcome env e').1
  effective : ∀ env tenant user scope,
    ((Evaluation.effective tenant user scope).outcome env e).1 =
      ((Evaluation.effective tenant user scope).outcome env e').1

namespace Engine

/-- Do two engines differ in their margins only, with the same hits in both? -/
def HitAlike (e e' : Engine) : Prop :=
  ∃ m, e' = e.withMargin m ∧ SameHits e.clock e.store.cache m.cache

variable {e e' : Engine}

theorem HitAlike.answers (h : e.HitAlike e') {x : Call α} (hx : Alike SameHits Eq x x)
    (env : Environment) : (x.outcome env e).1 = (x.outcome env e').1 := by
  obtain ⟨m, rfl, hhits⟩ := h
  exact (hx env e m hhits).answers

theorem HitAlike.sameAnswers (h : e.HitAlike e') : e.SameAnswers e' where
  get? env tenant user scope := h.answers (BundleCache.alike_get? tenant user scope) env
  generate env tenant user o := h.answers (Generation.alike_generate tenant user o) env
  refresh env tenant user scope reason :=
    h.answers (Generation.alike_refresh tenant user scope reason) env
  permits env tenant user key scope :=
    h.answers (Generation.alike_permits tenant user key scope) env
  featureAccess env tenant user feature scope :=
    h.answers (Generation.alike_featureAccess tenant user feature scope) env
  evaluate env tenant user permission scope :=
    h.answers (.of_unaware (Evaluation.unaware_evaluate tenant user permission scope)) env
  effective env tenant user scope :=
    h.answers (.of_unaware (Evaluation.unaware_effective tenant user scope)) env

/-- Time goes on for both, and the hits of now decide those of later. -/
theorem HitAlike.moveClock (h : e.HitAlike e') (env : Environment) (setTo : Option Instant)
    (micros : Int)
    (hclock : e.clock ≤ ((Operation.moveClock setTo micros).call.after env e).clock) :
    ((Operation.moveClock setTo micros).call.after env e).HitAlike
      ((Operation.moveClock setTo micros).call.after env e') := by
  obtain ⟨m, rfl, hhits⟩ := h
  rw [Operation.after_moveClock] at hclock
  rw [Operation.after_moveClock, Operation.after_moveClock, clock_withMargin]
  exact ⟨m, rfl, hhits.later hclock⟩

/-- A request on both sides. Only one that moves the clock can turn it back. -/
theorem HitAlike.request (h : e.HitAlike e') (env : Environment) (request : Request)
    (hclock : ∀ setTo micros, request = .operation (.moveClock setTo micros) →
      e.clock ≤ (request.call.after env e).clock) :
    (request.call.after env e).HitAlike (request.call.after env e') := by
  have of_alike {x : Call Unit} (hx : Alike SameHits Eq x x) :
      (x.after env e).HitAlike (x.after env e') := by
    obtain ⟨m, rfl, hhits⟩ := h
    exact (hx env e m hhits).engines
  cases request with
  | generate tenant user o => exact of_alike (.discard (Generation.alike_generate tenant user o))
  | write w => exact of_alike w.alike
  | edit w =>
    rcases hput : w.isPut with _ | _
    · exact of_alike (w.alike CacheTable.SameHits.kept hput)
    · cases w with
      | put tenant user scope bundle checksum generatedAt expiresAt =>
        exact of_alike (.discard
          (BundleCache.alike_put tenant user scope bundle checksum generatedAt expiresAt))
      | _ => cases hput
  | operation op =>
    rcases hplain : op.isPlain with _ | _
    · cases op with
      | generate tenant user scope useCache lifetime =>
        exact of_alike (.discard (Generation.alike_generate tenant user _))
      | refresh tenant user scope reason =>
        exact of_alike (.discard (Generation.alike_refresh tenant user scope reason))
      | permits tenant user key scope =>
        exact of_alike (.discard (Generation.alike_permits tenant user key scope))
      | featureAccess tenant user feature scope =>
        exact of_alike (.discard (Generation.alike_featureAccess tenant user feature scope))
      | moveClock setTo micros => exact h.moveClock env setTo micros (hclock setTo micros rfl)
      | _ => cases hplain
    · exact of_alike (op.alike CacheTable.SameHits.kept hplain)

/-- Clean-up on one side removes what is no hit. -/
theorem HitAlike.cleanUp (h : e.HitAlike e') (env : Environment) {w : BundleCache.Edit}
    (hw : w.CleansUp e'.clock) : e.HitAlike (w.call.after env e') := by
  obtain ⟨m, rfl, hhits⟩ := h
  have of_gone {gone : CacheRow → Bool} (hgone : ∀ r, gone r = true → r.isHit e.clock = false) :
      e.HitAlike ((e.withMargin m).withCache (m.cache.filter fun r => !gone r)) :=
    ⟨{ m with cache := m.cache.filter fun r => !gone r }, rfl, hhits.remove_right hgone⟩
  cases w with
  | pruneExpired present =>
    rw [BundleCache.Edit.after_pruneExpired]
    refine of_gone fun r hr => CacheRow.not_isHit_of_isExpired ?_
    simp only [CacheRow.isExpired, decide_eq_true_eq] at hr ⊢
    exact Int.le_trans hr hw
  | pruneInvalidated days present =>
    rw [BundleCache.Edit.after_pruneInvalidated]
    refine of_gone fun r hr => ?_
    simp only [BundleCache.Edit.clears] at hr
    rcases hcutoff : (present.elim e.clock (·.reading)).addDays?
        (-(days.getD env.settings.retentionDays)) with _ | cutoff
    · rw [clock_withMargin, hcutoff] at hr
      cases hr
    · rw [clock_withMargin, hcutoff] at hr
      exact CacheRow.not_isHit_of_isMarkedBefore hr
  | _ => cases hw

end Engine

/-- Clean-up at any points of a run changes no answer of any later read. -/
theorem sameAnswers_of_cleanedUp {start e e' : Engine}
    (hstart : CacheTable.HasDistinctKeys start.store.cache) (h : CleanedUp start e e') :
    e.SameAnswers e' := by
  have halike : e.HitAlike e' := by
    induction h with
    | nil => exact ⟨start.margin, rfl, .refl hstart start.clock⟩
    | request env request _ hclock ih => exact ih.request env request fun _ _ _ => hclock
    | cleanUp env w _ hw ih => exact ih.cleanUp env hw
  exact halike.sameAnswers

/-- The expired row of one side is gone on the other. -/
theorem expired_row_is_not_missed :
    ∃ e e', CleanedUp (Engine.start ⟨0⟩ false) e e' ∧ e.store.cache.length = 1 ∧
      e'.store.cache.length = 0 ∧ e.SameAnswers e' := by
  have hstart : CacheTable.HasDistinctKeys (Engine.start ⟨0⟩ false).store.cache := List.nodup_nil
  have hput : (Request.edit (BundleCache.putUntil 60).edit).call.after Environment.plain
      (Engine.start ⟨0⟩ false) =
        (Engine.start ⟨0⟩ false).withCache [(BundleCache.putUntil 60).row] :=
    BundleCache.Edit.after_call rfl ⟨hstart, fun _ hr => (List.not_mem_nil hr).elim⟩ _
  have h₁ := CleanedUp.nil.request Environment.plain (.edit (BundleCache.putUntil 60).edit)
    (by rw [hput]; decide)
  rw [hput] at h₁
  have h₂ := h₁.request Environment.plain
    (.operation (.moveClock none (120 * Instant.microsPerSecond))) (by decide)
  have h₃ := h₂.cleanUp Environment.plain (.pruneExpired none) (Int.le_refl _)
  exact ⟨_, _, h₃, rfl, rfl, sameAnswers_of_cleanedUp hstart h₃⟩

end Entitlements
