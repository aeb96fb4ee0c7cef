import Entitlements.Proofs.Administration.BestEffort
import Entitlements.Proofs.Generation.StoredBundles
import Entitlements.Proofs.Maintenance.CleanUp

/-!
What forces a bundle to be compiled again. An invalidation covers the keys of a tenant, of a user,
or one key alone, and marks the rows of these keys. A key without an unmarked row is missed,
whatever its row was before, and a miss is a compilation: it answers as a call that bypasses the
cache does, and stores what it has compiled as the only row of the key. To refresh is to cover one
key and to miss it at once. All of this is said of keys, because that is how a row is found, and
what is found under any other key stays as it was.
-/

namespace Entitlements

open Time Call Generation

/-! ### Keys -/

/-- Is the same found under a key as before, as a row and as a hit at any time? -/
structure Engine.KeepsEntry (e e' : Engine) (tenant user scope : String) : Prop where
  row : CacheTable.row? e'.store.cache (some tenant) (some user) (some scope) =
    CacheTable.row? e.store.cache (some tenant) (some user) (some scope)
  hits : ∀ now, e'.store.cacheHit? (some tenant) (some user) (some scope) now =
    e.store.cacheHit? (some tenant) (some user) (some scope) now

/-- Is a bundle all that is found under its key, and a hit until it expires? -/
structure Engine.Stores (e : Engine) (tenant user : String) (b : Bundle) : Prop where
  rows : e.store.cache.filter
    (·.hasKey (some tenant) (some user) (some b.metadata.scope)) = [rowOf tenant user b]
  entry : (rowOf tenant user b).entry = .ok (entryOf tenant user b)
  hits : ∀ now, e.store.cacheHit? (some tenant) (some user) (some b.metadata.scope) now =
    if now < b.metadata.expiresAt.reading then some (rowOf tenant user b) else none

section

variable {e e' e'' : Engine} {tenant user scope : String}

namespace Engine.KeepsEntry

theorem refl (e : Engine) (tenant user scope : String) : e.KeepsEntry e tenant user scope :=
  ⟨rfl, fun _ => rfl⟩

theorem trans (h : e.KeepsEntry e' tenant user scope) (h' : e'.KeepsEntry e'' tenant user scope) :
    e.KeepsEntry e'' tenant user scope :=
  ⟨h'.row.trans h.row, fun now => (h'.hits now).trans (h.hits now)⟩

/-- The row of a key decides its hits. -/
theorem of_row? (hkeys : CacheTable.HasDistinctKeys e.store.cache)
    (hkeys' : CacheTable.HasDistinctKeys e'.store.cache)
    (h : CacheTable.row? e'.store.cache (some tenant) (some user) (some scope) =
      CacheTable.row? e.store.cache (some tenant) (some user) (some scope)) :
    e.KeepsEntry e' tenant user scope where
  row := h
  hits now := by rw [Store.cacheHit?_eq_filter hkeys', Store.cacheHit?_eq_filter hkeys, h]

end Engine.KeepsEntry

namespace Engine

theorem keepsEntry_cached (hkeys : CacheTable.HasDistinctKeys e.store.cache) {row : CacheRow}
    (hother : (tenant, user, scope) ≠ row.key) :
    e.KeepsEntry (cached e row) tenant user scope := by
  refine .of_row? hkeys (hkeys.putCacheRow row) ?_
  rw [cached, CacheTable.row?_putCacheRow, if_neg]
  exact fun hfound => hother (CacheRow.hasKey_some_iff.1 hfound).symm

/-- What is cached takes the place of all that was there under its key. -/
theorem stores_cached (hkeys : CacheTable.HasDistinctKeys e.store.cache) {b : Bundle}
    (hb : b.IsWritable) : (cached e (rowOf tenant user b)).Stores tenant user b := by
  have hcached : CacheTable.HasDistinctKeys (cached e (rowOf tenant user b)).store.cache :=
    hkeys.putCacheRow _
  have hrow : CacheTable.row? (cached e (rowOf tenant user b)).store.cache (some tenant)
      (some user) (some b.metadata.scope) = some (rowOf tenant user b) := by
    rw [cached, CacheTable.row?_putCacheRow]
    exact if_pos (CacheRow.hasKey_self (rowOf tenant user b))
  refine ⟨?_, entry_rowOf hb, fun now => ?_⟩
  · rw [CacheTable.filter_hasKey hcached, hrow]
    rfl
  · rw [Store.cacheHit?_eq_filter hcached, hrow]
    by_cases hahead : now < b.metadata.expiresAt.reading <;>
      simp [Option.filter, CacheRow.isHit, rowOf, hahead]

end Engine

/-! ### Marking -/

namespace CacheTable

variable {rows : List CacheRow} {selected : CacheRow → Bool}

theorem distinct_markIf (h : HasDistinctKeys rows) (env : Environment) (tenant : Given)
    (now : Instant) (reason : String) (selected : CacheRow → Bool) :
    HasDistinctKeys (markIf env tenant now reason selected rows) := by
  unfold markIf
  split
  · exact SameHits.distinct_markWhere h selected now reason
  · exact h

/-- Under a key that is not selected, marking changes nothing. -/
theorem row?_markWhere_of_not {tenant user scope : Given} (h : HasDistinctKeys rows)
    (hnot : ∀ r, r.hasKey tenant user scope = true → selected r = false) (now : Instant)
    (reason : String) :
    row? (markWhere selected now reason rows) tenant user scope = row? rows tenant user scope := by
  rw [markWhere, ← List.filterMap_eq_map, row?_filterMap h (SameHits.keepsKey_mark _ _ _)]
  rcases hrow : row? rows tenant user scope with _ | r
  · rfl
  · have hsel := hnot r ((row?_eq_some_iff h).1 hrow).2
    simp [CacheRow.isMarkable, hsel]

theorem row?_markIf_of_not {tenant user scope : Given} (h : HasDistinctKeys rows)
    (hnot : ∀ r, r.hasKey tenant user scope = true → selected r = false) (env : Environment)
    (owner : Given) (now : Instant) (reason : String) :
    row? (markIf env owner now reason selected rows) tenant user scope =
      row? rows tenant user scope := by
  unfold markIf
  split
  · exact row?_markWhere_of_not h hnot now reason
  · rfl

end CacheTable

end

/-! ### Along a run -/

/-- No request makes a second row for a key. -/
theorem Request.hasDistinctKeys {e : Engine} (h : CacheTable.HasDistinctKeys e.store.cache)
    (env : Environment) (request : Request) :
    CacheTable.HasDistinctKeys (request.call.after env e).store.cache := by
  by_cases hmove : ∃ setTo micros, request = .operation (.moveClock setTo micros)
  · obtain ⟨setTo, micros, rfl⟩ := hmove
    rw [Request.call, Operation.after_moveClock]
    exact h
  · -- Beside itself, an engine has the same hits, and that includes different keys.
    have hself : e.HitAlike e := ⟨e.margin, rfl, .refl h e.clock⟩
    obtain ⟨m, -, hhits⟩ := hself.request env request fun setTo micros hrequest =>
      absurd ⟨setTo, micros, hrequest⟩ hmove
    exact hhits.left

theorem Course.hasDistinctKeys {admits : Environment → Engine → Request → Prop}
    {start e : Engine} (hstart : CacheTable.HasDistinctKeys start.store.cache)
    (h : Course admits start e) : CacheTable.HasDistinctKeys e.store.cache := by
  induction h with
  | nil => exact hstart
  | step env request _ _ ih => exact request.hasDistinctKeys ih env

namespace Generation

/-! ### What an invalidation does -/

namespace Invalidation

/-- Does an invalidation cover the bundle of a user at a scope? Without a scope of its own, and an
empty one is none, it covers every scope. -/
def covers (tenant user scope : String) : Invalidation → Bool
  | ofUser owner holder _ only _ =>
    some tenant == owner && some user == holder && only.nonempty?.all (scope == ·)
  | ofTenant owner _ _ => some tenant == owner

def tenant : Invalidation → Given
  | ofUser tenant _ _ _ _ => tenant
  | ofTenant tenant _ _ => tenant

/-- The reason that rows are marked with. -/
def mark : Invalidation → String
  | ofUser _ _ reason _ _ => reason.nonempty?.getD Store.manualReason
  | ofTenant _ reason _ => reason.nonempty?.getD Store.tenantReason

def selects (op : Invalidation) (r : CacheRow) : Bool := op.covers r.tenant r.userId r.scope

variable {env : Environment} {e : Engine} {op : Invalidation} {t u s : String}

theorem tenant_of_covers (h : op.covers t u s = true) : op.tenant = some t := by
  cases op with
  | ofUser owner holder reason only actor =>
    simp only [covers, Bool.and_eq_true, beq_iff_eq] at h
    exact h.1.1.symm
  | ofTenant owner reason actor => exact (beq_iff_eq.1 h).symm

theorem selects_of_hasKey {r : CacheRow} (h : r.hasKey (some t) (some u) (some s) = true) :
    op.selects r = op.covers t u s := by
  have hkey := CacheRow.hasKey_some_iff.1 h
  simp only [CacheRow.key, Prod.mk.injEq] at hkey
  rw [selects, hkey.1, hkey.2.1, hkey.2.2]

/-- An invalidation marks what it covers, and does nothing else to the cache. -/
theorem cache_after_call (env : Environment) (e : Engine) (op : Invalidation) :
    (op.call.after env e).store.cache =
      CacheTable.markIf env op.tenant e.clock op.mark op.selects e.store.cache := by
  cases op with
  | ofTenant tenant reason actor =>
    refine cache_after_bind ?_ fun affected e' => AuditLog.cache_after_announcing env e' _ _
    exact BundleCache.cache_after_invalidateWhere env e tenant _ _
  | ofUser tenant user reason scope actor =>
    rw [call, invalidate]
    rcases hscope : scope.nonempty? with _ | scope'
    · have hselects : (ofUser tenant user reason scope actor).selects =
          fun r => some r.tenant == tenant && some r.userId == user := by
        funext r
        simp [selects, covers, hscope]
      rw [hselects]
      refine cache_after_bind ?_ fun affected e' => AuditLog.cache_after_announcing env e' _ _
      exact BundleCache.cache_after_invalidateWhere env e tenant _ _
    · have hselects : (ofUser tenant user reason scope actor).selects =
          fun r => r.hasKey tenant user (some scope') := by
        funext r
        simp [selects, covers, hscope, CacheRow.hasKey]
      rw [hselects]
      refine cache_after_bind ?_ fun affected e' => AuditLog.cache_after_announcing env e' _ _
      rw [BundleCache.invalidateScope, after_bind_pure]
      exact BundleCache.cache_after_invalidateWhere env e tenant _ _

theorem only_marks (env : Environment) (e : Engine) (op : Invalidation) :
    e.Marks (op.call.after env e) fun _ => True := by
  cases op with
  | ofUser tenant user reason scope actor =>
    exact invalidate_only_marks env e tenant user reason scope actor
  | ofTenant tenant reason actor => exact invalidateTenant_only_marks env e tenant reason actor

theorem distinct_after_call (hkeys : CacheTable.HasDistinctKeys e.store.cache)
    (env : Environment) (op : Invalidation) :
    CacheTable.HasDistinctKeys (op.call.after env e).store.cache := by
  rw [cache_after_call]
  exact CacheTable.distinct_markIf hkeys env _ _ _ _

/-- After an invalidation that works, a row of a covered key is marked. -/
theorem marked_of_covers (hc : env.canInvalidate = true) (ht : t ≠ "")
    (hcovers : op.covers t u s = true) {r : CacheRow}
    (hr : r ∈ (op.call.after env e).store.cache) (hkey : r.key = (t, u, s)) :
    r.invalidatedAt ≠ none := by
  intro hopen
  have hg : env.settings.checkTenant op.tenant = .ok () := by
    rw [tenant_of_covers hcovers]
    exact env.settings.checkTenant_some ht
  rw [cache_after_call, CacheTable.markIf, hc, hg] at hr
  have hmarks := BundleCache.marked_marks (e := e) op.selects op.mark
  have hnot := (hmarks.cache r hr hopen).2
  rw [selects_of_hasKey (CacheRow.hasKey_some_iff.2 hkey), hcovers] at hnot
  cases hnot

theorem keepsEntry_of_not_covers (hkeys : CacheTable.HasDistinctKeys e.store.cache)
    (env : Environment) (hcovers : op.covers t u s = false) :
    e.KeepsEntry (op.call.after env e) t u s := by
  refine .of_row? hkeys (distinct_after_call hkeys env op) ?_
  rw [cache_after_call]
  refine CacheTable.row?_markIf_of_not hkeys (fun r hr => ?_) env _ _ _
  rw [selects_of_hasKey hr, hcovers]

end Invalidation

/-! ### Recomputation -/

/-- Does a call come to what a call that bypasses the cache comes to? Its answer is the same, there
is a bundle if there is a user and an end to it, a bundle is stored under its key, and other keys
are left alone. -/
structure Recomputes (env : Environment) (e : Engine) (tenant user : String) (o : BundleOptions)
    (x : Call Bundle) : Prop where
  answer : (x.outcome env e).1 =
    ((generate (some tenant) (some user) { o with useCache := false }).outcome env e).1
  succeeds : (e.store.user? (some tenant) (some user)).isSome = true →
    (∃ span, spanFor env o e.clock = .ok span) → ∃ b, (x.outcome env e).1 = .ok b
  stores : ∀ b, (x.outcome env e).1 = .ok b →
    b.metadata.scope = scopeFor env o ∧ (x.after env e).Stores tenant user b
  others : ∀ t u s, (t, u, s) ≠ (tenant, user, scopeFor env o) →
    e.KeepsEntry (x.after env e) t u s

variable {env : Environment} {e : Engine} {t u : String} {o : BundleOptions}

theorem outcome_bypass (env : Environment) (e : Engine) (tenant user : Given)
    (o : BundleOptions) :
    (generate tenant user { o with useCache := false }).outcome env e =
      (fresh env e tenant user o, e) :=
  outcome_generate_uncached tenant user { o with useCache := false } env e rfl

/-- What is compiled for a user has an answer, as long as it has an end. -/
theorem Recomputes.of_fresh {x : Call Bundle} (ht : t ≠ "")
    (hanswer : (x.outcome env e).1 = fresh env e (some t) (some u) o)
    (hstores : ∀ b, fresh env e (some t) (some u) o = .ok b → (x.after env e).Stores t u b)
    (hothers : ∀ t' u' s, (t', u', s) ≠ (t, u, scopeFor env o) →
      e.KeepsEntry (x.after env e) t' u' s) : Recomputes env e t u o x where
  answer := by rw [hanswer, outcome_bypass]
  succeeds huser hspan := by
    obtain ⟨⟨ttlSeconds, expiresAt⟩, hspan⟩ := hspan
    obtain ⟨profile, hfresh⟩ := exists_fresh (env.settings.checkTenant_some ht) huser hspan
    exact ⟨_, hanswer.trans hfresh⟩
  stores b hb := by
    rw [hanswer] at hb
    exact ⟨(shown_of_fresh hb).1, hstores b hb⟩
  others := hothers

/-- A miss is a compilation. -/
theorem recomputes_of_miss (hf : env.features.IsMap) (hclock : e.clock.inRange = true)
    (hkeys : CacheTable.HasDistinctKeys e.store.cache) (ht : t ≠ "") (huse : o.useCache = true)
    (hmiss : e.store.cacheHit? (some t) (some u) (some (scopeFor env o)) e.clock = none) :
    Recomputes env e t u o (generate (some t) (some u) o) := by
  have hout := outcome_generate_miss huse (env.settings.checkTenant_some ht) hmiss
  rcases hfresh : fresh env e (some t) (some u) o with failure | b
  · have hrefused : (generate (some t) (some u) o).outcome env e = (.error failure, e) := by
      rw [hout]
      simp [compileAndCache, hfresh]
    refine .of_fresh ht (by rw [hrefused, hfresh]) (fun b hb => ?_) fun t' u' s _ => ?_
    · rw [hfresh] at hb
      cases hb
    · rw [after_eq_of_outcome hrefused]
      exact .refl e t' u' s
  · rw [outcome_compileAndCache hf hclock hfresh] at hout
    refine .of_fresh ht (by rw [hout, hfresh]) (fun b' hb' => ?_) fun t' u' s hother => ?_
    · rw [hfresh] at hb'
      cases hb'
      rw [after_eq_of_outcome hout]
      exact Engine.stores_cached hkeys (isWritable_of_fresh hf hclock hfresh)
    · rw [after_eq_of_outcome hout]
      refine Engine.keepsEntry_cached hkeys ?_
      rw [← (shown_of_fresh hfresh).1] at hother
      exact hother

/-- A key of which every row is marked is missed. -/
theorem miss_of_marked {scope : String}
    (h : ∀ r ∈ e.store.cache, r.key = (t, u, scope) → r.invalidatedAt ≠ none) :
    e.store.cacheHit? (some t) (some u) (some scope) e.clock = none := by
  rcases hhit : e.store.cacheHit? (some t) (some u) (some scope) e.clock with _ | r
  · rfl
  · obtain ⟨hmem, ⟨htenant, huser, hscope⟩, hopen, -⟩ := Store.of_cacheHit? hhit
    cases htenant
    cases huser
    cases hscope
    exact absurd hopen (h r hmem rfl)

/-- The next time that a covered key is asked for, it is compiled, whatever other requests have come
between. -/
theorem recomputes_of_covers (hc : env.canInvalidate = true) (hclock : e.clock.inRange = true)
    (hkeys : CacheTable.HasDistinctKeys e.store.cache) (ht : t ≠ "") {op : Invalidation}
    {scope : String} (hcovers : op.covers t u scope = true) {e' : Engine}
    (hrun : Course (Spares t u scope) (op.call.after env e) e') {env' : Environment}
    (hf : env'.features.IsMap) (huse : o.useCache = true) (hscope : scopeFor env' o = scope) :
    Recomputes env' e' t u o (generate (some t) (some u) o) := by
  subst hscope
  have hstart : (op.call.after env e).clock.inRange = true := by
    rw [(op.only_marks env e).clock]
    exact hclock
  obtain ⟨hclock', hkept⟩ := Course.kept_of_spares hstart hrun
  have hkeys' := hrun.hasDistinctKeys (Invalidation.distinct_after_call hkeys env op)
  refine recomputes_of_miss hf hclock' hkeys' ht huse (miss_of_marked fun r hr hkey hopen => ?_)
  -- An unmarked row of the key would have survived the invalidation.
  exact Invalidation.marked_of_covers hc ht hcovers (hkept r hr hkey hopen) hkey hopen

/-! ### Refreshing -/

/-- Compiling does not look at the cache, and of its options not at how the scope is given. -/
theorem fresh_of_marked (env : Environment) (e : Engine) (tenant user given : Given)
    (selected : CacheRow → Bool) (reason : String) :
    fresh env (BundleCache.marked e selected reason) tenant user
        (.atScope (some (scopeFor env (.atScope given)))) =
      fresh env e tenant user (.atScope given) := by
  have hscope : scopeFor env (.atScope (some (scopeFor env (.atScope given)))) =
      scopeFor env (.atScope given) := Given.getD_nonempty?_getD given _
  unfold fresh
  simp only [bundleOf, hscope]
  rfl

theorem outcome_refresh (hc : env.canInvalidate = true) (ht : t ≠ "") (u : String)
    (given reason : Given) :
    let scope := some (scopeFor env (.atScope given))
    (refresh (some t) (some u) given reason).outcome env e =
      (generate (some t) (some u) (.atScope scope)).outcome env
        (BundleCache.marked e (·.hasKey (some t) (some u) scope)
          (reason.nonempty?.getD Store.manualReason)) := by
  have hg := env.settings.checkTenant_some ht
  simp [refresh, BundleCache.invalidateScope, BundleCache.outcome_invalidateWhere hc hg,
    BundleOptions.atScope]

section

variable (e : Engine) (t u scope reason : String)

theorem miss_of_markedKey :
    (BundleCache.marked e (·.hasKey (some t) (some u) (some scope)) reason).store.cacheHit?
      (some t) (some u) (some scope) e.clock = none := by
  refine miss_of_marked (e := BundleCache.marked e _ reason) fun r hr hkey hopen => ?_
  have hnot := ((BundleCache.marked_marks _ _).cache r hr hopen).2
  rw [CacheRow.hasKey_some_iff.2 hkey] at hnot
  cases hnot

variable {e t u scope}

theorem keepsEntry_markedKey (hkeys : CacheTable.HasDistinctKeys e.store.cache)
    {t' u' s : String} (hother : (t', u', s) ≠ (t, u, scope)) :
    e.KeepsEntry (BundleCache.marked e (·.hasKey (some t) (some u) (some scope)) reason)
      t' u' s := by
  refine .of_row? hkeys (CacheTable.SameHits.distinct_markWhere hkeys _ _ _) ?_
  refine CacheTable.row?_markWhere_of_not hkeys (fun r hr => Bool.eq_false_iff.2 fun hown => ?_) _ _
  have hkey := CacheRow.hasKey_some_iff.1 hr
  exact hother (hkey.symm.trans (CacheRow.hasKey_some_iff.1 hown))

end

/-- Refreshing misses the key that it marks. -/
theorem recomputes_refresh (hf : env.features.IsMap) (hc : env.canInvalidate = true)
    (hclock : e.clock.inRange = true) (hkeys : CacheTable.HasDistinctKeys e.store.cache)
    (ht : t ≠ "") (u : String) (given reason : Given) :
    Recomputes env e t u (.atScope given) (refresh (some t) (some u) given reason) := by
  have hout := outcome_refresh (e := e) hc ht u given reason
  have hfresh := fresh_of_marked env e (some t) (some u) given
  dsimp only at hout
  set scope := scopeFor env (.atScope given)
  have hsame : scopeFor env (.atScope (some scope)) = scope := Given.getD_nonempty?_getD given _
  have hmiss := miss_of_markedKey e t u scope (reason.nonempty?.getD Store.manualReason)
  rw [← hsame] at hmiss
  have hgenerated := recomputes_of_miss hf (e := BundleCache.marked e _ _) hclock
    (CacheTable.SameHits.distinct_markWhere hkeys _ _ _) ht rfl hmiss
  have hanswer := hgenerated.answer
  rw [outcome_bypass, hfresh] at hanswer
  rw [hsame] at hanswer hgenerated
  refine .of_fresh ht (by rw [hout, hanswer]) (fun b hb => ?_) fun t' u' s hother => ?_
  · rw [after, hout]
    exact (hgenerated.stores b (hanswer.trans hb)).2
  · rw [after, hout]
    refine (keepsEntry_markedKey _ hkeys hother).trans (hgenerated.others t' u' s ?_)
    rw [hsame]
    exact hother

/-- Bundles are compiled again where that is asked for, and nowhere else. After an invalidation that
covers a key, and whatever else is asked for before the key is, the next call for it comes to what a
call comes to that bypasses the cache at that moment. Refreshing a key comes to that at once,
whatever was cached under it. What an invalidation does not cover is found as it was. -/
theorem recomputes_where_asked (env : Environment) (e : Engine) (hc : env.canInvalidate = true)
    (hclock : e.clock.inRange = true) (hkeys : CacheTable.HasDistinctKeys e.store.cache)
    (t u : String) (ht : t ≠ "") :
    (∀ (op : Invalidation) (scope : String), op.covers t u scope = true →
      ∀ e', Course (Spares t u scope) (op.call.after env e) e' →
        ∀ (env' : Environment) (o : BundleOptions), env'.features.IsMap → o.useCache = true →
          scopeFor env' o = scope → Recomputes env' e' t u o (generate (some t) (some u) o)) ∧
      (env.features.IsMap → ∀ given reason : Given,
        Recomputes env e t u (.atScope given) (refresh (some t) (some u) given reason)) ∧
      ∀ (op : Invalidation) (tenant user scope : String), op.covers tenant user scope = false →
        e.KeepsEntry (op.call.after env e) tenant user scope :=
  ⟨fun _ _ hcovers _ hrun _ _ hf huse hscope =>
      recomputes_of_covers hc hclock hkeys ht hcovers hrun hf huse hscope,
    fun hf given reason => recomputes_refresh hf hc hclock hkeys ht u given reason,
    fun _ _ _ _ hcovers => Invalidation.keepsEntry_of_not_covers hkeys env hcovers⟩

end Generation

/-- Fans are allowed, but the bundle that is cached at the default scope shows nothing of it. -/
def Engine.fansHidden : Engine :=
  fansAllowed.withCache [{ BundleCache.putUntil 60 with scope := "*" }.row]

/-- The cached bundle stays a hit when the bundles of another user are invalidated. Those of its own
user are covered also by an empty scope, and then the next call shows that fans are allowed. To
refresh at an empty scope is to refresh at the default one. -/
theorem Generation.hidden_permission_shows :
    (((Invalidation.ofUser (some "acme") (some "bob") none none none).call.after Environment.plain
        Engine.fansHidden).store.cacheHit? (some "acme") (some "alice") (some "*") ⟨0⟩).isSome =
          true ∧
      ∃ b, ((generate (some "acme") (some "alice") .default).outcome Environment.plain
          ((Invalidation.ofUser (some "acme") (some "alice") none (some "") none).call.after
            Environment.plain Engine.fansHidden)).1 = .ok b ∧
        ((refresh (some "acme") (some "alice") (some "") none).outcome Environment.plain
          Engine.fansHidden).1 = .ok b ∧
        b.permissions.allowed = ["hvac.fan.roof:start"] := by
  have hf := FeatureTable.isMap_builtIn
  have huser : (Engine.fansHidden.store.user? (some "acme") (some "alice")).isSome = true := rfl
  have hspan : spanFor Environment.plain .default Engine.fansHidden.clock =
      .ok (300, ⟨300000000⟩) := rfl
  obtain ⟨profile, hfresh⟩ := exists_fresh rfl huser hspan
  obtain ⟨hinvalidated, hrefreshed, hkept⟩ := recomputes_where_asked Environment.plain
    Engine.fansHidden rfl rfl (List.nodup_singleton _) "acme" "alice" (by decide)
  have hother := hkept (.ofUser (some "acme") (some "bob") none none none) "acme" "alice" "*"
    (by decide)
  have hnext := hinvalidated (.ofUser (some "acme") (some "alice") none (some "") none) "*"
    (by decide) _ .nil Environment.plain .default hf rfl rfl
  have hnow := hrefreshed hf (some "") none
  refine ⟨?_, bundleOf Environment.plain Engine.fansHidden (some "acme") (some "alice") .default
    profile 300 ⟨300000000⟩, ?_, ?_, ?_⟩
  · rw [hother.hits]
    rfl
  · rw [hnext.answer, outcome_bypass]
    exact hfresh
  · rw [hnow.answer, outcome_bypass]
    exact hfresh
  · have hrights : (rights Environment.plain Engine.fansHidden (some "acme") (some "alice")
        .default).permissions.allowed = ["hvac.fan.roof:start"] := by decide +kernel
    exact hrights

end Entitlements
