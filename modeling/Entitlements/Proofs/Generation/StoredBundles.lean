import Entitlements.Proofs.Bundle.Accepted
import Entitlements.Proofs.Generation.Provenance

/-!
What the cache gives back of a bundle it was given. A bundle that was compiled and stored keeps its
row until another bundle takes the place of its key: whatever else is asked for may mark the row or
remove it, and then it is no hit, but leaves everything else in it as it was. So as long as the row
is a hit, every caller gets the bundle that was stored, and the columns of the row say what the
bundle says.
-/

namespace Entitlements

open Time Call Generation

/-! ### Taking the place of a key -/

/-- Does a request make a bundle the entry of a key? Callers can put one there; one that is asked
for is compiled if there is no hit, and to refresh is to compile in any case. -/
inductive Request.Replaces (env : Environment) (e : Engine) (tenant user scope : String) :
    Request → Prop
  | put {w : BundleCache.Edit} {p : BundleCache.Put} (hput : w.put? env.settings = some p)
      (hkey : p.key = (tenant, user, scope)) : Replaces env e tenant user scope (.edit w)
  | compile {request : Request} {o : BundleOptions} {b : Bundle}
      (hasked : request.asked? env = some ⟨some tenant, some user, o⟩)
      (hscope : scopeFor env o = scope) (huse : o.useCache = true)
      (hmiss : e.store.cacheHit? (some tenant) (some user) (some scope) e.clock = none ∨
        ∃ given reason, request = .operation (.refresh (some tenant) (some user) given reason))
      (hfresh : fresh env e (some tenant) (some user) o = .ok b) :
      Replaces env e tenant user scope request

section

variable {env : Environment} {e : Engine}

/-- Whoever bypasses the cache, or finds a hit there, changes nothing. -/
theorem Generation.after_generate_of_hit {tenant user : Given} {o : BundleOptions}
    (h : o.useCache = true →
      (e.store.cacheHit? tenant user (some (scopeFor env o)) e.clock).isSome = true) :
    (generate tenant user o).after env e = e := by
  cases huse : o.useCache with
  | false => exact after_eq_of_outcome (outcome_generate_uncached tenant user o env e huse)
  | true =>
    obtain ⟨row, hhit⟩ := Option.isSome_iff_exists.1 (h huse)
    rcases hg : env.settings.checkTenant tenant with failure | _
    · simp [after, generate, huse, BundleCache.get?, hg]
    · exact after_eq_of_outcome (outcome_generate_hit huse hg hhit)

/-- Of the requests that ask for a bundle, only refreshing compiles although there is a hit. -/
theorem Request.after_of_hit {request : Request} {asked : Asked}
    (hasked : request.asked? env = some asked)
    (hrefresh : ∀ tenant user scope reason,
      request ≠ .operation (.refresh tenant user scope reason))
    (h : asked.options.useCache = true → (e.store.cacheHit? asked.tenant asked.user
      (some (scopeFor env asked.options)) e.clock).isSome = true) :
    request.call.after env e = e := by
  cases request with
  | generate tenant user o =>
    cases hasked
    rw [call, after_discard]
    exact after_generate_of_hit h
  | write w => cases hasked
  | edit w => cases hasked
  | operation op =>
    cases op with
    | generate tenant user scope useCache lifetime =>
      cases hasked
      rw [call, Operation.call, after_discard]
      exact after_generate_of_hit h
    | refresh tenant user scope reason => exact absurd rfl (hrefresh tenant user scope reason)
    | permits tenant user key scope =>
      cases hasked
      rw [call, Operation.call, after_discard, Generation.permits, after_bind_pure]
      exact after_generate_of_hit h
    | featureAccess tenant user feature scope =>
      cases hasked
      rw [call, Operation.call, after_discard, Generation.featureAccess, after_bind_pure]
      exact after_generate_of_hit h
    | _ => cases hasked

/-- One request: an unmarked row was there before, or the request has replaced its key. -/
theorem Request.kept_or_replaces (hf : env.features.IsMap) (hnow : e.clock.inRange = true)
    (request : Request) :
    (request.call.after env e).clock.inRange = true ∧
      ∀ r ∈ (request.call.after env e).store.cache, r.invalidatedAt = none →
        r ∈ e.store.cache ∨ request.Replaces env e r.tenant r.userId r.scope := by
  by_cases hput : ∃ w, request = .edit w ∧ w.isPut = true
  · obtain ⟨w, rfl, hw⟩ := hput
    cases w with
    | put tenant user scope bundle checksum generatedAt expiresAt =>
      rw [call, BundleCache.Edit.call, after_discard, after]
      rcases BundleCache.outcome_put env tenant user scope bundle checksum generatedAt expiresAt
        with ⟨p, hp, hout⟩ | ⟨failure, -, hout⟩
      · rw [hout]
        refine ⟨hnow, fun r hr _ => ?_⟩
        rcases Store.mem_putCacheRow hr with rfl | hold
        · exact .inr (.put hp rfl)
        · exact .inl hold
      · rw [hout]
        exact ⟨hnow, fun r hr _ => .inl hr⟩
    | _ => cases hw
  · have hserved : Serves env env e request :=
      ⟨rfl, rfl, fun w hw => Bool.eq_false_iff.2 fun hp => hput ⟨w, hw, hp⟩⟩
    rcases Request.compiles_or_addsNothing hf hnow hserved with ⟨asked, hasked, hcompiles⟩ | hadds
    · refine ⟨by rw [hcompiles.frame]; exact hnow, fun r hr hopen => ?_⟩
      obtain ⟨tenant, user, o⟩ := asked
      rcases hcompiles.rows r hr hopen with hold | ⟨rfl, rfl, b, hholds⟩
      · exact .inl hold
      have hscope : scopeFor env o = r.scope := by
        rw [hholds.row]
        exact (shown_of_fresh hholds.fresh).1.symm
      -- A row that was not there before means that the call did compile.
      by_cases hrefresh : ∃ scope reason,
          request = .operation (.refresh (some r.tenant) (some r.userId) scope reason)
      · obtain ⟨scope, reason, rfl⟩ := hrefresh
        cases hasked
        exact .inr (.compile rfl hscope rfl (.inr ⟨scope, reason, rfl⟩) hholds.fresh)
      by_cases hsame : o.useCache = true → (e.store.cacheHit? (some r.tenant) (some r.userId)
          (some (scopeFor env o)) e.clock).isSome = true
      · rw [Request.after_of_hit hasked ?_ hsame] at hr
        · exact .inl hr
        · rintro tenant user scope reason rfl
          cases hasked
          exact hrefresh ⟨scope, reason, rfl⟩
      · rw [Classical.not_imp, hscope, Option.not_isSome_iff_eq_none] at hsame
        exact .inr (.compile hasked hscope hsame.1 (.inl hsame.2) hholds.fresh)
    · exact ⟨hadds.inRange, fun r hr hopen => .inl (hadds.rows r hr hopen)⟩

end

/-! ### Runs -/

/-- Requests that do not replace the entry of a key. -/
structure Spares (tenant user scope : String) (env : Environment) (e : Engine)
    (request : Request) : Prop where
  features : env.features.IsMap
  spared : ¬request.Replaces env e tenant user scope

/-- Along a run that spares a key, each unmarked row of the key has been there from the start. -/
theorem Course.kept_of_spares {tenant user scope : String} {start e : Engine}
    (hclock : start.clock.inRange = true) (h : Course (Spares tenant user scope) start e) :
    e.clock.inRange = true ∧ ∀ r ∈ e.store.cache, r.key = (tenant, user, scope) →
      r.invalidatedAt = none → r ∈ start.store.cache := by
  induction h with
  | nil => exact ⟨hclock, fun r hr _ _ => hr⟩
  | step env request _ hadmitted ih =>
    obtain ⟨hnow, hkept⟩ := ih
    obtain ⟨hrange, hrows⟩ := Request.kept_or_replaces hadmitted.features hnow request
    refine ⟨hrange, fun r hr hkey hopen => ?_⟩
    rcases hrows r hr hopen with hold | hreplaces
    · exact hkept r hold hkey hopen
    · simp only [CacheRow.key, Prod.mk.injEq] at hkey
      obtain ⟨rfl, rfl, rfl⟩ := hkey
      exact absurd hreplaces hadmitted.spared

/-- What a row says of the bundle in it. -/
structure CacheRow.Describes (r : CacheRow) (length : Int) (b : Bundle) : Prop where
  bundle : r.bundle = b.toJson
  checksum : r.checksum = b.metadata.checksum
  recomputed : ∃ c, Bundle.read r.bundle = .valid c ∧ r.checksum = c.contentChecksum (some length)
  generatedAt : b.metadata.generatedAt = .utc r.generatedAt
  expiresAt : b.metadata.expiresAt = .utc r.expiresAt

theorem Generation.describes_rowOf {env : Environment} {e : Engine} {t u : String}
    {o : BundleOptions} {b : Bundle} (hf : env.features.IsMap) (hnow : e.clock.inRange = true)
    (h : fresh env e (some t) (some u) o = .ok b) :
    (rowOf t u b).Describes env.settings.checksumLength b := by
  have hread := Bundle.read_toJson (isWritable_of_fresh hf hnow h)
  obtain ⟨-, profile, -, ttlSeconds, expiresAt, -, rfl⟩ := fresh_eq_ok_iff.1 h
  exact ⟨rfl, rfl, ⟨_, hread, rfl⟩, rfl, rfl⟩

/-- Bundles come back as they were written. Whatever document a bundle is read from, its own
document gives it back, and so the same document and the same checksums. And whenever a bundle was
compiled and stored, then as long as no other has taken its place, a hit gives it back in every
field, and the row it is stored in says of it what it says itself. -/
theorem Bundle.comes_back_as_written :
    (∀ x b, read x = .valid b →
      read b.toJson = .valid b ∧ ∀ c, read b.toJson = .valid c →
        c.toJson = b.toJson ∧ ∀ length, c.contentChecksum length = b.contentChecksum length) ∧
    ∀ (env : Environment) (e : Engine) (t u : String) (o : BundleOptions) (b : Bundle),
      env.features.IsMap → e.clock.inRange = true → CacheTable.HasDistinctKeys e.store.cache →
      o.useCache = true →
      e.store.cacheHit? (some t) (some u) (some (scopeFor env o)) e.clock = none →
      ((generate (some t) (some u) o).outcome env e).1 = .ok b →
      ∀ e', Course (Spares t u b.metadata.scope) ((generate (some t) (some u) o).after env e) e' →
        ∀ row,
          e'.store.cacheHit? (some t) (some u) (some b.metadata.scope) e'.clock = some row →
          row.Describes env.settings.checksumLength b ∧
          ∀ env' : Environment, env'.settings.checkTenant (some t) = .ok () →
            (BundleCache.get? (some t) (some u) (some b.metadata.scope)).outcome env' e' =
              (.ok (some (entryOf t u b)), e') ∧
            ∀ o', o'.useCache = true → scopeFor env' o' = b.metadata.scope →
              (generate (some t) (some u) o').outcome env' e' = (.ok b, e') := by
  refine ⟨fun x b h => ?_, ?_⟩
  · have hread := read_toJson_of_read h
    refine ⟨hread, fun c hc => ?_⟩
    rw [hread] at hc
    cases hc
    exact ⟨rfl, fun _ => rfl⟩
  intro env e t u o b hf hnow hkeys huse hmiss hout e' hrun row hhit
  have hg : env.settings.checkTenant (some t) = .ok () := by
    rcases hg : env.settings.checkTenant (some t) with failure | _
    · simp [generate, huse, BundleCache.get?, hg] at hout
    · rfl
  have hfresh : fresh env e (some t) (some u) o = .ok b := by
    rw [outcome_generate_miss huse hg hmiss] at hout
    rcases hb : fresh env e (some t) (some u) o with failure | c
    · simp [compileAndCache, hb] at hout
    · rw [outcome_compileAndCache hf hnow hb] at hout
      exact hout
  have hstored : (generate (some t) (some u) o).after env e = cached e (rowOf t u b) := by
    rw [after, outcome_generate_miss huse hg hmiss, outcome_compileAndCache hf hnow hfresh]
  rw [hstored] at hrun
  obtain ⟨hmem, ⟨ht, hu, hs⟩, hopen, -⟩ := Store.of_cacheHit? hhit
  have hkey : row.key = (rowOf t u b).key := by
    rw [CacheRow.key, Option.some.inj ht, Option.some.inj hu, Option.some.inj hs]
    rfl
  -- The row has been there since the bundle was stored, and only one row has its key.
  have hstart : (cached e (rowOf t u b)).clock.inRange = true := hnow
  have hold := (Course.kept_of_spares hstart hrun).2 row hmem hkey hopen
  have hrow : row = rowOf t u b :=
    List.inj_on_of_nodup_map (hkeys.putCacheRow (rowOf t u b)) hold
      (Store.mem_putCacheRow_self _ _) hkey
  subst hrow
  have hentry := entry_rowOf (t := t) (u := u) (isWritable_of_fresh hf hnow hfresh)
  refine ⟨describes_rowOf hf hnow hfresh, fun env' hg' => ⟨?_, fun o' huse' hscope => ?_⟩⟩
  · simp [BundleCache.get?, hg', hhit, hentry]
  · rw [← hscope] at hhit
    rw [outcome_generate_hit huse' hg' hhit, hentry]
    rfl

/-- A document with plain names, a time without an offset, a number as a text, and a field that
nothing reads. -/
def Bundle.foreignDocument : Json :=
  .obj [("profile", .obj [("user_id", .str "u1"), ("userEmail", .str "u1@example.com")]),
    ("feature_policies", .obj [("alarms",
      .obj [("access", .str "granted"), ("conditions", .obj [])])]),
    ("metadata", .obj [("generated_at", .str "2024-01-01 08:00"),
      ("expiresAt", .str "2024-01-01T10:30:00.5+02:30"), ("ttl_seconds", .str " +300 "),
      ("scope", .str "global")]),
    ("comment", .null)]

/-- What it is read as. -/
def Bundle.ofForeign : Bundle where
  profile := ⟨"u1", "u1@example.com", none, none, none⟩
  domainPolicies := []
  featurePolicies := [("alarms", ⟨.granted, some .empty, none⟩)]
  permissions := ⟨[], []⟩
  metadata :=
    { generatedAt := ⟨⟨63839692800000000⟩, none⟩
      expiresAt := ⟨⟨63839701800500000⟩, some 9000⟩
      ttlSeconds := 300, scope := "global", sourceRoles := [], sourcePolicies := []
      checksum := "" }

/-- That bundle comes back from its own document, and the one of the user who may start fans comes
back a second after it was stored. -/
theorem Bundle.comes_back_of_fansAllowed :
    (read foreignDocument = .valid ofForeign ∧ read ofForeign.toJson = .valid ofForeign) ∧
    ∃ b e', Course (Spares "acme" "alice" b.metadata.scope)
        ((generate (some "acme") (some "alice") (.full (some "tenant:*") true none)).after
          Environment.plain Engine.fansAllowed) e' ∧
      e'.clock = ⟨1000000⟩ ∧
      (BundleCache.get? (some "acme") (some "alice") (some b.metadata.scope)).outcome
        Environment.plain e' = (.ok (some (entryOf "acme" "alice" b)), e') := by
  obtain ⟨hdocuments, hcache⟩ := comes_back_as_written
  refine ⟨⟨rfl, (hdocuments foreignDocument ofForeign rfl).1⟩, ?_⟩
  have hf := FeatureTable.isMap_builtIn
  have hnow : Engine.fansAllowed.clock.inRange = true := by decide
  have hg : Environment.plain.settings.checkTenant (some "acme") = .ok () := rfl
  have huser : (Engine.fansAllowed.store.user? (some "acme") (some "alice")).isSome = true := rfl
  have hspan : spanFor Environment.plain (.full (some "tenant:*") true none)
      Engine.fansAllowed.clock = .ok (300, ⟨300000000⟩) := rfl
  have hmiss : Engine.fansAllowed.store.cacheHit? (some "acme") (some "alice")
      (some (scopeFor Environment.plain (.full (some "tenant:*") true none)))
      Engine.fansAllowed.clock = none := rfl
  obtain ⟨profile, hfresh⟩ := exists_fresh hg huser hspan
  have hout := outcome_generate_miss rfl hg hmiss
  rw [outcome_compileAndCache hf hnow hfresh] at hout
  have hafter := after_eq_of_outcome hout
  -- Moving the clock asks for no bundle, so it replaces none.
  have hspared : Spares "acme" "alice" "tenant:*" Environment.plain
      ((generate (some "acme") (some "alice") (.full (some "tenant:*") true none)).after
        Environment.plain Engine.fansAllowed) (.operation (.moveClock none 1000000)) := by
    refine ⟨hf, fun hreplaces => ?_⟩
    cases hreplaces with
    | compile hasked => cases hasked
  have hrun := Course.nil.step _ _ hspared
  have hback := hcache _ _ "acme" "alice" _ _ hf hnow List.nodup_nil rfl hmiss
    (congrArg Prod.fst hout) _ hrun (rowOf "acme" "alice" _) (by rw [hafter]; rfl)
  exact ⟨_, _, hrun, by rw [hafter]; rfl, (hback.2 Environment.plain hg).1⟩

end Entitlements
