import Entitlements.Proofs.Bundle.RoundTrip
import Entitlements.Proofs.Cache.Edits
import Mathlib.Data.List.Induction

/-!
The cache as a map in which the last writer wins and marks stick. A history is a list of edits, each
at a time of its own, and times may come in any order. What is found of a key after a history comes
from the last put for it: the row is there unless a later edit has removed it, and it carries the
mark of the first later edit that covers it. Both directions are inductions on the history from the
end: the last edit is a put for the key, or it does to the row of the key what `settle` says.
-/

namespace Entitlements

open Time Call

/-- The engine at another time. -/
def Engine.atTime (e : Engine) (time : Instant) : Engine := { e with clock := time }

namespace BundleCache

/-- Edits, each with the time at which it is made. -/
abbrev History := List (Instant × Edit)

/-- Can what is put be read back? -/
def Edit.IsReadable : Edit → Prop
  | .put _ _ _ bundle _ _ _ => bundle.IsWritable
  | _ => True

namespace History

/-- The engine after a history. -/
def replay (env : Environment) (history : History) (e : Engine) : Engine :=
  history.foldl (fun e step => step.2.call.after env (e.atTime step.1)) e

/-- The first mark that a row gets in a history, if it gets any. -/
def firstMark? (history : History) (r : CacheRow) : Option (Instant × String) :=
  history.findSome? fun step => (step.2.reason? r).map (step.1, ·)

/-- Is a put the last for its key, and is what it has written not removed again? -/
structure LastPut (history : History) (p : Put) (later : History) : Prop where
  put : ∃ earlier time, history = earlier ++ (time, p.edit) :: later
  last : ∀ step ∈ later, ∀ q : Put, step.2 = q.edit → q.key ≠ p.key
  stays : ∀ step ∈ later, step.2.removes step.1 p.row = false

variable {env : Environment} {e : Engine} {history later : History} {p : Put}
  {tenant user scope : Given}

theorem replay_concat (env : Environment) (history : History) (step : Instant × Edit)
    (e : Engine) :
    replay env (history ++ [step]) e =
      step.2.call.after env ((replay env history e).atTime step.1) := by
  rw [replay, List.foldl_append]
  rfl

theorem cache_replay_concat (hc : env.canInvalidate = true)
    (hkept : CacheTable.WellKept env.settings (replay env history e).store.cache)
    (step : Instant × Edit) :
    (replay env (history ++ [step]) e).store.cache =
      step.2.table env.settings step.1 (replay env history e).store.cache := by
  have hafter := Edit.after_call (e := (replay env history e).atTime step.1) hc hkept step.2
  rw [replay_concat, hafter]
  rfl

theorem wellKept_replay (hc : env.canInvalidate = true) (hempty : e.store.cache = [])
    (history : History) :
    CacheTable.WellKept env.settings (replay env history e).store.cache := by
  induction history using List.reverseRecOn with
  | nil =>
    rw [replay, List.foldl_nil, hempty]
    exact ⟨List.nodup_nil, fun _ hr => (List.not_mem_nil hr).elim⟩
  | append_singleton history step ih =>
    rw [cache_replay_concat hc ih]
    exact Edit.wellKept_table ih step.2

/-- What is found of a key after one more edit. -/
theorem row?_replay_concat (hc : env.canInvalidate = true) (hempty : e.store.cache = [])
    (history : History) (step : Instant × Edit) (tenant user scope : Given) :
    CacheTable.row? (replay env (history ++ [step]) e).store.cache tenant user scope =
      match (step.2.put? env.settings).filter (·.row.hasKey tenant user scope) with
      | some p => some p.row
      | none => (CacheTable.row? (replay env history e).store.cache tenant user scope).bind
          (step.2.settle env.settings step.1) := by
  have hkept := wellKept_replay hc hempty history
  rw [cache_replay_concat hc hkept]
  exact Edit.row?_table hkept.distinct tenant user scope

/-! ### Marks -/

theorem firstMark?_concat (history : History) (step : Instant × Edit) (r : CacheRow) :
    firstMark? (history ++ [step]) r =
      (firstMark? history r).or ((step.2.reason? r).map (step.1, ·)) := by
  rw [firstMark?, List.findSome?_append]
  congr 1
  rw [List.findSome?_cons, List.findSome?_nil]
  rcases (step.2.reason? r).map (step.1, ·) with _ | _ <;> rfl

/-- Which edits cover a row does not depend on its mark. -/
theorem reason?_markedBy (w : Edit) (r : CacheRow) (mark : Option (Instant × String)) :
    w.reason? (r.markedBy mark) = w.reason? r := by
  cases mark <;> cases w <;> rfl

theorem removes_markedBy (w : Edit) (now : Instant) (r : CacheRow)
    (mark : Option (Instant × String)) : w.removes now (r.markedBy mark) = w.removes now r := by
  cases mark <;> cases w <;> rfl

/-- A mark sticks: what covers a marked row again adds nothing. -/
theorem mark_markedBy {r : CacheRow} (hopen : r.invalidatedAt = none) (now : Instant)
    (mark : Option (Instant × String)) (reason? : Option String) :
    (reason?.map ((r.markedBy mark).mark now)).getD (r.markedBy mark) =
      r.markedBy (mark.or (reason?.map (now, ·))) := by
  rcases mark with _ | ⟨time, first⟩
  · rcases reason? with _ | reason
    · rfl
    · simp [CacheRow.markedBy, CacheRow.mark, hopen]
  · rcases reason? with _ | reason <;> rfl

/-! ### The last put -/

theorem LastPut.concat (h : LastPut history p later) {step : Instant × Edit}
    (hother : ∀ q : Put, step.2 = q.edit → q.key ≠ p.key)
    (hstays : step.2.removes step.1 p.row = false) :
    LastPut (history ++ [step]) p (later ++ [step]) where
  put := by
    obtain ⟨earlier, time, rfl⟩ := h.put
    exact ⟨earlier, time, by simp⟩
  last s hs := by
    rcases List.mem_append.1 hs with hs | hs
    · exact h.last s hs
    · rw [List.mem_singleton.1 hs]
      exact hother
  stays s hs := by
    rcases List.mem_append.1 hs with hs | hs
    · exact h.stays s hs
    · rw [List.mem_singleton.1 hs]
      exact hstays

/-- What is found comes from the last put, with the first mark since. -/
theorem exists_lastPut (hc : env.canInvalidate = true) (hempty : e.store.cache = [])
    {r : CacheRow}
    (h : CacheTable.row? (replay env history e).store.cache tenant user scope = some r) :
    ∃ p later, LastPut history p later ∧ r = p.row.markedBy (firstMark? later p.row) ∧
      env.settings.checkTenant (some p.tenant) = .ok () ∧
      p.row.hasKey tenant user scope = true := by
  induction history using List.reverseRecOn generalizing r with
  | nil =>
    rw [replay, List.foldl_nil, hempty] at h
    cases h
  | append_singleton history step ih =>
    rw [row?_replay_concat hc hempty] at h
    split at h
    · next p hput =>
      cases h
      obtain ⟨hput, hkey⟩ := Option.filter_eq_some_iff.1 hput
      obtain ⟨hedit, haccepted⟩ := Edit.put?_eq_some_iff.1 hput
      refine ⟨p, [], ⟨⟨history, step.1, by rw [← hedit]⟩, ?_, ?_⟩, rfl, haccepted, hkey⟩
      · intro s hs
        cases hs
      · intro s hs
        cases hs
    · next hnone =>
      obtain ⟨q, hq, hsettle⟩ := Option.bind_eq_some_iff.1 h
      obtain ⟨p, later, hlast, rfl, haccepted, hkey⟩ := ih hq
      unfold Edit.settle at hsettle
      split at hsettle
      · cases hsettle
      next hgone =>
      rw [Bool.or_eq_true, not_or, Bool.not_eq_true, Bool.not_eq_true, removes_markedBy] at hgone
      rw [reason?_markedBy, mark_markedBy rfl, Option.some.injEq] at hsettle
      have hother : ∀ p' : Put, step.2 = p'.edit → p'.key ≠ p.key := by
        -- A put for the key would have been found itself.
        intro p' hedit hsame
        simp only [Put.key, Prod.mk.injEq] at hsame
        rw [← hsame.1] at haccepted
        have hput' := Edit.put?_eq_some_iff.2 ⟨hedit, haccepted⟩
        have hkey' : p'.row.hasKey tenant user scope = true := by
          rw [← hkey, CacheRow.hasKey, CacheRow.hasKey]
          simp only [Put.row, hsame]
        rw [hput', Option.filter_some, hkey'] at hnone
        cases hnone
      refine ⟨p, later ++ [step], hlast.concat hother hgone.1, ?_, haccepted, hkey⟩
      rw [firstMark?_concat, hsettle]

/-- Conversely, what was put last is found as it was put, as long as nothing covers it. -/
theorem row?_of_lastPut (hc : env.canInvalidate = true) (hempty : e.store.cache = [])
    (haccepted : env.settings.checkTenant (some p.tenant) = .ok ())
    (hlast : LastPut history p later) (hopen : ∀ step ∈ later, step.2.reason? p.row = none) :
    CacheTable.row? (replay env history e).store.cache (some p.tenant) (some p.user)
      (some p.scope) = some p.row := by
  obtain ⟨⟨earlier, time, rfl⟩, hothers, hstays⟩ := hlast
  induction later using List.reverseRecOn with
  | nil =>
    have hkey : p.row.hasKey (some p.tenant) (some p.user) (some p.scope) = true :=
      CacheRow.hasKey_some_iff.2 rfl
    rw [row?_replay_concat hc hempty, Edit.put?_eq_some_iff.2 ⟨rfl, haccepted⟩,
      Option.filter_some, hkey]
    rfl
  | append_singleton later step ih =>
    have hbefore := ih (fun s hs => hopen s (List.mem_append_left _ hs))
      (fun s hs => hothers s (List.mem_append_left _ hs))
      (fun s hs => hstays s (List.mem_append_left _ hs))
    have hstep : step ∈ later ++ [step] := List.mem_append_right _ (List.mem_singleton.2 rfl)
    have hnone : (step.2.put? env.settings).filter
        (·.row.hasKey (some p.tenant) (some p.user) (some p.scope)) = none := by
      rw [Option.filter_eq_none_iff]
      intro q hq hkey
      exact hothers step hstep q (Edit.put?_eq_some_iff.1 hq).1 (CacheRow.hasKey_some_iff.1 hkey)
    have hclears : step.2.clears env.settings step.1 p.row = false := by
      cases step.2 <;> simp [Edit.clears, Put.row, CacheRow.isMarkedBefore]
    rw [← List.cons_append, ← List.append_assoc, row?_replay_concat hc hempty, hnone, hbefore]
    simp [Edit.settle, hstays step hstep, hclears, hopen step hstep]

end History

/-! ### Reads and counts -/

/-- How many rows are marked after a call that were not before. -/
def newlyMarked (before after : List CacheRow) : Nat :=
  before.countP fun r => r.invalidatedAt.isNone &&
    after.any fun q => decide (q.key = r.key) && q.invalidatedAt.isSome

/-- Marking counts the rows that it marks, and no row that was marked already. -/
theorem answer_invalidateWhere {env : Environment} {e : Engine} {tenant : Given}
    (hc : env.canInvalidate = true) (hg : env.settings.checkTenant tenant = .ok ())
    (hdistinct : CacheTable.HasDistinctKeys e.store.cache) (selected : CacheRow → Bool)
    (reason : String) :
    ((invalidateWhere tenant selected reason).outcome env e).1 =
      .ok (newlyMarked e.store.cache
        ((invalidateWhere tenant selected reason).after env e).store.cache) := by
  rw [after, outcome_invalidateWhere hc hg selected reason]
  apply congrArg Except.ok
  refine List.countP_congr fun r hr => ?_
  simp only [marked, Store.invalidateWhere, List.any_map, Bool.and_eq_true]
  constructor
  · intro hmarkable
    have hopen := hmarkable
    simp only [CacheRow.isMarkable, Bool.and_eq_true] at hopen
    refine ⟨hopen.2, List.any_eq_true.2 ⟨r, hr, ?_⟩⟩
    simp [hmarkable, CacheRow.invalidate, CacheRow.key]
  · rintro ⟨hopen, hmarked⟩
    obtain ⟨q, hq, hmarked⟩ := List.any_eq_true.1 hmarked
    by_cases hmarkable : CacheRow.isMarkable selected q = true
    · have hkey : q.key = r.key := by
        simpa [hmarkable, CacheRow.invalidate, CacheRow.key] using hmarked
      rwa [← List.inj_on_of_nodup_map hdistinct hq hr hkey]
    · -- A row that stays as it was has not become marked.
      simp only [Function.comp, hmarkable, Bool.false_eq_true, ↓reduceIte, Bool.and_eq_true,
        decide_eq_true_eq] at hmarked
      rw [List.inj_on_of_nodup_map hdistinct hq hr hmarked.1] at hmarked
      rw [Option.isNone_iff_eq_none] at hopen
      rw [hopen] at hmarked
      cases hmarked.2

/-- Does the cache of an engine hold what a history leaves, one row for each key, with the first
mark since the last put? -/
structure KeepsLastPuts (env : Environment) (history : History) (e : Engine) : Prop where
  read : ∀ tenant user scope now, env.settings.checkTenant (some tenant) = .ok () →
    ∃ found?, (get? (some tenant) (some user) (some scope)).outcome env (e.atTime now) =
        (.ok found?, e.atTime now) ∧
      ∀ entry, found? = some entry ↔ ∃ p later, history.LastPut p later ∧
        p.key = (tenant, user, scope) ∧ (∀ step ∈ later, step.2.reason? p.row = none) ∧
        now < p.expiresAt ∧ entry = p.entry
  distinct : (e.store.cache.map CacheRow.key).Nodup
  countUser : ∀ tenant user reason now, env.settings.checkTenant tenant = .ok () →
    ((invalidateUser tenant user reason).outcome env (e.atTime now)).1 =
      .ok (newlyMarked e.store.cache
        ((invalidateUser tenant user reason).after env (e.atTime now)).store.cache)
  countScope : ∀ tenant user scope reason now, env.settings.checkTenant tenant = .ok () →
    ((invalidateScope tenant user scope reason).outcome env (e.atTime now)).1 =
      .ok (decide (0 < newlyMarked e.store.cache
        ((invalidateScope tenant user scope reason).after env (e.atTime now)).store.cache))
  countTenant : ∀ tenant reason now, env.settings.checkTenant tenant = .ok () →
    ((invalidateTenant tenant reason).outcome env (e.atTime now)).1 =
      .ok (newlyMarked e.store.cache
        ((invalidateTenant tenant reason).after env (e.atTime now)).store.cache)
  marks : ∀ r ∈ e.store.cache, ∃ p later, history.LastPut p later ∧
    r = p.row.markedBy (History.firstMark? later p.row)

/-- A row that was put reads back as it was put. -/
theorem Put.entry_row {p : Put} (h : p.bundle.IsWritable) : p.row.entry = .ok p.entry := by
  simp only [CacheRow.entry, row, Bundle.read_toJson h]
  rfl

namespace History

variable {env : Environment} {e : Engine} {history later : History} {p : Put}

/-- A row that carries no mark was covered by nothing since it was put. -/
theorem eq_none_of_isHit {mark : Option (Instant × String)} {now : Instant}
    (h : (p.row.markedBy mark).isHit now = true) : mark = none := by
  rcases mark with _ | ⟨time, reason⟩
  · rfl
  · simp [CacheRow.markedBy, CacheRow.invalidate, CacheRow.isHit] at h

/-- A row is a hit just if the last put for its key is neither covered, removed nor expired. -/
theorem cacheHit?_replay_eq_some_iff (history : History) (hc : env.canInvalidate = true)
    (hempty : e.store.cache = []) {tenant : String}
    (hg : env.settings.checkTenant (some tenant) = .ok ()) (user scope : String) (now : Instant)
    (r : CacheRow) :
    (replay env history e).store.cacheHit? (some tenant) (some user) (some scope) now = some r ↔
      ∃ p later, LastPut history p later ∧ p.key = (tenant, user, scope) ∧
        (∀ step ∈ later, step.2.reason? p.row = none) ∧ now < p.expiresAt ∧ r = p.row := by
  have hdistinct := (wellKept_replay hc hempty history).distinct
  rw [Store.cacheHit?_eq_filter hdistinct, Option.filter_eq_some_iff]
  constructor
  · rintro ⟨hrow, hhit⟩
    obtain ⟨p, later, hlast, rfl, -, hkey⟩ := exists_lastPut hc hempty hrow
    have hopen := eq_none_of_isHit hhit
    rw [hopen] at hhit ⊢
    refine ⟨p, later, hlast, CacheRow.hasKey_some_iff.1 hkey, fun step hstep => ?_, ?_, rfl⟩
    · have hnone := List.findSome?_eq_none_iff.1 hopen step hstep
      simpa using hnone
    · simp only [CacheRow.markedBy, CacheRow.isHit, Bool.and_eq_true] at hhit
      exact of_decide_eq_true hhit.2
  · rintro ⟨p, later, hlast, hkey, hopen, hahead, rfl⟩
    cases hkey
    refine ⟨row?_of_lastPut hc hempty hg hlast hopen, ?_⟩
    simp [Put.row, CacheRow.isHit, hahead]

/-- What a history puts can be read back, if all of it can. -/
theorem LastPut.isWritable (h : LastPut history p later)
    (hread : ∀ step ∈ history, step.2.IsReadable) : p.bundle.IsWritable := by
  obtain ⟨earlier, time, rfl⟩ := h.put
  exact hread (time, p.edit) (List.mem_append_right _ List.mem_cons_self)

end History

/-- Whatever edits are made of an empty cache, at whatever times: a read finds what was put last for
its key, unless that has been covered or removed since or has expired; and marks are counted once
and stay. -/
theorem keepsLastPuts_replay (env : Environment) (hc : env.canInvalidate = true) {e : Engine}
    (hempty : e.store.cache = []) (history : History)
    (hread : ∀ step ∈ history, step.2.IsReadable) :
    KeepsLastPuts env history (history.replay env e) where
  read tenant user scope now hg := by
    have hhit := History.cacheHit?_replay_eq_some_iff history hc hempty hg user scope now
    rw [outcome_get?, hg]
    rcases hfound : (history.replay env e).store.cacheHit? (some tenant) (some user) (some scope)
        now with _ | r
    · refine ⟨none, ?_, fun entry => ⟨fun h => (Option.some_ne_none _ h.symm).elim, ?_⟩⟩
      · simp only [Engine.atTime, hfound]
        rfl
      · rintro ⟨p, later, hlast, hkey, hopen, hahead, -⟩
        have hsome := (hhit p.row).2 ⟨p, later, hlast, hkey, hopen, hahead, rfl⟩
        rw [hfound] at hsome
        cases hsome
    · obtain ⟨p, later, hlast, hkey, hopen, hahead, rfl⟩ := (hhit r).1 hfound
      have hentry := Put.entry_row (hlast.isWritable hread)
      refine ⟨some p.entry, ?_, fun entry => ⟨fun h => ?_, ?_⟩⟩
      · simp only [Engine.atTime, hfound, Option.mapM_some, hentry]
        rfl
      · cases h
        exact ⟨p, later, hlast, hkey, hopen, hahead, rfl⟩
      · -- Two puts for one key cannot both be the last.
        rintro ⟨q, later', hlast', hkey', hopen', hahead', rfl⟩
        have hsome := (hhit q.row).2 ⟨q, later', hlast', hkey', hopen', hahead', rfl⟩
        rw [hfound, Option.some.injEq] at hsome
        have hentry' := Put.entry_row (hlast'.isWritable hread)
        rw [← hsome, hentry, Except.ok.injEq] at hentry'
        rw [hentry']
  distinct := (History.wellKept_replay hc hempty history).distinct
  countUser tenant user reason now hg :=
    answer_invalidateWhere (e := (history.replay env e).atTime now) hc hg
      (History.wellKept_replay hc hempty history).distinct _ _
  countScope tenant user scope reason now hg := by
    have hanswer := answer_invalidateWhere (e := (history.replay env e).atTime now) hc hg
      (History.wellKept_replay hc hempty history).distinct (·.hasKey tenant user scope)
      (reason.nonempty?.getD Store.manualReason)
    rw [invalidateScope, after_bind_pure, outcome_bind]
    rw [outcome_invalidateWhere hc hg, Except.ok.injEq] at hanswer
    rw [outcome_invalidateWhere hc hg, andThen_ok, outcome_pure, hanswer]
    rfl
  countTenant tenant reason now hg :=
    answer_invalidateWhere (e := (history.replay env e).atTime now) hc hg
      (History.wellKept_replay hc hempty history).distinct _ _
  marks r hr := by
    have hdistinct := (History.wellKept_replay hc hempty history).distinct
    obtain ⟨p, later, hlast, hr, -⟩ := History.exists_lastPut hc hempty
      ((CacheTable.row?_eq_some_iff hdistinct).2 ⟨hr, r.hasKey_self⟩)
    exact ⟨p, later, hlast, hr⟩

/-- A bundle of nothing, put for a user until some second. -/
def putUntil (second : Int) : Put :=
  { tenant := "acme", user := "alice", scope := "tenant:*", checksum := "0"
    generatedAt := ⟨0⟩, expiresAt := ⟨second * Instant.microsPerSecond⟩
    bundle :=
      { profile := ⟨"alice", "alice@example.com", none, none, none⟩
        domainPolicies := [], featurePolicies := [], permissions := FlatPermissions.none
        metadata := ⟨.utc ⟨0⟩, .utc ⟨second * Instant.microsPerSecond⟩, second, "tenant:*", [], [],
          "0"⟩ } }

/-- The second put comes after all bundles of the tenant have been covered. -/
def putAgain : History :=
  [(⟨0⟩, (putUntil 60).edit), (⟨1⟩, .invalidateTenant (some "acme") none),
    (⟨2⟩, (putUntil 30).edit)]

theorem second_put_is_found :
    KeepsLastPuts Environment.plain putAgain
        (putAgain.replay Environment.plain (Engine.start ⟨0⟩ false)) ∧
      (get? (some "acme") (some "alice") (some "tenant:*")).outcome Environment.plain
          ((putAgain.replay Environment.plain (Engine.start ⟨0⟩ false)).atTime ⟨3⟩) =
        (.ok (some (putUntil 30).entry),
          (putAgain.replay Environment.plain (Engine.start ⟨0⟩ false)).atTime ⟨3⟩) := by
  have hwritable (second : Int)
      (h : (Instant.mk (second * Instant.microsPerSecond)).inRange = true) :
      (putUntil second).bundle.IsWritable :=
    ⟨⟨List.nodup_nil, by simp [putUntil]⟩, List.nodup_nil, Stamp.isWritable_utc rfl,
      Stamp.isWritable_utc h⟩
  have hread : ∀ step ∈ putAgain, step.2.IsReadable := by
    intro step hstep
    simp only [putAgain, List.mem_cons, List.not_mem_nil, or_false] at hstep
    rcases hstep with rfl | rfl | rfl
    · exact hwritable 60 rfl
    · trivial
    · exact hwritable 30 rfl
  have hkeeps := keepsLastPuts_replay Environment.plain rfl (e := Engine.start ⟨0⟩ false) rfl
    putAgain hread
  refine ⟨hkeeps, ?_⟩
  obtain ⟨found?, hget, hentry⟩ := hkeeps.read "acme" "alice" "tenant:*" ⟨3⟩ rfl
  have hlast : putAgain.LastPut (putUntil 30) [] :=
    { put := ⟨[(⟨0⟩, (putUntil 60).edit), (⟨1⟩, .invalidateTenant (some "acme") none)], ⟨2⟩, rfl⟩
      last := fun _ h => (List.not_mem_nil h).elim
      stays := fun _ h => (List.not_mem_nil h).elim }
  have hfound : found? = some (putUntil 30).entry :=
    (hentry _).2 ⟨putUntil 30, [], hlast, rfl, fun _ h => (List.not_mem_nil h).elim, by decide, rfl⟩
  rw [hget, hfound]

end BundleCache

end Entitlements
