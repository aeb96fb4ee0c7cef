import Entitlements.Maintenance
import Entitlements.Proofs.Administration.FollowUp
import Entitlements.Proofs.Store.CacheTable

/-!
The calls that change the table of cached bundles, and what each does to one row. A put writes a
row. Every other edit goes over the table row by row: it marks the rows it covers that carry no mark
yet, or removes rows, and leaves the rest. Which rows it covers shows in their keys, so edits never
change what a row is found by.
-/

namespace Entitlements

open Time Call

namespace CacheRow

/-- Marks a row unless it is marked already. -/
def mark (r : CacheRow) (now : Instant) (reason : String) : CacheRow :=
  if r.invalidatedAt.isNone then r.invalidate now reason else r

/-- A row with the mark that it got first, if it got one. -/
def markedBy (r : CacheRow) : Option (Instant × String) → CacheRow
  | none => r
  | some (time, reason) => r.invalidate time reason

@[simp] theorem key_mark (r : CacheRow) (now : Instant) (reason : String) :
    (r.mark now reason).key = r.key := by
  unfold mark
  split <;> rfl

end CacheRow

/-- Do the rows of a table have different keys, and only tenants that are let through? -/
structure CacheTable.WellKept (settings : Settings) (rows : List CacheRow) : Prop where
  distinct : HasDistinctKeys rows
  accepted : ∀ r ∈ rows, settings.checkTenant (some r.tenant) = .ok ()

/-- The engine with another table of cached bundles. -/
def Engine.withCache (e : Engine) (rows : List CacheRow) : Engine :=
  { e with store := { e.store with cache := rows } }

namespace BundleCache

/-! ### Edits -/

/-- What a put is given when nothing is missing. -/
structure Put where
  tenant : String
  user : String
  scope : String
  bundle : Bundle
  checksum : String
  generatedAt : Instant
  expiresAt : Instant

inductive Edit where
  | put (tenant user scope : Given) (bundle : Bundle) (checksum : Given)
    (generatedAt expiresAt : Option Instant)
  | invalidateUser (tenant user reason : Given)
  | invalidateScope (tenant user scope reason : Given)
  | invalidateTenant (tenant reason : Given)
  | delete (tenant user scope : Given)
  | pruneExpired (present : Option Stamp)
  | pruneInvalidated (days : Option Int) (present : Option Stamp)

namespace Put

/-- A put of values that may be missing. -/
def of? (tenant user scope : Given) (bundle : Bundle) (checksum : Given)
    (generatedAt expiresAt : Option Instant) : Option Put := do
  return { tenant := ← tenant, user := ← user, scope := ← scope, bundle
           checksum := ← checksum, generatedAt := ← generatedAt, expiresAt := ← expiresAt }

def edit (p : Put) : Edit :=
  .put (some p.tenant) (some p.user) (some p.scope) p.bundle (some p.checksum)
    (some p.generatedAt) (some p.expiresAt)

def key (p : Put) : String × String × String := (p.tenant, p.user, p.scope)

/-- The row that is written. -/
def row (p : Put) : CacheRow :=
  { tenant := p.tenant, userId := p.user, scope := p.scope, bundle := p.bundle.toJson
    checksum := p.checksum, generatedAt := p.generatedAt, expiresAt := p.expiresAt
    invalidatedAt := none, invalidationReason := none, updatedAt := p.generatedAt }

/-- What reads are to see of it. -/
def entry (p : Put) : CacheEntry :=
  { tenant := p.tenant, userId := p.user, scope := p.scope, bundle := p.bundle
    checksum := p.checksum, generatedAt := p.generatedAt, expiresAt := p.expiresAt
    invalidatedAt := none, invalidationReason := none }

end Put

namespace Edit

def call : Edit → Call Unit
  | put tenant user scope bundle checksum generatedAt expiresAt =>
    discard (BundleCache.put tenant user scope bundle checksum generatedAt expiresAt)
  | invalidateUser tenant user reason => discard (BundleCache.invalidateUser tenant user reason)
  | invalidateScope tenant user scope reason =>
    discard (BundleCache.invalidateScope tenant user scope reason)
  | invalidateTenant tenant reason => discard (BundleCache.invalidateTenant tenant reason)
  | delete tenant user scope => discard (BundleCache.delete tenant user scope)
  | pruneExpired present => discard (Maintenance.pruneExpired present)
  | pruneInvalidated days present => discard (Maintenance.pruneInvalidated days present)

/-- What an edit puts, if anything: all of it has to be given, and the tenant let through. -/
def put? (settings : Settings) : Edit → Option Put
  | put tenant user scope bundle checksum generatedAt expiresAt => do
    (settings.checkTenant tenant).toOption
    Put.of? tenant user scope bundle checksum generatedAt expiresAt
  | _ => none

/-- The reason for which an edit marks a row, if it covers the row. -/
def reason? (r : CacheRow) : Edit → Option String
  | invalidateUser tenant user reason =>
    if some r.tenant == tenant && some r.userId == user then
      some (reason.nonempty?.getD Store.manualReason)
    else none
  | invalidateScope tenant user scope reason =>
    if r.hasKey tenant user scope then some (reason.nonempty?.getD Store.manualReason) else none
  | invalidateTenant tenant reason =>
    if some r.tenant == tenant then some (reason.nonempty?.getD Store.tenantReason) else none
  | _ => none

/-- Does an edit at a time remove a row, marked or not? -/
def removes (now : Instant) (r : CacheRow) : Edit → Bool
  | delete tenant user scope =>
    some r.tenant == tenant && some r.userId == user && scope.all (· == r.scope)
  | pruneExpired present => r.isExpired (present.elim now (·.reading))
  | _ => false

/-- Does an edit at a time remove a row because of the mark it carries? -/
def clears (settings : Settings) (now : Instant) (r : CacheRow) : Edit → Bool
  | pruneInvalidated days present =>
    ((present.elim now (·.reading)).addDays? (-(days.getD settings.retentionDays))).any
      fun cutoff => r.isMarkedBefore cutoff
  | _ => false

/-- What an edit at a time makes of a row that is there. -/
def settle (settings : Settings) (now : Instant) (w : Edit) (r : CacheRow) : Option CacheRow :=
  if w.removes now r || w.clears settings now r then none
  else some (((w.reason? r).map (r.mark now)).getD r)

/-- The table that an edit at a time makes of a table. -/
def table (settings : Settings) (now : Instant) (w : Edit) (rows : List CacheRow) :
    List CacheRow :=
  match w.put? settings with
  | some p => Store.putCacheRow p.row rows
  | none => rows.filterMap (w.settle settings now)

section

variable {settings : Settings} {now : Instant} {w : Edit} {r r' : CacheRow}

theorem put?_eq_some_iff {p : Put} :
    w.put? settings = some p ↔
      w = p.edit ∧ settings.checkTenant (some p.tenant) = .ok () := by
  constructor
  · intro h
    cases w with
    | put tenant user scope bundle checksum generatedAt expiresAt =>
      simp only [put?, Put.of?, Option.bind_eq_bind, Option.bind_eq_some_iff] at h
      obtain ⟨_, haccepted, _, rfl, _, rfl, _, rfl, _, rfl, _, rfl, _, rfl, h⟩ := h
      cases h
      refine ⟨rfl, ?_⟩
      cases hg : settings.checkTenant _
      · rw [hg] at haccepted
        cases haccepted
      · rfl
    | _ => cases h
  · rintro ⟨rfl, hg⟩
    simp only [Put.edit, put?, hg]
    rfl

theorem settle_keepsKey (settings : Settings) (now : Instant) (w : Edit) :
    CacheTable.KeepsKey (w.settle settings now) := by
  intro r r' h
  unfold settle at h
  split at h
  · cases h
  · cases h
    rcases w.reason? r with _ | reason
    · rfl
    · exact CacheRow.key_mark r now reason

/-- A put does nothing to the rows of other keys. -/
theorem settle_put {tenant user scope : Given} {bundle : Bundle} {checksum : Given}
    {generatedAt expiresAt : Option Instant} :
    (put tenant user scope bundle checksum generatedAt expiresAt).settle settings now = some :=
  rfl

/-! ### Tables -/

/-- What is found after an edit: what it has put, or what it makes of what was found before. -/
theorem row?_table {rows : List CacheRow} (h : CacheTable.HasDistinctKeys rows)
    (tenant user scope : Given) :
    CacheTable.row? (w.table settings now rows) tenant user scope =
      match (w.put? settings).filter (·.row.hasKey tenant user scope) with
      | some p => some p.row
      | none => (CacheTable.row? rows tenant user scope).bind (w.settle settings now) := by
  unfold table
  rcases hput : w.put? settings with _ | p
  · exact CacheTable.row?_filterMap h (settle_keepsKey settings now w)
  · obtain ⟨rfl, -⟩ := put?_eq_some_iff.1 hput
    simp only [CacheTable.row?_putCacheRow, Option.filter_some, Put.edit, settle_put]
    split <;> simp

end

end Edit

/-! ### Calls -/

section

variable {env : Environment} {e : Engine} {tenant : Given}

/-- Reading finds the hit of a key, and fails only for what it cannot read back. -/
theorem outcome_get? (env : Environment) (e : Engine) (tenant user scope : Given) :
    (get? tenant user scope).outcome env e =
      ((env.settings.checkTenant tenant).bind fun _ =>
        (e.store.cacheHit? tenant user scope e.clock).mapM CacheRow.entry, e) := by
  rcases hg : env.settings.checkTenant tenant with failure | _
  · simp [get?, hg, Except.bind]
  · rcases hhit : e.store.cacheHit? tenant user scope e.clock with _ | row
    · simp [get?, hg, Except.bind, hhit]
    · rcases hentry : row.entry <;> simp [get?, hg, Except.bind, hhit, hentry]

/-- Marking goes over all rows that are selected, which are rows of the tenant. -/
theorem after_invalidateWhere (hc : env.canInvalidate = true)
    (haccepted : ∀ r ∈ e.store.cache, env.settings.checkTenant (some r.tenant) = .ok ())
    {selected : CacheRow → Bool} (hof : ∀ r, selected r = true → some r.tenant = tenant)
    (reason : String) :
    (invalidateWhere tenant selected reason).after env e =
      e.withCache (e.store.cache.map fun r =>
        ((if selected r then some reason else none).map (r.mark e.clock)).getD r) := by
  rcases hg : env.settings.checkTenant tenant with failure | _
  · -- A tenant that is not let through has no rows.
    have hsame : (e.store.cache.map fun r =>
        ((if selected r then some reason else none).map (r.mark e.clock)).getD r) =
          e.store.cache := by
      refine (List.map_congr_left fun r hr => ?_).trans (List.map_id _)
      have hother : ¬selected r = true := by
        intro hsel
        have haccepted := haccepted r hr
        rw [hof r hsel, hg] at haccepted
        cases haccepted
      rw [if_neg hother]
      rfl
    rw [after_invalidateWhere_of_error hg, hsame]
    rfl
  · rw [after_eq_of_outcome (outcome_invalidateWhere hc hg selected reason)]
    refine congrArg e.withCache (List.map_congr_left fun r _ => ?_)
    unfold CacheRow.isMarkable CacheRow.mark
    cases selected r <;> simp

theorem after_removeWhere (selected : CacheRow → Bool) :
    (removeWhere selected).after env e =
      e.withCache (e.store.cache.filter fun r => !selected r) := rfl

theorem cacheBundle?_eq (s : Store) (tenant user scope : Given) (bundle : Bundle)
    (checksum : Given) (generatedAt expiresAt : Option Instant) :
    s.cacheBundle? tenant user scope bundle checksum generatedAt expiresAt =
      (Put.of? tenant user scope bundle checksum generatedAt expiresAt).map fun p =>
        ({ s with cache := Store.putCacheRow p.row s.cache }, p.row) := by
  cases tenant <;> cases user <;> cases scope <;> cases checksum <;> cases generatedAt <;>
    cases expiresAt <;> rfl

/-- A put writes its row, or is refused on every engine for the same reason. -/
theorem outcome_put (env : Environment) (tenant user scope : Given) (bundle : Bundle)
    (checksum : Given) (generatedAt expiresAt : Option Instant) :
    (∃ p, (Edit.put tenant user scope bundle checksum generatedAt expiresAt).put? env.settings =
        some p ∧
      ∀ e, (put tenant user scope bundle checksum generatedAt expiresAt).outcome env e =
        (p.row.entry, e.withCache (Store.putCacheRow p.row e.store.cache))) ∨
    ∃ failure,
      (Edit.put tenant user scope bundle checksum generatedAt expiresAt).put? env.settings = none ∧
      ∀ e, (put tenant user scope bundle checksum generatedAt expiresAt).outcome env e =
        (.error failure, e) := by
  rcases hg : env.settings.checkTenant tenant with failure | _
  · right
    refine ⟨failure, ?_, fun e => ?_⟩
    · simp [Edit.put?, hg, Except.toOption]
    · simp [put, hg]
  · rcases hput : Put.of? tenant user scope bundle checksum generatedAt expiresAt with _ | p
    · right
      refine ⟨.constraint, ?_, fun e => ?_⟩
      · simp [Edit.put?, hg, hput, Except.toOption]
      · simp [put, hg, cacheBundle?_eq, hput]
    · left
      refine ⟨p, ?_, fun e => ?_⟩
      · simp [Edit.put?, hg, hput, Except.toOption]
      · simp [put, hg, cacheBundle?_eq, hput, Engine.withCache]

end

namespace Edit

variable {env : Environment} {e : Engine}

/-- The table after an edit that only marks. -/
theorem table_of_marks {settings : Settings} {now : Instant} {w : Edit} {rows : List CacheRow}
    (hput : w.put? settings = none)
    (hkeeps : ∀ r, w.removes now r = false ∧ w.clears settings now r = false) :
    w.table settings now rows =
      rows.map fun r => ((w.reason? r).map (r.mark now)).getD r := by
  have hsettle : w.settle settings now =
      some ∘ fun r => ((w.reason? r).map (r.mark now)).getD r := by
    funext r
    simp [settle, hkeeps r]
  rw [table, hput, hsettle, List.filterMap_eq_map]

/-- The table after an edit that only removes. -/
theorem table_of_removal {settings : Settings} {now : Instant} {w : Edit} {rows : List CacheRow}
    (hput : w.put? settings = none) (hmarks : ∀ r, w.reason? r = none) :
    w.table settings now rows =
      rows.filter fun r => !(w.removes now r || w.clears settings now r) := by
  simp only [table, hput]
  induction rows with
  | nil => rfl
  | cons r rest ih =>
    rw [List.filterMap_cons, List.filter_cons, ih]
    cases h : (w.removes now r || w.clears settings now r) <;>
      simp only [settle, h, hmarks r] <;> rfl

theorem after_pruneExpired (env : Environment) (e : Engine) (present : Option Stamp) :
    (pruneExpired present).call.after env e =
      e.withCache (e.store.cache.filter fun r =>
        !r.isExpired (present.elim e.clock (·.reading))) := by
  rw [call, after_discard]
  cases present <;> rfl

/-- Without a cutoff nothing is removed. -/
theorem after_pruneInvalidated (env : Environment) (e : Engine) (days : Option Int)
    (present : Option Stamp) :
    (pruneInvalidated days present).call.after env e =
      e.withCache (e.store.cache.filter fun r =>
        !(pruneInvalidated days present).clears env.settings e.clock r) := by
  have htime : (Maintenance.timeOf present).outcome env e =
      (.ok (present.elim e.clock (·.reading)), e) := by
    cases present <;> rfl
  rw [call, after_discard, Maintenance.pruneInvalidated, after_bind_of_ok (outcome_read env e)]
  dsimp only
  rw [after_bind_of_ok htime]
  simp only [clears]
  rcases hcutoff : (present.elim e.clock (·.reading)).addDays?
      (-(days.getD env.settings.retentionDays)) with _ | cutoff
  · have hsame : e.store.cache.filter (fun _ => true) = e.store.cache :=
      List.filter_eq_self.2 fun _ _ => rfl
    simp only [Option.any_none, Bool.not_false, hsame]
    simp [after, orFail, Engine.withCache]
  · have hfound : (orFail .outOfRange (some cutoff)).outcome env e = (.ok cutoff, e) := rfl
    rw [after_bind_of_ok hfound]
    exact after_removeWhere _

/-- An edit does to the table what its description says, and nothing to the rest of the engine. -/
theorem after_call (hc : env.canInvalidate = true)
    (hkept : CacheTable.WellKept env.settings e.store.cache) (w : Edit) :
    w.call.after env e = e.withCache (w.table env.settings e.clock e.store.cache) := by
  cases w with
  | put tenant user scope bundle checksum generatedAt expiresAt =>
    rw [call, after_discard, after, table]
    rcases outcome_put env tenant user scope bundle checksum generatedAt expiresAt with
      ⟨p, hput, hout⟩ | ⟨failure, hput, hout⟩
    · rw [hput, hout]
    · rw [hput, hout, settle_put, List.filterMap_some]
      rfl
  | invalidateUser tenant user reason =>
    rw [call, after_discard, BundleCache.invalidateUser, after_invalidateWhere hc hkept.accepted,
      table_of_marks rfl fun _ => ⟨rfl, rfl⟩]
    · rfl
    · intro r hr
      simp only [Bool.and_eq_true, beq_iff_eq] at hr
      exact hr.1
  | invalidateScope tenant user scope reason =>
    rw [call, after_discard, BundleCache.invalidateScope, after_bind_pure,
      after_invalidateWhere hc hkept.accepted, table_of_marks rfl fun _ => ⟨rfl, rfl⟩]
    · rfl
    · intro r hr
      exact (CacheRow.hasKey_iff.1 hr).1
  | invalidateTenant tenant reason =>
    rw [call, after_discard, BundleCache.invalidateTenant, after_invalidateWhere hc hkept.accepted,
      table_of_marks rfl fun _ => ⟨rfl, rfl⟩]
    · rfl
    · intro r hr
      exact beq_iff_eq.1 hr
  | delete tenant user scope =>
    rw [call, after_discard, table_of_removal rfl fun _ => rfl]
    simp only [removes, clears, Bool.or_false]
    rcases hg : env.settings.checkTenant tenant with failure | _
    · -- As before, there is nothing to remove.
      have hsame : (e.store.cache.filter fun r =>
          !(some r.tenant == tenant && some r.userId == user && scope.all (· == r.scope))) =
            e.store.cache := by
        refine List.filter_eq_self.2 fun r hr => ?_
        have hother : some r.tenant ≠ tenant := by
          intro hof
          have haccepted := hkept.accepted r hr
          rw [hof, hg] at haccepted
          cases haccepted
        simp [hother]
      rw [hsame, after, BundleCache.delete, outcome_bind, outcome_requireTenant, hg]
      rfl
    · have hletThrough : (requireTenant tenant).outcome env e = (.ok (), e) := by simp [hg]
      rw [BundleCache.delete, after_bind_of_ok hletThrough]
      exact after_removeWhere _
  | pruneExpired present =>
    rw [after_pruneExpired, table_of_removal rfl fun _ => rfl]
    simp only [removes, clears, Bool.or_false]
  | pruneInvalidated days present =>
    rw [after_pruneInvalidated, table_of_removal rfl fun _ => rfl]
    simp only [removes, Bool.false_or]

/-- Edits keep what tells rows apart, and let no new tenant in. -/
theorem wellKept_table {settings : Settings} {now : Instant} {rows : List CacheRow}
    (h : CacheTable.WellKept settings rows) (w : Edit) :
    CacheTable.WellKept settings (w.table settings now rows) := by
  unfold table
  rcases hput : w.put? settings with _ | p
  · refine ⟨h.distinct.filterMap (settle_keepsKey settings now w), fun r' hr' => ?_⟩
    obtain ⟨r, hr, hrr'⟩ := List.mem_filterMap.1 hr'
    have hkey := settle_keepsKey settings now w r r' hrr'
    simp only [CacheRow.key, Prod.mk.injEq] at hkey
    rw [hkey.1]
    exact h.accepted r hr
  · refine ⟨h.distinct.putCacheRow p.row, fun r hr => ?_⟩
    rcases Store.mem_putCacheRow hr with rfl | hr
    · exact (put?_eq_some_iff.1 hput).2
    · exact h.accepted r hr

end Edit

end BundleCache

end Entitlements
