import Entitlements.Proofs.Administration.Margins
import Entitlements.Proofs.Cache.Edits
import Entitlements.Proofs.Generation.Fresh

/-!
Calls whose traces are in the margin. Announcing, caching and marking write there and nowhere else,
in every environment and however they end: the tables that rights are read from, the clock and the
identifiers stay. This is what lets the theory of administration forget about follow-ups.
-/

namespace Entitlements

open Time

namespace Call

/-- Does a call leave all but the margin as it was? -/
def StaysInMargin (x : Call α) : Prop := ∀ env e, ∃ m, x.after env e = e.withMargin m

namespace StaysInMargin

variable {x : Call α}

/-- A call that writes nothing. -/
theorem of_after_eq (h : ∀ env e, x.after env e = e) : StaysInMargin x :=
  fun env e => ⟨e.margin, h env e⟩

theorem pure (a : α) : StaysInMargin (pure a) := of_after_eq fun _ _ => rfl

theorem throw (failure : Failure) : StaysInMargin (throw failure : Call α) :=
  of_after_eq fun _ _ => rfl

theorem read : StaysInMargin read := of_after_eq fun _ _ => rfl

theorem now : StaysInMargin now := of_after_eq fun _ _ => rfl

theorem store : StaysInMargin store := of_after_eq fun _ _ => rfl

theorem ofExcept (r : Except Failure α) : StaysInMargin (ofExcept r) := by
  cases r with
  | error failure => exact throw failure
  | ok a => exact pure a

theorem orFail (failure : Failure) (a? : Option α) : StaysInMargin (orFail failure a?) := by
  cases a? with
  | none => exact throw failure
  | some a => exact pure a

theorem bind {f : α → Call β} (hx : StaysInMargin x) (hf : ∀ a, StaysInMargin (f a)) :
    StaysInMargin (x >>= f) := by
  intro env e
  have hafter := hx env e
  rw [after] at hafter
  rw [after, outcome_bind]
  rcases hr : x.outcome env e with ⟨failure | a, e₁⟩
  · rw [hr] at hafter
    exact hafter
  · rw [hr] at hafter
    obtain ⟨m, rfl⟩ := hafter
    obtain ⟨m', hm'⟩ := hf a env (e.withMargin m)
    exact ⟨m', hm'⟩

theorem requireTenant (tenant : Given) : StaysInMargin (requireTenant tenant) :=
  read.bind fun _ => ofExcept _

theorem mapM {f : α → Call β} (a? : Option α) (hf : ∀ a, StaysInMargin (f a)) :
    StaysInMargin (a?.mapM f) := by
  cases a? with
  | none => exact pure none
  | some a =>
    rw [Option.mapM_some]
    exact (hf a).bind fun b => pure (some b)

theorem ite {c : Prop} [Decidable c] {y : Call α} (hx : StaysInMargin x) (hy : StaysInMargin y) :
    StaysInMargin (if c then x else y) := by
  split
  · exact hx
  · exact hy

theorem attempt {x : Call Unit} (hx : StaysInMargin x) : StaysInMargin (attempt x) := by
  intro env e
  rw [after_eq_of_outcome (outcome_attempt env e x)]
  exact hx env e

theorem discard (hx : StaysInMargin x) : StaysInMargin (discard x) := by
  intro env e
  rw [after_discard]
  exact hx env e

end StaysInMargin

end Call

open Call

/-! ### Announcing -/

theorem AuditLog.publish_inMargin (event : Event) : StaysInMargin (publish event) := by
  refine .attempt fun env e => ?_
  obtain ⟨m, -, hm⟩ := deliver_logs env e event
  exact ⟨m, hm⟩

/-! ### The cache -/

namespace BundleCache

theorem get?_inMargin (tenant user scope : Given) : StaysInMargin (get? tenant user scope) :=
  (StaysInMargin.requireTenant tenant).bind fun _ => StaysInMargin.store.bind fun _ =>
    StaysInMargin.now.bind fun _ => .mapM _ fun _ => .ofExcept _

theorem put_inMargin (tenant user scope : Given) (bundle : Bundle) (checksum : Given)
    (generatedAt expiresAt : Option Instant) :
    StaysInMargin (put tenant user scope bundle checksum generatedAt expiresAt) := by
  intro env e
  rcases outcome_put env tenant user scope bundle checksum generatedAt expiresAt with
    ⟨p, -, hput⟩ | ⟨failure, -, hput⟩
  · exact ⟨⟨_, e.store.audit, e.outbox⟩, after_eq_of_outcome (hput e)⟩
  · exact ⟨e.margin, after_eq_of_outcome (hput e)⟩

theorem invalidateWhere_inMargin (tenant : Given) (selected : CacheRow → Bool)
    (reason : String) : StaysInMargin (invalidateWhere tenant selected reason) := by
  refine StaysInMargin.read.bind fun env => .ite ?_ (.throw _)
  refine (StaysInMargin.requireTenant tenant).bind fun _ env e => ?_
  exact ⟨⟨_, e.store.audit, e.outbox⟩, rfl⟩

theorem invalidateScope_inMargin (tenant user scope reason : Given) :
    StaysInMargin (invalidateScope tenant user scope reason) :=
  (invalidateWhere_inMargin tenant _ _).bind fun _ => .pure _

theorem removeWhere_inMargin (selected : CacheRow → Bool) :
    StaysInMargin (removeWhere selected) :=
  fun _ e => ⟨⟨_, e.store.audit, e.outbox⟩, rfl⟩

end BundleCache

/-! ### Bundles -/

namespace Generation

theorem compile_inMargin (tenant user : Given) (o : BundleOptions) :
    StaysInMargin (compile tenant user o) :=
  .of_after_eq fun env e => by rw [after, outcome_compile]

theorem compileAndCache_inMargin (tenant user : Given) (o : BundleOptions) :
    StaysInMargin (compileAndCache tenant user o) :=
  (compile_inMargin tenant user o).bind fun _ =>
    (BundleCache.put_inMargin _ _ _ _ _ _ _).bind fun _ => .pure _

theorem scopeOf_inMargin (o : BundleOptions) : StaysInMargin (scopeOf o) :=
  StaysInMargin.read.bind fun _ => .pure _

theorem generate_inMargin (tenant user : Given) (o : BundleOptions) :
    StaysInMargin (generate tenant user o) := by
  refine .ite ?_ (compile_inMargin tenant user o)
  refine (scopeOf_inMargin o).bind fun scope => ?_
  refine (BundleCache.get?_inMargin tenant user _).bind fun entry => ?_
  cases entry with
  | some entry => exact .pure _
  | none => exact compileAndCache_inMargin tenant user o

theorem invalidate_inMargin (tenant user reason scope actor : Given) :
    StaysInMargin (invalidate tenant user reason scope actor) := by
  have hannounce (affected : Nat) : StaysInMargin (do
      AuditLog.publish (invalidated tenant "user_bundle" user reason scope actor affected)
      return affected : Call Nat) :=
    (AuditLog.publish_inMargin _).bind fun _ => .pure _
  unfold invalidate
  rcases scope.nonempty? with _ | scope
  · exact (BundleCache.invalidateWhere_inMargin tenant _ _).bind hannounce
  · exact (BundleCache.invalidateScope_inMargin tenant user _ reason).bind fun _ => hannounce _

theorem invalidateTenant_inMargin (tenant reason actor : Given) :
    StaysInMargin (invalidateTenant tenant reason actor) :=
  (BundleCache.invalidateWhere_inMargin tenant _ _).bind fun _ =>
    (AuditLog.publish_inMargin _).bind fun _ => .pure _

theorem refresh_inMargin (tenant user scope reason : Given) :
    StaysInMargin (refresh tenant user scope reason) :=
  (scopeOf_inMargin _).bind fun _ => (BundleCache.invalidateScope_inMargin tenant user _ _).bind
    fun _ => generate_inMargin tenant user _

end Generation

/-! ### Following up -/

theorem Administration.followUp_inMargin (event : Event) (stale : Stale) (reason : String)
    (actor : Given) : StaysInMargin (followUp event stale reason actor) := by
  refine (AuditLog.publish_inMargin event).bind fun _ => ?_
  refine StaysInMargin.read.bind fun env => .ite (.attempt ?_) (.pure _)
  cases stale with
  | nothing => exact .pure _
  | user id => exact .discard (Generation.invalidate_inMargin event.tenant id _ none actor)
  | tenant => exact .discard (Generation.invalidateTenant_inMargin event.tenant _ actor)

/-! ### Clean-up of the cache -/

namespace Maintenance

theorem timeOf_inMargin (present : Option Stamp) : StaysInMargin (timeOf present) := by
  cases present with
  | none => exact .now
  | some present => exact .pure _

theorem pruneExpired_inMargin (present : Option Stamp) : StaysInMargin (pruneExpired present) :=
  (timeOf_inMargin present).bind fun _ => BundleCache.removeWhere_inMargin _

theorem pruneInvalidated_inMargin (days : Option Int) (present : Option Stamp) :
    StaysInMargin (pruneInvalidated days present) :=
  StaysInMargin.read.bind fun _ => (timeOf_inMargin present).bind fun _ =>
    (StaysInMargin.orFail _ _).bind fun _ => BundleCache.removeWhere_inMargin _

end Maintenance

theorem BundleCache.Edit.inMargin (w : Edit) : StaysInMargin w.call := by
  cases w with
  | put tenant user scope bundle checksum generatedAt expiresAt =>
    exact .discard (put_inMargin tenant user scope bundle checksum generatedAt expiresAt)
  | invalidateUser tenant user reason => exact .discard (invalidateWhere_inMargin tenant _ _)
  | invalidateScope tenant user scope reason =>
    exact .discard (invalidateScope_inMargin tenant user scope reason)
  | invalidateTenant tenant reason => exact .discard (invalidateWhere_inMargin tenant _ _)
  | delete tenant user scope =>
    exact .discard ((StaysInMargin.requireTenant tenant).bind fun _ => removeWhere_inMargin _)
  | pruneExpired present => exact .discard (Maintenance.pruneExpired_inMargin present)
  | pruneInvalidated days present =>
    exact .discard (Maintenance.pruneInvalidated_inMargin days present)

end Entitlements
