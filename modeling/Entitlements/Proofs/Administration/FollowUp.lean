import Entitlements.Administration.FollowUp
import Entitlements.Proofs.Engine.Reading

/-!
What follows a change. An announcement reaches the audit log or the list of events and nothing else,
and whatever becomes of it, the marking of stale bundles comes after. Where marking works, what is
left unmarked was unmarked before and is not stale. `Marks` is that much about two engines, and it
is all that the theory of the cache has to know about announcing and marking.
-/

namespace Entitlements

open Time Call

/-- Is everything as before except for the logs, the identifiers and the marks of bundles, and are
the bundles that are left unmarked all of one kind? -/
structure Engine.Marks (e e' : Engine) (kept : CacheRow → Prop) : Prop where
  clock : e'.clock = e.clock
  users : e'.store.users = e.store.users
  policies : e'.store.policies = e.store.policies
  roles : e'.store.roles = e.store.roles
  assignments : e'.store.assignments = e.store.assignments
  cache : ∀ r ∈ e'.store.cache, r.invalidatedAt = none → r ∈ e.store.cache ∧ kept r

namespace Engine.Marks

variable {e e' e'' : Engine} {kept kept' : CacheRow → Prop}

theorem refl (e : Engine) : e.Marks e fun _ => True :=
  ⟨rfl, rfl, rfl, rfl, rfl, fun _ hr _ => ⟨hr, trivial⟩⟩

theorem trans (h : e.Marks e' kept) (h' : e'.Marks e'' kept') :
    e.Marks e'' fun r => kept r ∧ kept' r where
  clock := h'.clock.trans h.clock
  users := h'.users.trans h.users
  policies := h'.policies.trans h.policies
  roles := h'.roles.trans h.roles
  assignments := h'.assignments.trans h.assignments
  cache r hr hopen := by
    obtain ⟨hr', hk'⟩ := h'.cache r hr hopen
    obtain ⟨hr, hk⟩ := h.cache r hr' hopen
    exact ⟨hr, hk, hk'⟩

theorem mono (h : e.Marks e' kept) (hw : ∀ r, kept r → kept' r) : e.Marks e' kept' :=
  { h with cache := fun r hr hopen =>
      let ⟨hmem, hk⟩ := h.cache r hr hopen
      ⟨hmem, hw r hk⟩ }

/-- What comes after a step may mark more, but never takes a mark away. -/
theorem bind {env : Environment} {x : Call α} {f : α → Call β}
    (hx : e.Marks (x.after env e) kept)
    (hf : ∀ a (e : Engine), e.Marks ((f a).after env e) fun _ => True) :
    e.Marks ((x >>= f).after env e) kept := by
  refine after_bind_of_after (P := fun e' => e.Marks e' kept) hx fun a e' hmarks => ?_
  exact (hmarks.trans (hf a e')).mono fun _ hk => hk.1

end Engine.Marks

/-! ### Announcing -/

namespace AuditLog

variable (env : Environment) (e : Engine)

theorem appendAudit?_marks {d : AuditDraft} {s : Store} (h : e.store.appendAudit? d = some s) :
    e.Marks { e with store := s } fun _ => True := by
  simp only [Store.appendAudit?, Option.bind_eq_bind, Option.bind_eq_some_iff] at h
  obtain ⟨_, -, _, -, _, -, h⟩ := h
  cases h
  exact ⟨rfl, rfl, rfl, rfl, rfl, fun _ hr _ => ⟨hr, trivial⟩⟩

theorem append_marks (d : AuditDraft) : e.Marks ((append d).after env e) fun _ => True := by
  rw [append, after_bind_of_ok (outcome_store env e)]
  refine after_bind_of_outcome (P := fun e' => e.Marks e' fun _ => True)
    (outcome_orFail env e _ _) (.refl e) fun s hs => ?_
  exact appendAudit?_marks e (eq_some_of_elim hs)

theorem record_marks (mode : Mode) (bestEffort : Bool) (d : AuditDraft) :
    e.Marks ((record mode bestEffort d).after env e) fun _ => True := by
  unfold record
  split
  · rw [after, outcome_attempt]
    exact append_marks env e _
  · exact append_marks env e _

theorem deliver_marks (event : Event) : e.Marks ((deliver event).after env e) fun _ => True := by
  rw [deliver, after_bind_of_ok (outcome_read env e)]
  cases env.sink with
  | audit =>
    dsimp only
    rw [after_bind_of_ok (outcome_read env e)]
    split
    · rw [after_bind_of_ok (outcome_now env e)]
      exact record_marks env e _ _ _
    · exact .refl e
  | outbox => exact { Engine.Marks.refl e with clock := rfl }
  | refusing => exact .refl e
  | none => exact .refl e

/-- A publication never fails, and shows in the logs only. -/
theorem publish_marks (event : Event) :
    (publish event).outcome env e = (.ok (), (publish event).after env e) ∧
      e.Marks ((publish event).after env e) fun _ => True := by
  have h := outcome_attempt env e (deliver event)
  refine ⟨?_, ?_⟩
  · rw [after, publish, h]
  · rw [after, publish, h]
    exact deliver_marks env e event

end AuditLog

/-! ### Marking -/

namespace BundleCache

variable {env : Environment} {e : Engine} {tenant : Given}

/-- The engine in which the selected rows are marked. -/
def marked (e : Engine) (selected : CacheRow → Bool) (reason : String) : Engine :=
  { e with store := (e.store.invalidateWhere selected e.clock reason).1 }

theorem marked_marks (selected : CacheRow → Bool) (reason : String) :
    e.Marks (marked e selected reason) fun r => selected r = false where
  clock := rfl
  users := rfl
  policies := rfl
  roles := rfl
  assignments := rfl
  cache r hr hopen := by
    obtain ⟨q, hq, rfl⟩ := List.mem_map.1 hr
    by_cases hm : CacheRow.isMarkable selected q = true
    · simp [hm, CacheRow.invalidate] at hopen
    · simp only [hm, Bool.false_eq_true, ↓reduceIte] at hopen ⊢
      refine ⟨hq, ?_⟩
      simpa [CacheRow.isMarkable, hopen] using hm

theorem outcome_invalidateWhere (hc : env.canInvalidate = true)
    (hg : env.settings.checkTenant tenant = .ok ()) (selected : CacheRow → Bool)
    (reason : String) :
    (invalidateWhere tenant selected reason).outcome env e =
      (.ok (e.store.invalidateWhere selected e.clock reason).2, marked e selected reason) := by
  simp [invalidateWhere, hc, hg, marked]

theorem after_invalidateWhere_of_error {failure : Failure}
    (hg : env.settings.checkTenant tenant = .error failure) (selected : CacheRow → Bool)
    (reason : String) : (invalidateWhere tenant selected reason).after env e = e := by
  cases hc : env.canInvalidate <;> simp [invalidateWhere, after, hc, hg]

/-- Marking works for all that is selected, if it works at all. -/
theorem invalidateWhere_marks (hc : env.canInvalidate = true)
    (hg : env.settings.checkTenant tenant = .ok ()) (selected : CacheRow → Bool)
    (reason : String) :
    e.Marks ((invalidateWhere tenant selected reason).after env e) fun r => selected r = false := by
  rw [after_eq_of_outcome (outcome_invalidateWhere hc hg selected reason)]
  exact marked_marks selected reason

/-- Whether or not it works, marking does nothing else. -/
theorem invalidateWhere_only_marks (env : Environment) (e : Engine) (tenant : Given)
    (selected : CacheRow → Bool) (reason : String) :
    e.Marks ((invalidateWhere tenant selected reason).after env e) fun _ => True := by
  cases hc : env.canInvalidate
  · simp only [invalidateWhere, after, outcome_bind, outcome_read, andThen_ok, hc,
      Bool.false_eq_true, ↓reduceIte, outcome_throw]
    exact .refl e
  · rcases hg : env.settings.checkTenant tenant with failure | _
    · rw [after_invalidateWhere_of_error hg]
      exact .refl e
    · exact (invalidateWhere_marks hc hg selected reason).mono fun _ _ => trivial

theorem invalidateScope_only_marks (env : Environment) (e : Engine)
    (tenant user scope reason : Given) :
    e.Marks ((invalidateScope tenant user scope reason).after env e) fun _ => True := by
  refine .bind (invalidateWhere_only_marks env e tenant _ _) fun count e => ?_
  exact .refl e

end BundleCache

namespace Generation

variable (env : Environment) (e : Engine) (tenant user : Given)

/-- Announcing an invalidation marks nothing more. -/
theorem announce_marks (event : Event) (affected : Nat) :
    e.Marks ((do AuditLog.publish event; return affected : Call Nat).after env e)
      fun _ => True := by
  refine .bind (AuditLog.publish_marks env e event).2 fun _ e => ?_
  exact .refl e

theorem invalidate_only_marks (reason scope actor : Given) :
    e.Marks ((invalidate tenant user reason scope actor).after env e) fun _ => True := by
  unfold invalidate
  split
  · refine .bind (BundleCache.invalidateScope_only_marks env e tenant user _ reason) ?_
    intro marked e
    exact announce_marks env e _ _
  · refine .bind (BundleCache.invalidateWhere_only_marks env e tenant _ _) ?_
    intro affected e
    exact announce_marks env e _ _

theorem invalidateTenant_only_marks (reason actor : Given) :
    e.Marks ((invalidateTenant tenant reason actor).after env e) fun _ => True := by
  refine .bind ?_ fun affected e => announce_marks env e _ affected
  exact BundleCache.invalidateWhere_only_marks env e tenant _ _

end Generation

/-! ### Following up -/

/-- Can a change in a tenant have made the bundles of a user stale? -/
def Stale.Covers (tenant : Given) : Stale → String → String → Prop
  | .nothing, _, _ => False
  | .user id, t, u => some t = tenant ∧ some u = id
  | .tenant, t, _ => some t = tenant

namespace Administration

variable {env : Environment} {e : Engine} {tenant : Given}

/-- Everything that a change has made stale is marked. -/
theorem markStale_marks (hc : env.canInvalidate = true)
    (hg : env.settings.checkTenant tenant = .ok ()) (reason : String) (actor : Given)
    (stale : Stale) :
    e.Marks ((markStale tenant reason actor stale).after env e)
      fun r => ¬stale.Covers tenant r.tenant r.userId := by
  cases stale with
  | nothing => exact (Engine.Marks.refl e).mono fun _ _ => id
  | user id =>
    rw [markStale, after_discard]
    refine .bind ?_ fun affected e => Generation.announce_marks env e _ affected
    refine (BundleCache.invalidateWhere_marks hc hg _ _).mono fun r hr hcovered => ?_
    simp [hcovered.1, hcovered.2] at hr
  | tenant =>
    rw [markStale, after_discard]
    refine .bind ?_ fun affected e => Generation.announce_marks env e _ affected
    refine (BundleCache.invalidateWhere_marks hc hg _ _).mono fun r hr hcovered => ?_
    rw [Stale.Covers] at hcovered
    simp [hcovered] at hr

/-- A lost announcement does not keep the bundles from being marked. -/
theorem followUp_marks (hb : env.hasBundles = true) (hc : env.canInvalidate = true)
    (event : Event) (hg : env.settings.checkTenant event.tenant = .ok ()) (stale : Stale)
    (reason : String) (actor : Given) :
    e.Marks ((followUp event stale reason actor).after env e)
      fun r => ¬stale.Covers event.tenant r.tenant r.userId := by
  obtain ⟨hok, hannounced⟩ := AuditLog.publish_marks env e event
  rw [followUp, after_bind_of_ok hok, after_bind_of_ok (outcome_read env _), hb]
  simp only [↓reduceIte]
  rw [after_eq_of_outcome (outcome_attempt env _ _)]
  exact (hannounced.trans (markStale_marks hc hg reason actor stale)).mono fun _ h => h.2

end Administration

end Entitlements
