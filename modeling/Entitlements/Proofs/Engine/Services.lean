import Entitlements.Administration.FollowUp
import Entitlements.Catalog
import Entitlements.Maintenance
import Entitlements.Proofs.Engine.Moving

/-!
Services as steps of a relation. The catalogue, clean-up and the marking of stale bundles come down
to a few calls that write, and everything around these is put together in ways that keep any
relation. So whoever knows what the writing calls do knows it of the services, and no walk through
them has to be made twice.
-/

namespace Entitlements

open Time Call

variable {R : Engine → Engine → Prop} [IsPreorder Engine R] {env : Environment}

/-! ### Marking -/

section

variable
  (hmark : ∀ tenant selected reason,
    Moves R env (BundleCache.invalidateWhere tenant selected reason))
  (hpublish : ∀ event : Event, event.type = .bundleInvalidated →
    Moves R env (AuditLog.publish event))

include hmark hpublish

theorem Generation.invalidate_moves (tenant user reason scope actor : Given) :
    Moves R env (invalidate tenant user reason scope actor) := by
  have hannounce (affected : Nat) : Moves R env (do
      AuditLog.publish (invalidated tenant "user_bundle" user reason scope actor affected)
      return affected : Call Nat) :=
    (hpublish _ rfl).bind fun _ => .pure _
  unfold invalidate
  rcases scope.nonempty? with _ | scope
  · exact (hmark tenant _ _).bind hannounce
  · exact ((hmark tenant _ _).bind fun _ => .pure _).bind fun _ => hannounce _

theorem Generation.invalidateTenant_moves (tenant reason actor : Given) :
    Moves R env (invalidateTenant tenant reason actor) :=
  (hmark tenant _ _).bind fun _ => (hpublish _ rfl).bind fun _ => .pure _

theorem Administration.markStale_moves (tenant : Given) (reason : String) (actor : Given)
    (stale : Stale) : Moves R env (markStale tenant reason actor stale) := by
  cases stale with
  | nothing => exact .pure _
  | user id =>
    exact .discard (Generation.invalidate_moves hmark hpublish tenant id _ none actor)
  | tenant => exact .discard (Generation.invalidateTenant_moves hmark hpublish tenant _ actor)

end

/-! ### Clean-up -/

namespace Maintenance

theorem timeOf_moves (present : Option Stamp) : Moves R env (timeOf present) := by
  cases present with
  | none => exact .now
  | some present => exact .pure _

variable (hremove : ∀ selected, Moves R env (BundleCache.removeWhere selected))

include hremove

theorem pruneExpired_moves (present : Option Stamp) : Moves R env (pruneExpired present) :=
  (timeOf_moves present).bind fun _ => hremove _

theorem pruneInvalidated_moves (days : Option Int) (present : Option Stamp) :
    Moves R env (pruneInvalidated days present) :=
  .read_bind ((timeOf_moves present).bind fun _ => (Moves.orFail _ _).bind fun _ => hremove _)

theorem run_moves (hexpire : ∀ tenant present, Moves R env (expireAssignments tenant present))
    (task tenant : Given) (days : Option Int) : Moves R env (run task tenant days) := by
  unfold run
  rcases task.bind Task.ofName? with _ | _ | _ | _
  · exact .throw _
  · exact pruneExpired_moves hremove none
  · exact pruneInvalidated_moves hremove days none
  · exact .ite (hexpire tenant none) (.throw _)

end Maintenance

/-! ### The catalogue -/

theorem Store.insertPermission?_eq_some {s s' : Store} {id : String} {owner : Given}
    {d : PermissionDraft} {now : Instant} {row : PermissionRow}
    (h : s.insertPermission? id owner d now = some (s', row)) :
    row.id = id ∧ row.tenant = owner ∧ s' = { s with permissions := s.permissions ++ [row] } := by
  rw [insertPermission?] at h
  split at h
  · cases h
  · cases h
    exact ⟨rfl, rfl, rfl⟩

namespace Catalog

/-- A row that is let through is there and belongs to the caller. -/
theorem outcome_owned (env : Environment) (e : Engine) (tenant id : Given) :
    ∃ answer, (owned tenant id).outcome env e = (answer, e) ∧
      ∀ row, answer = .ok row → row ∈ e.store.permissions ∧ row.tenant = tenant := by
  rcases hfound : e.store.visiblePermission? tenant id with _ | row
  · exact ⟨.error (.permissionNotFound id), by simp [owned, get, hfound], by simp⟩
  · by_cases hown : row.tenant = tenant
    · refine ⟨.ok row, by simp [owned, get, hfound, hown], fun _ h => ?_⟩
      cases h
      exact ⟨List.mem_of_find?_eq_some hfound, hown⟩
    · exact ⟨.error (.immutable .globalPermission .modify id),
        by simp [owned, get, hfound, hown], by simp⟩

theorem get_moves (tenant id : Given) : Moves R env (get tenant id) :=
  Moves.store.bind fun _ => .orFail _ _

theorem owned_moves (tenant id : Given) : Moves R env (owned tenant id) :=
  (get_moves tenant id).bind fun _ => .guard (.pure _)

theorem insertUnlessThere_moves {tenant actor : Given} {p : NewPermission}
    (hinsert : Moves R env (insert tenant p actor)) :
    Moves R env (insertUnlessThere tenant p actor) := by
  refine hinsert.map.tryCatch fun failure => ?_
  split
  · exact .pure _
  · exact .throw _

end Catalog

/-- The calls of the catalogue, each with the type of its answers. -/
inductive CatalogCall : Type → Type where
  | create (tenant : Given) (p : NewPermission) (actor : Given) : CatalogCall PermissionRow
  | createAll (tenant : Given) (items : List NewPermission) (actor : Given) : CatalogCall BulkResult
  | get (tenant id : Given) : CatalogCall PermissionRow
  | update (tenant id : Given) (c : PermissionChange) (actor : Given) : CatalogCall PermissionRow
  | delete (tenant id actor : Given) : CatalogCall Unit
  | list (tenant : Given) (f : CatalogFilter) (offset : Option Int) (limit : Int) :
    CatalogCall PermissionPage
  | active (tenant : Given) : CatalogCall (List PermissionRow)
  | domains (tenant : Given) : CatalogCall (List String)
  | equipment (tenant domain : Given) : CatalogCall (List String)
  | locations (tenant domain unit : Given) : CatalogCall (List String)

namespace CatalogCall

def call : CatalogCall α → Call α
  | create tenant p actor => Catalog.create tenant p actor
  | createAll tenant items actor => Catalog.createAll tenant items actor
  | get tenant id => Catalog.get tenant id
  | update tenant id c actor => Catalog.update tenant id c actor
  | delete tenant id actor => Catalog.delete tenant id actor
  | list tenant f offset limit => Catalog.list tenant f offset limit
  | active tenant => Catalog.active tenant
  | domains tenant => Catalog.domains tenant
  | equipment tenant domain => Catalog.equipment tenant domain
  | locations tenant domain unit => Catalog.locations tenant domain unit

/-- Whom a call is made for: a tenant, or the platform. -/
def owner : CatalogCall α → Given
  | create tenant _ _ => tenant
  | createAll tenant _ _ => tenant
  | get tenant _ => tenant
  | update tenant _ _ _ => tenant
  | delete tenant _ _ => tenant
  | list tenant _ _ _ => tenant
  | active tenant => tenant
  | domains tenant => tenant
  | equipment tenant _ => tenant
  | locations tenant _ _ => tenant

/-- What an insertion does, a batch of them does, as far as it can be undone. -/
theorem moves (op : CatalogCall α) (hrestored : ∀ e e', R e e' → R e { e' with store := e.store })
    (hinsert : ∀ p actor, Moves R env (Catalog.insert op.owner p actor))
    (hupdate : ∀ id c actor, Moves R env (Catalog.update op.owner id c actor))
    (hdelete : ∀ id actor, Moves R env (Catalog.delete op.owner id actor)) :
    Moves R env op.call := by
  have hlisting {β : Type} (f : Store → β) : Moves R env (do return f (← store)) :=
    Moves.store.bind fun _ => .pure _
  cases op with
  | create tenant p actor => exact (hinsert p actor).transaction hrestored
  | createAll tenant items actor =>
    refine Moves.transaction hrestored
      (Moves.bind (.list_mapM (fun p => ?_) items) fun _ => .pure _)
    exact (Catalog.insertUnlessThere_moves (hinsert p actor)).bind fun _ => .pure _
  | get tenant id => exact Catalog.get_moves tenant id
  | update tenant id c actor => exact hupdate id c actor
  | delete tenant id actor => exact hdelete id actor
  | list tenant f offset limit =>
    exact Moves.store.bind fun _ => (Moves.window _ _ _).bind fun _ => .pure _
  | active tenant => exact hlisting _
  | domains tenant => exact hlisting _
  | equipment tenant domain => exact hlisting _
  | locations tenant domain unit => exact hlisting _

end CatalogCall

end Entitlements
