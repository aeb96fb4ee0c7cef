import Entitlements.Proofs.Bundle.TreeShape
import Entitlements.Proofs.Generation.Expiry

/-!
How the domain view of a bundle and its flat lists go together. Both are made from the same
entries, so an action is in the view exactly when some text that the bundle lists as allowed is read
as its key. The cache keeps a bundle as it was compiled, so this holds of whatever generating
answers, as long as the bundle was compiled with both views.
-/

namespace Entitlements

open Time Call

/-- Do the domain view and the flat lists of a bundle say the same? -/
structure Bundle.ViewsAgree (b : Bundle) : Prop where
  permits_iff : ∀ key : DomainKey,
    b.permits key = true ↔ ∃ text ∈ b.permissions.allowed, key.IsReadFrom text
  disjoint : ∀ text ∈ b.permissions.allowed, text ∉ b.permissions.denied

theorem DomainTree.permits_ofPermissions_iff_isReadFrom {entries : List EffectivePermission}
    {key : DomainKey} :
    permits (ofPermissions entries) key = true ↔
      ∃ e ∈ entries, e.allowed = true ∧ key.IsReadFrom e.permission := by
  simp only [permits_ofPermissions, DomainKey.ofPermission?_eq_some_iff_isReadFrom]

/-- The same by the flat list that goes with the tree. -/
theorem DomainTree.permits_iff_isReadFrom_allowed {entries : List EffectivePermission}
    {key : DomainKey} :
    permits (ofPermissions entries) key = true ↔
      ∃ text ∈ (FlatPermissions.ofPermissions entries).allowed, key.IsReadFrom text := by
  simp only [permits_ofPermissions_iff_isReadFrom, FlatPermissions.ofPermissions, List.mem_map,
    List.mem_filter]
  constructor
  · rintro ⟨e, he, ha, hread⟩
    exact ⟨e.permission, ⟨e, ⟨he, ha⟩, rfl⟩, hread⟩
  · rintro ⟨_, ⟨e, ⟨he, ha⟩, rfl⟩, hread⟩
    exact ⟨e, he, ha, hread⟩

/-- Where an allowed entry carries conditions, its location has some. -/
theorem DomainTree.exists_conditional_node {entries : List EffectivePermission}
    {e : EffectivePermission} {key : DomainKey} (he : e ∈ entries) (ha : e.allowed = true)
    (hread : key.IsReadFrom e.permission) (hc : e.conditions ≠ none) :
    ∃ node, node? (ofPermissions entries) key.domain key.equipment key.location = some node ∧
      key.action ∈ node.actions ∧ node.conditions ≠ none := by
  have hpermits := permits_ofPermissions_iff_isReadFrom.2 ⟨e, he, ha, hread⟩
  unfold permits at hpermits
  split at hpermits
  · next node hnode =>
    exact ⟨node, hnode, List.contains_iff_mem.1 hpermits,
      conditions_ne_none_of_mem hnode he ⟨ha, key.action, hread⟩ hc⟩
  · cases hpermits

namespace Generation

variable {env : Environment} {e : Engine} {tenant user : Given} {o : BundleOptions} {b : Bundle}

theorem viewsAgree_of_fresh (h : fresh env e tenant user o = .ok b)
    (hdomains : o.withDomains = true) (hflat : o.withFlat = true) : b.ViewsAgree := by
  have hviews := (shown_of_fresh h).2.2
  have hpermissions : b.permissions = (rights env e tenant user o).permissions := by
    have hshown : b.permissions = if o.withFlat then
        (rights env e tenant user o).permissions else FlatPermissions.none :=
      congrArg Views.permissions hviews
    rw [hshown, if_pos hflat]
  constructor
  · intro key
    rw [Bundle.permits_of_shown hviews, hdomains, Bool.true_and, hpermissions]
    exact DomainTree.permits_iff_isReadFrom_allowed
  · rw [hpermissions]
    exact fun text htext => FlatPermissions.not_mem_denied_of_mem_allowed htext

/-- What generating answers along a run was compiled on it, at the scope that is asked for. -/
theorem exists_fresh_of_generate (hf : env.features.IsMap) {clock : Instant}
    (hclock : clock.inRange = true) {scheme : IdScheme}
    (hrun : Course (Serves env) (Engine.empty clock scheme) e)
    (h : ((generate tenant user o).outcome env e).1 = .ok b) :
    ∃ e' o', Course (Serves env) (Engine.empty clock scheme) e' ∧
      fresh env e' tenant user o' = .ok b ∧ scopeFor env o' = scopeFor env o ∧
      (o.useCache = false → e' = e ∧ o' = o) := by
  obtain ⟨hnow, horigins⟩ := exists_origin hf (fun _ _ _ h => h) rfl hclock hrun
  rcases fresh_or_hit_of_generate hf hnow h with hfresh | ⟨huse, row, hread, hhit⟩
  · exact ⟨e, o, hrun, hfresh, rfl, fun _ => ⟨rfl, rfl⟩⟩
  · obtain ⟨hmem, ⟨rfl, rfl, hscope⟩, hopen, -⟩ := Store.of_cacheHit? hhit
    obtain ⟨x⟩ := horigins row hmem hopen
    obtain rfl : x.bundle = b := Except.ok.inj (x.holds.entry.symm.trans hread)
    refine ⟨x.before, x.options, x.run, x.holds.fresh, ?_, fun hbypass => ?_⟩
    · exact x.scope_eq.symm.trans (Option.some.inj hscope)
    · rw [hbypass] at huse
      cases huse

/-- The domain view is exactly what the allowed entries say. An action is in it when some allowed
entry is read as its key; it is in order at each level and has nothing empty below a domain; the
conditions of a location are those of its first entry that has any. So a bundle that was compiled
with all views shows one and the same in its domain view and in its flat lists, whether it was
compiled now or comes from the cache. -/
theorem domain_view_is_exact :
    (∀ entries : List EffectivePermission,
      (∀ key, DomainTree.permits (DomainTree.ofPermissions entries) key = true ↔
        ∃ e ∈ entries, e.allowed = true ∧ key.IsReadFrom e.permission) ∧
      (DomainTree.ofPermissions entries).Ordered ∧
      (∀ domain equipment place node,
        DomainTree.node? (DomainTree.ofPermissions entries) domain equipment place = some node →
          (∀ c, node.conditions = some c ↔ ∃ before e after, entries = before ++ e :: after ∧
            e.PutsAt domain equipment place ∧ e.conditions = some c ∧
              ∀ x ∈ before, x.PutsAt domain equipment place → x.conditions = none) ∧
          (node.conditions = none ↔
            ∀ e ∈ entries, e.PutsAt domain equipment place → e.conditions = none)) ∧
      ∀ e ∈ entries, ∀ key : DomainKey, e.allowed = true → key.IsReadFrom e.permission →
        e.conditions ≠ none → ∃ node,
          DomainTree.node? (DomainTree.ofPermissions entries) key.domain key.equipment
            key.location = some node ∧ key.action ∈ node.actions ∧ node.conditions ≠ none) ∧
    (∀ env e tenant user o b, o.withDomains = true → o.withFlat = true →
      ((compile tenant user o).outcome env e).1 = .ok b → b.ViewsAgree) ∧
    ∀ env : Environment, env.features.IsMap → ∀ (clock : Instant) (scheme : IdScheme) (e : Engine),
      clock.inRange = true → Course (Serves env) (Engine.empty clock scheme) e →
        ∀ tenant user o b, ((generate tenant user o).outcome env e).1 = .ok b →
          ∃ e' o', Course (Serves env) (Engine.empty clock scheme) e' ∧
            ((compile tenant user o').outcome env e').1 = .ok b ∧
            scopeFor env o' = scopeFor env o ∧ (o.useCache = false → e' = e ∧ o' = o) ∧
            (o'.withDomains = true → o'.withFlat = true → b.ViewsAgree) := by
  refine ⟨fun entries => ⟨fun key => ?_, ?_, fun _ _ _ node hnode => ?_, ?_⟩, ?_, ?_⟩
  · exact DomainTree.permits_ofPermissions_iff_isReadFrom
  · exact DomainTree.ordered_ofPermissions entries
  · exact ⟨fun _ => DomainTree.conditions_eq_some_iff hnode,
      DomainTree.conditions_eq_none_iff hnode⟩
  · exact fun e he key ha hread hc => DomainTree.exists_conditional_node he ha hread hc
  · intro env e tenant user o b hdomains hflat h
    rw [outcome_compile] at h
    exact viewsAgree_of_fresh h hdomains hflat
  · intro env hf clock scheme e hclock hrun tenant user o b h
    obtain ⟨e', o', hrun', hfresh, hscope, hbypass⟩ := exists_fresh_of_generate hf hclock hrun h
    refine ⟨e', o', hrun', ?_, hscope, hbypass, viewsAgree_of_fresh hfresh⟩
    rw [outcome_compile, hfresh]

end Generation

/-- Two spellings for one location, of which the second carries conditions, and an entry that is
denied there. -/
def EffectivePermission.fanEntries : List EffectivePermission :=
  let entry (permission : String) (allowed : Bool) (conditions : Option Conditions) :=
    EffectivePermission.mk permission allowed "operator" "fans" (!allowed) conditions
  [entry "hvac.fan.roof:stop" false (some { Conditions.empty with requiresMfa := some false }),
    entry "hvac.fan.roof:start" true none, entry "hvac.fan.roof.check" true (some .empty)]

/-- The location has both actions under the conditions of the one; and the bundle of the user who
may start fans lists a text for what its domain view permits. -/
theorem Generation.domain_view_of_fansAllowed :
    (∃ node, DomainTree.node? (DomainTree.ofPermissions EffectivePermission.fanEntries) "hvac" "fan"
        "roof" = some node ∧ node.conditions = some .empty) ∧
    ∃ b, ((generate (some "acme") (some "alice") (.full (some "tenant:*") false none)).outcome
        Environment.plain Engine.fansAllowed).1 = .ok b ∧
      b.permits ⟨"hvac", "fan", "roof", "start"⟩ = true ∧
      ∃ text ∈ b.permissions.allowed,
        DomainKey.IsReadFrom ⟨"hvac", "fan", "roof", "start"⟩ text := by
  obtain ⟨htree, -, hruns⟩ := domain_view_is_exact
  constructor
  · obtain ⟨-, -, hconditions, hcarried⟩ := htree EffectivePermission.fanEntries
    obtain ⟨node, hnode, -, -⟩ := hcarried _ (List.mem_of_getElem? (i := 2) rfl)
      ⟨"hvac", "fan", "roof", "check"⟩ rfl (.inr rfl) nofun
    refine ⟨node, hnode, ((hconditions _ _ _ _ hnode).1 _).2
      ⟨EffectivePermission.fanEntries.take 2, _, [], rfl, ⟨rfl, "check", .inr rfl⟩, rfl, ?_⟩⟩
    -- The entry before that one carries nothing, and the one before is not allowed.
    intro x hx hputs
    simp only [EffectivePermission.fanEntries, List.take, List.mem_cons, List.not_mem_nil,
      or_false] at hx
    rcases hx with rfl | rfl
    · cases hputs.1
    · rfl
  · have huser : (Engine.fansAllowed.store.user? (some "acme") (some "alice")).isSome = true := rfl
    have hspan : spanFor Environment.plain (.full (some "tenant:*") false none)
        Engine.fansAllowed.clock = .ok (300, ⟨300000000⟩) := rfl
    obtain ⟨profile, hfresh⟩ := exists_fresh rfl huser hspan
    have hanswer := outcome_generate_uncached (some "acme") (some "alice")
      (.full (some "tenant:*") false none) Environment.plain Engine.fansAllowed rfl
    rw [hfresh] at hanswer
    have hrun : Course (Serves Environment.plain) (Engine.start ⟨0⟩ false) Engine.fansAllowed :=
      Course.nil.operations fun op _ e => serves_operation _ e op
    obtain ⟨e', o', -, -, -, hbypass, hagree⟩ := hruns Environment.plain FeatureTable.isMap_builtIn
      ⟨0⟩ (.numbered false) _ (by decide) hrun _ _ _ _ (congrArg Prod.fst hanswer)
    obtain ⟨rfl, rfl⟩ := hbypass rfl
    have hpermits := (Bundle.permits_of_shown (shown_of_fresh hfresh).2.2
      ⟨"hvac", "fan", "roof", "start"⟩).trans
        (Engine.permits_of_fansAllowed ⟨rfl, rfl, rfl, rfl, rfl, rfl, rfl⟩ rfl rfl)
    exact ⟨_, congrArg Prod.fst hanswer, hpermits, ((hagree rfl rfl).permits_iff _).1 hpermits⟩

end Entitlements
