import Entitlements.Proofs.Bundle.DomainTree
import Entitlements.Proofs.Bundle.RoundTrip
import Entitlements.Proofs.Generation.Fresh

/-!
What the cache gives back. A compiled bundle is one that a document can hold, so the row it is
written to reads back as that bundle, and generating never fails for what it has cached itself. This
takes two things for granted: the feature table has different keys, which a table does, and the
clock is within the range of instants, which every move of it makes sure of.
-/

namespace Entitlements

open Time Call

/-! ### Distinct keys -/

theorem DomainTree.hasDistinctKeys_ofLeaves (leaves : List Leaf) :
    (ofLeaves leaves).HasDistinctKeys := by
  have hkeys {γ : Type} (part : DomainKey → String) (build : List Leaf → γ) (ls : List Leaf) :
      (Keyed.keys (groupBy part build ls)).Nodup := by
    rw [keys_groupBy]
    exact nodup_ascending _
  refine ⟨hkeys _ _ _, fun domain hd => ?_⟩
  obtain ⟨name, -, rfl⟩ := List.mem_map.1 hd
  refine ⟨hkeys _ _ _, fun equipment he => ?_⟩
  obtain ⟨name, -, rfl⟩ := List.mem_map.1 he
  exact hkeys _ _ _

namespace FeatureTable

/-- Does the table describe each feature once? -/
def IsMap (t : FeatureTable) : Prop := (Keyed.keys t.features).Nodup

theorem isMap_builtIn : builtIn.IsMap := by
  rw [IsMap]
  decide

theorem nodup_keys_evaluate {t : FeatureTable} (h : t.IsMap) (allowed denied : List String) :
    (Keyed.keys (t.evaluate allowed denied)).Nodup := by
  apply Keyed.nodup_keys_foldl_set (fun key => (key, FeatureAccess.guaranteed))
  rw [Keyed.keys_map (FeatureDefinition.resolve · allowed denied)]
  exact ((List.mergeSort_perm t.features _).map _).nodup_iff.2 h

theorem nodup_keys_policies {t : FeatureTable} (h : t.IsMap) (flat : FlatPermissions) :
    (Keyed.keys (t.policies flat)).Nodup := by
  rw [policies, Keyed.keys_map fun access => (⟨access, none, none⟩ : FeaturePolicy)]
  exact nodup_keys_evaluate h flat.allowed flat.denied

end FeatureTable

/-! ### Compiled bundles -/

theorem Lifetime.span_inRange {l : Lifetime} {now expiresAt : Instant} {ttlSeconds : Int}
    (h : l.span now = .ok (ttlSeconds, expiresAt)) : expiresAt.inRange = true := by
  unfold span at h
  split at h
  · split at h
    · next limit hlimit =>
      cases h
      exact Instant.add?_inRange hlimit
    · cases h
  · split at h <;> cases h
  · cases h
  · cases h
  · cases h

namespace Generation

variable {env : Environment} {e : Engine} {tenant user : Given} {o : BundleOptions}

theorem isWritable_bundleOf (hf : env.features.IsMap) (hnow : e.clock.inRange = true)
    {profile : Profile} {ttlSeconds : Int} {expiresAt : Instant}
    (hs : spanFor env o e.clock = .ok (ttlSeconds, expiresAt)) :
    (bundleOf env e tenant user o profile ttlSeconds expiresAt).IsWritable where
  domains := by
    simp only [bundleOf, Bundle.withChecksum, Bundle.ofGrants]
    split
    · exact DomainTree.hasDistinctKeys_ofLeaves _
    · exact ⟨List.nodup_nil, by simp⟩
  features := by
    simp only [bundleOf, Bundle.withChecksum, Bundle.ofGrants]
    split
    · exact FeatureTable.nodup_keys_policies hf _
    · exact List.nodup_nil
  generatedAt := Stamp.isWritable_utc hnow
  expiresAt := Stamp.isWritable_utc (Lifetime.span_inRange hs)

theorem isWritable_of_fresh (hf : env.features.IsMap) (hnow : e.clock.inRange = true) {b : Bundle}
    (h : fresh env e tenant user o = .ok b) : b.IsWritable := by
  obtain ⟨-, profile, -, ttlSeconds, expiresAt, hs, rfl⟩ := fresh_eq_ok_iff.1 h
  exact isWritable_bundleOf hf hnow hs

/-! ### Rows -/

/-- The row that holds a bundle. -/
def rowOf (tenant user : String) (b : Bundle) : CacheRow :=
  { tenant, userId := user, scope := b.metadata.scope, bundle := b.toJson
    checksum := b.metadata.checksum, generatedAt := b.metadata.generatedAt.reading
    expiresAt := b.metadata.expiresAt.reading, invalidatedAt := none, invalidationReason := none
    updatedAt := b.metadata.generatedAt.reading }

/-- The entry that a bundle is cached as. -/
def entryOf (tenant user : String) (b : Bundle) : CacheEntry :=
  { tenant, userId := user, scope := b.metadata.scope, bundle := b
    checksum := b.metadata.checksum, generatedAt := b.metadata.generatedAt.reading
    expiresAt := b.metadata.expiresAt.reading, invalidatedAt := none, invalidationReason := none }

theorem entry_rowOf {t u : String} {b : Bundle} (h : b.IsWritable) :
    (rowOf t u b).entry = .ok (entryOf t u b) := by
  simp only [CacheRow.entry, rowOf, Bundle.read_toJson h]
  rfl

/-- The engine after a bundle was made the entry of its key. -/
def cached (e : Engine) (row : CacheRow) : Engine :=
  { e with store := { e.store with cache := Store.putCacheRow row e.store.cache } }

/-! ### Outcomes -/

/-- Nobody has a bundle who has no name. -/
theorem exists_names_of_fresh {b : Bundle} (h : fresh env e tenant user o = .ok b) :
    ∃ t u, tenant = some t ∧ user = some u := by
  obtain ⟨-, profile, hp, -⟩ := fresh_eq_ok_iff.1 h
  obtain ⟨row, hrow, -⟩ := Option.map_eq_some_iff.1 hp
  have hnames := List.find?_some hrow
  simp only [Bool.and_eq_true, beq_iff_eq] at hnames
  exact ⟨row.tenant, row.id, hnames.2.symm, hnames.1.symm⟩

theorem outcome_compileAndCache {t u : String} {b : Bundle} (hf : env.features.IsMap)
    (hnow : e.clock.inRange = true) (h : fresh env e (some t) (some u) o = .ok b) :
    (compileAndCache (some t) (some u) o).outcome env e = (.ok b, cached e (rowOf t u b)) := by
  have hg := (fresh_eq_ok_iff.1 h).1
  have hentry := entry_rowOf (t := t) (u := u) (isWritable_of_fresh hf hnow h)
  rw [rowOf] at hentry
  simp [compileAndCache, h, BundleCache.put, hg, Store.cacheBundle?, hentry, rowOf, cached]

theorem outcome_generate_hit {row : CacheRow} (hc : o.useCache = true)
    (hg : env.settings.checkTenant tenant = .ok ())
    (hhit : e.store.cacheHit? tenant user (some (scopeFor env o)) e.clock = some row) :
    (generate tenant user o).outcome env e = (row.entry.map (·.bundle), e) := by
  rcases hentry : row.entry with failure | entry <;>
    simp [generate, hc, BundleCache.get?, hg, hhit, hentry, Except.map]

theorem outcome_generate_miss (hc : o.useCache = true)
    (hg : env.settings.checkTenant tenant = .ok ())
    (hmiss : e.store.cacheHit? tenant user (some (scopeFor env o)) e.clock = none) :
    (generate tenant user o).outcome env e = (compileAndCache tenant user o).outcome env e := by
  simp [generate, hc, BundleCache.get?, hg, hmiss]

end Generation

end Entitlements
