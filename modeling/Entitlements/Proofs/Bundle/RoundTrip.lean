import Entitlements.Bundle.Codec
import Entitlements.Proofs.Schema.Fields
import Entitlements.Proofs.Time.Written

/-!
A bundle that is written as a document is read back from it. This holds of every bundle a document
can hold: its maps have different keys at every level, and its times are such as documents spell.
Each record is read back on its own, from the inside out.
-/

namespace Entitlements

open Schema FieldName Time

/-! ### Parts of bundles -/

theorem reads_map {read : Reader α} {write : α → Json} {xs : Keyed α} (hk : xs.keys.Nodup)
    (h : ∀ e ∈ xs, Reads read write e.2) : Reads (Schema.map read) (objectOf write) xs := by
  have hentries := entries_map h
  simp only [Reads, objectOf, Schema.map, hentries, Checked.map_valid, Keyed.ofList_of_nodup hk]

theorem Keyed.get?_unlessNone (key other : String) (write : α → Json) (o : Option α) :
    get? (unlessNone key write o) other = if other = key then o.map write else none := by
  cases o with
  | none => simp [unlessNone]
  | some a => simp [unlessNone, get?_cons]

theorem Keyed.get?_member (key other : String) (write : α → Json) (o : Option α) :
    get? (Conditions.member key write o) other = if other = key then o.map write else none :=
  get?_unlessNone key other write o

theorem keys_member (key : String) (write : α → Json) (o : Option α) :
    List.Sublist (Keyed.keys (Conditions.member key write o)) [key] := by
  cases o <;> simp [Conditions.member, Keyed.keys]

theorem Conditions.nodup_keys_fields (c : Conditions) : (Keyed.keys (c.fields (·.key))).Nodup := by
  have hsub : List.Sublist (Keyed.keys (c.fields (·.key)))
      ([requiresMfaField.key] ++ [onlyBusinessHoursField.key] ++ [allowedDeviceTypesField.key] ++
        [ipAllowlistField.key] ++ [maxSessionDurationField.key]) := by
    simp only [fields, Keyed.keys, List.map_append]
    exact ((((keys_member _ _ _).append (keys_member _ _ _)).append (keys_member _ _ _)).append
      (keys_member _ _ _)).append (keys_member _ _ _)
  exact hsub.nodup (by decide)

theorem Conditions.get?_fields (c : Conditions) (key : String) :
    Keyed.get? (c.fields (·.key)) key =
      (((((if key = "requiresMFA" then c.requiresMfa.map .bool else none).or
        (if key = "onlyBusinessHours" then c.onlyBusinessHours.map .bool else none)).or
        (if key = "allowedDeviceTypes" then c.allowedDeviceTypes.map .ofTexts else none)).or
        (if key = "ipAllowlist" then c.ipAllowlist.map .ofTexts else none)).or
        (if key = "maxSessionDuration" then c.maxSessionDuration.map .int else none)) := by
  simp only [fields, Keyed.get?_append, Keyed.get?_member]
  rfl

/-- Each condition that is set is found under its key, and none under its plain name. -/
theorem reads_conditions (c : Conditions) : Reads Conditions.read Conditions.toJson c := by
  have hmfa : Keyed.get? (c.fields (·.key)) Conditions.requiresMfaField.key =
      c.requiresMfa.map .bool := by
    simp [Conditions.get?_fields, Conditions.requiresMfaField]
  have hhours : Keyed.get? (c.fields (·.key)) Conditions.onlyBusinessHoursField.key =
      c.onlyBusinessHours.map .bool := by
    simp [Conditions.get?_fields, Conditions.onlyBusinessHoursField]
  have hdevices : Keyed.get? (c.fields (·.key)) Conditions.allowedDeviceTypesField.key =
      c.allowedDeviceTypes.map .ofTexts := by
    simp [Conditions.get?_fields, Conditions.allowedDeviceTypesField]
  have hips : Keyed.get? (c.fields (·.key)) Conditions.ipAllowlistField.key =
      c.ipAllowlist.map .ofTexts := by
    simp [Conditions.get?_fields, Conditions.ipAllowlistField]
  have hduration : Keyed.get? (c.fields (·.key)) Conditions.maxSessionDurationField.key =
      c.maxSessionDuration.map .int := by
    simp [Conditions.get?_fields, Conditions.maxSessionDurationField]
  have hnames (f : FieldName) (hf : f ∈ [Conditions.requiresMfaField,
      Conditions.onlyBusinessHoursField, Conditions.allowedDeviceTypesField,
      Conditions.ipAllowlistField, Conditions.maxSessionDurationField]) :
      Keyed.get? (c.fields (·.key)) f.name = none := by
    simp only [List.mem_cons, List.not_mem_nil, or_false] at hf
    rcases hf with rfl | rfl | rfl | rfl | rfl <;>
      simp [Conditions.get?_fields, Conditions.requiresMfaField,
        Conditions.onlyBusinessHoursField, Conditions.allowedDeviceTypesField,
        Conditions.ipAllowlistField, Conditions.maxSessionDurationField]
  simp only [Reads, Conditions.toJson, Conditions.read, model_obj c.nodup_keys_fields]
  rw [optional_of_get?_map hmfa (.inr (hnames _ (by simp))) flag_ne_null fun b _ => reads_flag b,
    optional_of_get?_map hhours (.inr (hnames _ (by simp))) flag_ne_null fun b _ => reads_flag b,
    optional_of_get?_map hdevices (.inr (hnames _ (by simp))) texts_ne_null
      fun ts _ => reads_texts ts,
    optional_of_get?_map hips (.inr (hnames _ (by simp))) texts_ne_null
      fun ts _ => reads_texts ts,
    optional_of_get?_map hduration (.inr (hnames _ (by simp))) integer_ne_null
      fun n _ => reads_integer n]
  rfl

theorem conditions_ne_null (c : Conditions) : c.toJson ≠ .null := by simp [Conditions.toJson]

theorem LocationActions.nodup_keys (l : LocationActions) :
    (Keyed.keys (("actions", Json.ofTexts l.actions) ::
      unlessNone "conditions" Conditions.toJson l.conditions)).Nodup := by
  rcases l.conditions with _ | c <;> simp [Keyed.keys, unlessNone]

theorem reads_location (l : LocationActions) :
    Reads LocationActions.read LocationActions.toJson l := by
  have hconditions : Keyed.get? (("actions", Json.ofTexts l.actions) ::
      unlessNone "conditions" Conditions.toJson l.conditions) "conditions" =
        l.conditions.map Conditions.toJson := by
    simp [Keyed.get?_cons, Keyed.get?_unlessNone]
  simp only [Reads, LocationActions.toJson, LocationActions.read, model_obj l.nodup_keys]
  rw [withDefault_of_get? rfl (reads_texts _),
    optional_of_get?_map hconditions (.inl hconditions) conditions_ne_null
      fun c _ => reads_conditions c]
  rfl

theorem reads_access (access : FeatureAccess) :
    Reads (choice FeatureAccess.ofText?) (fun a => .str a.text) access := by
  simp [Reads, choice, FeatureAccess.ofText?_text]

theorem FeaturePolicy.nodup_keys (p : FeaturePolicy) :
    (Keyed.keys (("access", Json.str p.access.text) ::
      (unlessNone "conditions" Conditions.toJson p.conditions ++
        unlessNone "expiresAt" Json.str p.expiresAt))).Nodup := by
  rcases p.conditions with _ | c <;> rcases p.expiresAt with _ | t <;>
    simp [Keyed.keys, unlessNone]

theorem reads_feature (p : FeaturePolicy) : Reads FeaturePolicy.read FeaturePolicy.toJson p := by
  have hconditions : Keyed.get? (("access", Json.str p.access.text) ::
      (unlessNone "conditions" Conditions.toJson p.conditions ++
        unlessNone "expiresAt" Json.str p.expiresAt)) "conditions" =
          p.conditions.map Conditions.toJson := by
    simp [Keyed.get?_cons, Keyed.get?_append, Keyed.get?_unlessNone]
  have hexpiry : Keyed.get? (("access", Json.str p.access.text) ::
      (unlessNone "conditions" Conditions.toJson p.conditions ++
        unlessNone "expiresAt" Json.str p.expiresAt)) "expiresAt" = p.expiresAt.map .str := by
    simp [Keyed.get?_cons, Keyed.get?_append, Keyed.get?_unlessNone]
  have hname : Keyed.get? (("access", Json.str p.access.text) ::
      (unlessNone "conditions" Conditions.toJson p.conditions ++
        unlessNone "expiresAt" Json.str p.expiresAt)) "expires_at" = none := by
    simp [Keyed.get?_cons, Keyed.get?_append, Keyed.get?_unlessNone]
  simp only [Reads, FeaturePolicy.toJson, FeaturePolicy.read, model_obj p.nodup_keys]
  rw [required_of_get? rfl (reads_access _),
    optional_of_get?_map hconditions (.inl hconditions) conditions_ne_null
      fun c _ => reads_conditions c,
    optional_of_get?_map hexpiry (.inr hname) text_ne_null fun t _ => reads_text t]
  rfl

theorem reads_flat (p : FlatPermissions) :
    Reads FlatPermissions.read FlatPermissions.toJson p := by
  simp only [Reads, FlatPermissions.toJson, FlatPermissions.read]
  rw [model_obj (by simp [Keyed.keys]), withDefault_of_get? rfl (reads_texts _),
    withDefault_of_get? rfl (reads_texts _)]
  rfl

theorem reads_group (g : GroupSummary) : Reads GroupSummary.read GroupSummary.toJson g := by
  simp only [Reads, GroupSummary.toJson, GroupSummary.read]
  rw [model_obj (by simp [Keyed.keys]), required_of_get? rfl (reads_text _),
    required_of_get? rfl (reads_text _), required_of_get? rfl (reads_text _)]
  rfl

theorem nullOr_eq_elim (write : α → Json) (o : Option α) : nullOr write o = o.elim .null write := by
  cases o <;> rfl

theorem group_ne_null (g : GroupSummary) : g.toJson ≠ .null := by simp [GroupSummary.toJson]

theorem reads_profile (p : Profile) : Reads Profile.read Profile.toJson p := by
  simp only [Reads, Profile.toJson, Profile.read, nullOr_eq_elim]
  rw [model_obj (by simp [Keyed.keys]), required_of_get? rfl (reads_text _),
    required_of_get? rfl (reads_text _),
    optional_of_get?_null rfl text_ne_null fun s _ => reads_text s,
    optional_of_get?_null rfl text_ne_null fun s _ => reads_text s,
    optional_of_get?_null rfl group_ne_null fun g _ => reads_group g]
  rfl

theorem reads_time {s : Stamp} (h : s.IsWritable) :
    Reads Schema.time (fun s => .str s.documentText) s := by
  simp [Reads, Schema.time, Stamp.ofDocument?_documentText h, timeInRange, h.inRange]

theorem reads_metadata {m : Metadata} (hg : m.generatedAt.IsWritable)
    (he : m.expiresAt.IsWritable) : Reads Metadata.read Metadata.toJson m := by
  simp only [Reads, Metadata.toJson, Metadata.read]
  rw [model_obj (by simp [Keyed.keys]), required_of_get? rfl (reads_time hg),
    required_of_get? rfl (reads_time he), required_of_get? rfl (reads_integer _),
    required_of_get? rfl (reads_text _), withDefault_of_get? rfl (reads_texts _),
    withDefault_of_get? rfl (reads_texts _), withDefault_of_get? rfl (reads_text _)]
  rfl

/-! ### Bundles -/

/-- Are the keys different at every level? -/
def DomainTree.HasDistinctKeys (tree : DomainTree) : Prop :=
  tree.keys.Nodup ∧ ∀ domain ∈ tree,
    (Keyed.keys domain.2).Nodup ∧ ∀ equipment ∈ domain.2, (Keyed.keys equipment.2).Nodup

theorem reads_domains {tree : DomainTree} (h : tree.HasDistinctKeys) :
    Reads DomainTree.read DomainTree.toJson tree :=
  reads_map h.1 fun domain hd => reads_map (h.2 domain hd).1 fun equipment he =>
    reads_map ((h.2 domain hd).2 equipment he) fun location _ => reads_location location.2

theorem reads_features {policies : Keyed FeaturePolicy} (h : policies.keys.Nodup) :
    Reads (Schema.map FeaturePolicy.read) (objectOf FeaturePolicy.toJson) policies :=
  reads_map h fun feature _ => reads_feature feature.2

/-- Can a document hold this bundle? -/
structure Bundle.IsWritable (b : Bundle) : Prop where
  domains : b.domainPolicies.HasDistinctKeys
  features : (Keyed.keys b.featurePolicies).Nodup
  generatedAt : b.metadata.generatedAt.IsWritable
  expiresAt : b.metadata.expiresAt.IsWritable

theorem reads_version : Reads readVersion (fun _ => .str schemaVersion) () := by
  simp [Reads, readVersion]

/-- The document of a bundle gives the bundle back. -/
theorem Bundle.read_toJson {b : Bundle} (h : b.IsWritable) : read b.toJson = .valid b := by
  simp only [read, toJson, contentFields]
  rw [model_obj (by simp [Keyed.keys]), withDefault_of_get? rfl reads_version,
    required_of_get? rfl (reads_profile _), withDefault_of_get? rfl (reads_domains h.domains),
    withDefault_of_get? rfl (reads_features h.features),
    withDefault_of_get? rfl (reads_flat _),
    required_of_get? rfl (reads_metadata h.generatedAt h.expiresAt)]
  rfl

end Entitlements
