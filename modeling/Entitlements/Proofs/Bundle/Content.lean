import Entitlements.Bundle.Checksum
import Entitlements.Proofs.Bundle.RoundTrip
import Entitlements.Proofs.Json.Canonical

/-!
What the checksum of a bundle covers: the rights, exactly. The text that is digested is the
canonical text of the fields that state rights, and it is equal for two bundles if and only if their
rights are, with maps compared without regard to order. So the checksum depends on nothing else, and
it can miss a change of rights only where the digest, cut to length, collides.

Records are told apart from the inside out. A leaf is told apart as it stands, since it is written
with every member in one place; only the maps are compared up to order.
-/

namespace Entitlements

namespace Json

/-! ### Telling values apart -/

/-- Does a writer write different values differently, whatever the order of fields? -/
def TellsApart (write : α → Json) : Prop := Function.Injective fun a => (write a).sorted

theorem tellsApart_bool : TellsApart .bool := by
  intro a b h
  simpa using h

theorem tellsApart_int : TellsApart .int := by
  intro a b h
  simpa using h

theorem tellsApart_str : TellsApart .str := by
  intro a b h
  simpa using h

theorem tellsApart_ofTexts : TellsApart ofTexts := by
  intro a b h
  have htexts : ofTexts a = ofTexts b := by simpa using h
  exact List.map_injective_iff.2 (fun s t hst => Json.str.inj hst) (Json.arr.inj htexts)

theorem tellsApart_access : TellsApart fun access : FeatureAccess => .str access.text := by
  intro a b h
  have htext : a.text = b.text := tellsApart_str h
  have hread := a.ofText?_text
  rw [htext, b.ofText?_text] at hread
  exact (Option.some.inj hread).symm

/-- Fields with different keys are told apart one by one. -/
theorem tellsApart_obj {fields : α → Fields} (hk : ∀ a, (Keyed.keys (fields a)).Nodup)
    (h : ∀ a b, (∀ key, (Keyed.get? (fields a) key).map sorted =
      (Keyed.get? (fields b) key).map sorted) → a = b) : TellsApart fun a => .obj (fields a) :=
  fun a b hab => h a b ((sorted_obj_eq_iff (hk a) (hk b)).1 hab)

namespace TellsApart

variable {write : α → Json}

theorem eq_of_some (h : TellsApart write) {a b : α}
    (hab : (some (write a)).map sorted = (some (write b)).map sorted) : a = b :=
  h (Option.some.inj hab)

theorem eq_of_map (h : TellsApart write) {a b : Option α}
    (hab : (a.map write).map sorted = (b.map write).map sorted) : a = b := by
  rw [Option.map_map, Option.map_map] at hab
  exact Option.map_injective h hab

/-- Null stands for no value as long as no value is written as null. -/
theorem nullOr (h : TellsApart write) (hnull : ∀ a, (write a).sorted ≠ .null) :
    TellsApart (nullOr write) := by
  intro a b hab
  rcases a with _ | a <;> rcases b with _ | b
  · rfl
  · exact absurd hab.symm (hnull b)
  · exact absurd hab (hnull a)
  · exact congrArg some (h hab)

end TellsApart

end Json

open Json

/-! ### Records of bundles -/

theorem Conditions.tellsApart : TellsApart Conditions.toJson := by
  refine tellsApart_obj Conditions.nodup_keys_fields fun c d h => ?_
  simp only [Conditions.get?_fields] at h
  have hmfa := tellsApart_bool.eq_of_map (by simpa using h "requiresMFA")
  have hhours := tellsApart_bool.eq_of_map (by simpa using h "onlyBusinessHours")
  have hdevices := tellsApart_ofTexts.eq_of_map (by simpa using h "allowedDeviceTypes")
  have hips := tellsApart_ofTexts.eq_of_map (by simpa using h "ipAllowlist")
  have hduration := tellsApart_int.eq_of_map (by simpa using h "maxSessionDuration")
  cases c
  cases d
  simp_all

theorem LocationActions.tellsApart : TellsApart LocationActions.toJson := by
  refine tellsApart_obj LocationActions.nodup_keys fun l m h => ?_
  have hactions := tellsApart_ofTexts.eq_of_some (h "actions")
  have hconditions := Conditions.tellsApart.eq_of_map
    (by simpa [Keyed.get?_cons, Keyed.get?_unlessNone] using h "conditions")
  cases l
  cases m
  simp_all

theorem FeaturePolicy.tellsApart : TellsApart FeaturePolicy.toJson := by
  refine tellsApart_obj FeaturePolicy.nodup_keys fun p q h => ?_
  have haccess := tellsApart_access.eq_of_some (h "access")
  have hconditions := Conditions.tellsApart.eq_of_map
    (by simpa [Keyed.get?_cons, Keyed.get?_append, Keyed.get?_unlessNone] using h "conditions")
  have hexpiry := tellsApart_str.eq_of_map
    (by simpa [Keyed.get?_cons, Keyed.get?_append, Keyed.get?_unlessNone] using h "expiresAt")
  cases p
  cases q
  simp_all

theorem FlatPermissions.tellsApart : TellsApart FlatPermissions.toJson := by
  refine tellsApart_obj (fun p => by simp [Keyed.keys]) fun p q h => ?_
  have hallowed := tellsApart_ofTexts.eq_of_some (h "allowed")
  have hdenied := tellsApart_ofTexts.eq_of_some (h "denied")
  cases p
  cases q
  simp_all

theorem GroupSummary.tellsApart : TellsApart GroupSummary.toJson := by
  refine tellsApart_obj (fun g => by simp [Keyed.keys]) fun f g h => ?_
  have hid := tellsApart_str.eq_of_some (h "id")
  have hkey := tellsApart_str.eq_of_some (h "key")
  have hname := tellsApart_str.eq_of_some (h "name")
  cases f
  cases g
  simp_all

theorem Profile.tellsApart : TellsApart Profile.toJson := by
  have htext : TellsApart (nullOr Json.str) := tellsApart_str.nullOr (by simp)
  have hgroup : TellsApart (nullOr GroupSummary.toJson) :=
    GroupSummary.tellsApart.nullOr fun g => by simp [GroupSummary.toJson, sorted_obj]
  refine tellsApart_obj (fun p => by simp [Keyed.keys]) fun p q h => ?_
  have hid := tellsApart_str.eq_of_some (h "userId")
  have hemail := tellsApart_str.eq_of_some (h "userEmail")
  have hcustomer := htext.eq_of_some (h "customerId")
  have hname := htext.eq_of_some (h "customerName")
  have hsummary := hgroup.eq_of_some (h "maintenanceGroup")
  cases p
  cases q
  simp_all

/-! ### Maps -/

/-- Do two maps give related values under the same keys? -/
def Keyed.Same (related : α → α → Prop) (entries others : Keyed α) : Prop :=
  ∀ key, Option.Rel related (entries.get? key) (others.get? key)

theorem Keyed.Same.of_perm {related : α → α → Prop} (hrefl : ∀ a, related a a)
    {entries others : Keyed α} (h : entries.keys.Nodup) (hperm : entries.Perm others) :
    Keyed.Same related entries others := by
  have ho : others.keys.Nodup := (hperm.map Prod.fst).nodup_iff.1 h
  intro key
  rw [(Keyed.perm_iff_get? h ho).1 hperm key]
  cases others.get? key with
  | none => exact .none
  | some a => exact .some (hrefl a)

theorem option_map_eq_iff_rel {f : α → β} {related : α → α → Prop} {o p : Option α}
    (h : ∀ a ∈ o, ∀ b ∈ p, f a = f b ↔ related a b) :
    o.map f = p.map f ↔ Option.Rel related o p := by
  rcases o with _ | a <;> rcases p with _ | b
  · exact ⟨fun _ => .none, fun _ => rfl⟩
  · constructor <;> intro hab <;> cases hab
  · constructor <;> intro hab <;> cases hab
  · rw [Option.rel_some_some, ← h a rfl b rfl]
    exact Option.some_inj

/-- Two maps are written alike exactly when they agree under every key on what their members are
told apart by. -/
theorem sorted_objectOf_eq_iff {write : α → Json} {related : α → α → Prop}
    {entries others : Keyed α}
    (hk : entries.keys.Nodup) (ho : others.keys.Nodup)
    (h : ∀ e ∈ entries, ∀ f ∈ others, (write e.2).sorted = (write f.2).sorted ↔ related e.2 f.2) :
    (objectOf write entries).sorted = (objectOf write others).sorted ↔
      Keyed.Same related entries others := by
  rw [objectOf, objectOf, sorted_obj_eq_iff (by rwa [Keyed.keys_map]) (by rwa [Keyed.keys_map])]
  refine forall_congr' fun key => ?_
  rw [Keyed.get?_map, Keyed.get?_map, Option.map_map, Option.map_map]
  exact option_map_eq_iff_rel fun a ha b hb =>
    h (key, a) ((Keyed.mem_iff_get? hk).2 ha) (key, b) ((Keyed.mem_iff_get? ho).2 hb)

/-- Trees are compared without regard to order at each of their three levels. -/
def DomainTree.Same : DomainTree → DomainTree → Prop :=
  Keyed.Same (Keyed.Same (Keyed.Same (· = ·)))

theorem DomainTree.sorted_eq_iff {s t : DomainTree} (hs : s.HasDistinctKeys)
    (ht : t.HasDistinctKeys) : s.toJson.sorted = t.toJson.sorted ↔ s.Same t :=
  sorted_objectOf_eq_iff hs.1 ht.1 fun d hd e he =>
    sorted_objectOf_eq_iff (hs.2 d hd).1 (ht.2 e he).1 fun f hf g hg =>
      sorted_objectOf_eq_iff ((hs.2 d hd).2 f hf) ((ht.2 e he).2 g hg) fun _ _ _ _ =>
        LocationActions.tellsApart.eq_iff

/-- Whatever document a tree is read from, its keys are different at every level. -/
theorem DomainTree.hasDistinctKeys_of_read {x : Json} {tree : DomainTree}
    (h : read x = .valid tree) : tree.HasDistinctKeys := by
  refine ⟨Schema.nodup_keys_of_map h, Schema.forall_of_map
    (p := fun domain => (Keyed.keys domain).Nodup ∧ ∀ equipment ∈ domain,
      (Keyed.keys equipment.2).Nodup) (fun y domain hy => ?_) h⟩
  exact ⟨Schema.nodup_keys_of_map hy, Schema.forall_of_map
    (p := fun equipment => (Keyed.keys equipment).Nodup)
    (fun _ _ hz => Schema.nodup_keys_of_map hz) hy⟩

/-! ### Exactness -/

theorem isExact_ofTexts (texts : List String) : (ofTexts texts).IsExact := by
  refine .arr fun x hx => ?_
  obtain ⟨s, -, rfl⟩ := List.mem_map.1 hx
  exact .str s

theorem isExact_nullOr {write : α → Json} (h : ∀ a, (write a).IsExact) (o : Option α) :
    (nullOr write o).IsExact := by
  cases o with
  | none => exact .null
  | some a => exact h a

theorem isExact_unlessNone {write : α → Json} (h : ∀ a, (write a).IsExact) (key : String)
    (o : Option α) : ∀ e ∈ unlessNone key write o, e.2.IsExact := by
  cases o with
  | none => simp [unlessNone]
  | some a => simpa [unlessNone] using h a

theorem isExact_objectOf {write : α → Json} (h : ∀ a, (write a).IsExact) (entries : Keyed α) :
    (objectOf write entries).IsExact := by
  refine .obj fun e he => ?_
  obtain ⟨f, -, rfl⟩ := List.mem_map.1 he
  exact h f.2

theorem Conditions.isExact (c : Conditions) : c.toJson.IsExact := by
  have hmember {α : Type} {write : α → Json} (h : ∀ a, (write a).IsExact) (key : String)
      (o : Option α) : ∀ e ∈ member key write o, e.2.IsExact := isExact_unlessNone h key o
  refine .obj fun e he => ?_
  simp only [fields, List.mem_append] at he
  rcases he with (((he | he) | he) | he) | he
  · exact hmember .bool _ _ e he
  · exact hmember .bool _ _ e he
  · exact hmember isExact_ofTexts _ _ e he
  · exact hmember isExact_ofTexts _ _ e he
  · exact hmember .int _ _ e he

theorem LocationActions.isExact (l : LocationActions) : l.toJson.IsExact := by
  refine .obj fun e he => ?_
  rcases List.mem_cons.1 he with rfl | he
  · exact isExact_ofTexts _
  · exact isExact_unlessNone Conditions.isExact _ _ e he

theorem FeaturePolicy.isExact (p : FeaturePolicy) : p.toJson.IsExact := by
  refine .obj fun e he => ?_
  rcases List.mem_cons.1 he with rfl | he
  · exact .str _
  · rcases List.mem_append.1 he with he | he
    · exact isExact_unlessNone Conditions.isExact _ _ e he
    · exact isExact_unlessNone .str _ _ e he

theorem GroupSummary.isExact (g : GroupSummary) : g.toJson.IsExact := by
  refine .obj fun e he => ?_
  simp only [List.mem_cons, List.not_mem_nil, or_false] at he
  rcases he with rfl | rfl | rfl <;> exact .str _

theorem Profile.isExact (p : Profile) : p.toJson.IsExact := by
  refine .obj fun e he => ?_
  simp only [List.mem_cons, List.not_mem_nil, or_false] at he
  rcases he with rfl | rfl | rfl | rfl | rfl
  · exact .str _
  · exact .str _
  · exact isExact_nullOr .str _
  · exact isExact_nullOr .str _
  · exact isExact_nullOr GroupSummary.isExact _

theorem FlatPermissions.isExact (p : FlatPermissions) : p.toJson.IsExact := by
  refine .obj fun e he => ?_
  simp only [List.mem_cons, List.not_mem_nil, or_false] at he
  rcases he with rfl | rfl <;> exact isExact_ofTexts _

/-! ### Bundles -/

namespace Bundle

theorem isExact_contentFields (b : Bundle) : (Json.obj b.contentFields).IsExact := by
  refine .obj fun e he => ?_
  simp only [contentFields, List.mem_cons, List.not_mem_nil, or_false] at he
  rcases he with rfl | rfl | rfl | rfl
  · exact b.profile.isExact
  · exact isExact_objectOf (isExact_objectOf (isExact_objectOf LocationActions.isExact)) _
  · exact isExact_objectOf FeaturePolicy.isExact _
  · exact b.permissions.isExact

/-- Are the keys of every map in a bundle different? -/
structure HasDistinctKeys (b : Bundle) : Prop where
  domains : b.domainPolicies.HasDistinctKeys
  features : (Keyed.keys b.featurePolicies).Nodup

theorem IsWritable.hasDistinctKeys {b : Bundle} (h : b.IsWritable) : b.HasDistinctKeys :=
  ⟨h.domains, h.features⟩

/-- The members of a bundle that was read have been read on their own. -/
theorem members_of_read {x : Json} {b : Bundle} (h : read x = .valid b) :
    (b.domainPolicies = [] ∨ ∃ y, DomainTree.read y = .valid b.domainPolicies) ∧
      (b.featurePolicies = [] ∨
        ∃ y, Schema.map FeaturePolicy.read y = .valid b.featurePolicies) ∧
      ∃ y, Metadata.read y = .valid b.metadata := by
  unfold read Schema.model at h
  split at h
  · obtain ⟨_, _, hpermissions, hm, rfl⟩ := Schema.Checked.seq_eq_valid_iff.1 h
    obtain ⟨_, _, hfeatures, -, rfl⟩ := Schema.Checked.seq_eq_valid_iff.1 hpermissions
    obtain ⟨_, features, hdomains, hf, rfl⟩ := Schema.Checked.seq_eq_valid_iff.1 hfeatures
    obtain ⟨_, domains, hprofile, hd, rfl⟩ := Schema.Checked.seq_eq_valid_iff.1 hdomains
    obtain ⟨_, _, hversion, -, rfl⟩ := Schema.Checked.seq_eq_valid_iff.1 hprofile
    obtain ⟨_, -, rfl⟩ := Schema.Checked.map_eq_valid_iff.1 hversion
    exact ⟨Schema.withDefault_eq_valid hd, Schema.withDefault_eq_valid hf,
      Schema.required_eq_valid hm⟩
  · cases h

theorem hasDistinctKeys_of_read {x : Json} {b : Bundle} (h : read x = .valid b) :
    b.HasDistinctKeys := by
  obtain ⟨hdomains, hfeatures, -⟩ := members_of_read h
  constructor
  · rcases hdomains with hnone | ⟨y, hy⟩
    · rw [hnone]
      exact ⟨List.nodup_nil, fun domain hmem => by cases hmem⟩
    · exact DomainTree.hasDistinctKeys_of_read hy
  · rcases hfeatures with hnone | ⟨y, hy⟩
    · rw [hnone]
      exact List.nodup_nil
    · exact Schema.nodup_keys_of_map hy

/-- Do two bundles state the same rights of the same user? Maps have no order and lists have one. -/
structure SameRights (b c : Bundle) : Prop where
  profile : b.profile = c.profile
  domains : b.domainPolicies.Same c.domainPolicies
  features : Keyed.Same (· = ·) b.featurePolicies c.featurePolicies
  permissions : b.permissions = c.permissions

theorem nodup_keys_contentFields (b : Bundle) : (Keyed.keys b.contentFields).Nodup := by
  simp [contentFields, Keyed.keys]

theorem sorted_contentFields_eq_iff {b c : Bundle} (hb : b.HasDistinctKeys)
    (hc : c.HasDistinctKeys) :
    (Json.obj b.contentFields).sorted = (Json.obj c.contentFields).sorted ↔ b.SameRights c := by
  have hdomains := DomainTree.sorted_eq_iff hb.domains hc.domains
  have hfeatures : _ ↔ Keyed.Same (· = ·) b.featurePolicies c.featurePolicies :=
    sorted_objectOf_eq_iff hb.features hc.features fun _ _ _ _ => FeaturePolicy.tellsApart.eq_iff
  rw [sorted_obj_eq_iff b.nodup_keys_contentFields c.nodup_keys_contentFields]
  constructor
  · intro h
    exact {
      profile := Profile.tellsApart.eq_of_some (h "profile")
      domains := hdomains.1 (Option.some.inj (h "domainPolicies"))
      features := hfeatures.1 (Option.some.inj (h "featurePolicies"))
      permissions := FlatPermissions.tellsApart.eq_of_some (h "permissions") }
  · intro h key
    simp only [contentFields, Keyed.get?_cons, h.profile, h.permissions]
    split
    · rfl
    split
    · exact congrArg some (hdomains.2 h.domains)
    split
    · exact congrArg some (hfeatures.2 h.features)
    · rfl

theorem contentText_eq_iff {b c : Bundle} (hb : b.HasDistinctKeys) (hc : c.HasDistinctKeys) :
    b.contentText = c.contentText ↔ b.SameRights c := by
  rw [contentText, contentText, canonical_eq_iff b.isExact_contentFields c.isExact_contentFields,
    sorted_contentFields_eq_iff hb hc]

/-- The text is that of the document without its version and its metadata. -/
theorem contentText_eq_document (b : Bundle) : ∃ fields, b.toJson = .obj fields ∧
    b.contentText = (Json.obj (fields.filter fun e =>
      e.1 ≠ "version" ∧ e.1 ≠ "metadata")).canonical :=
  ⟨_, rfl, by simp [contentText, contentFields]⟩

theorem contentChecksum_eq_label (b : Bundle) (length : Option Int) :
    b.contentChecksum length = Checksum.label length (Digest.sha256Hex b.contentText) := rfl

theorem label_eq_iff {length : Option Int} {digits others : List Char} :
    Checksum.label length digits = Checksum.label length others ↔
      upTo length digits = upTo length others := by
  simp [Checksum.label, String.append_right_inj, String.ofList_inj]

/-- The checksum of a bundle covers its rights, exactly: equal rights have one text, another text
means other rights, and nothing else in the document has any part in it. A change of rights that
leaves the checksum as it was is a collision of the digest at the length that is kept. Storing the
checksum changes no more than that one field, and storing it again changes nothing. -/
theorem checksum_covers_rights {b c : Bundle} (hb : b.HasDistinctKeys) (hc : c.HasDistinctKeys) :
    (b.contentText = c.contentText ↔ b.SameRights c) ∧
    (∃ fields, b.toJson = .obj fields ∧
      b.contentText = (Json.obj (fields.filter fun e =>
        e.1 ≠ "version" ∧ e.1 ≠ "metadata")).canonical) ∧
    (∀ length,
      b.contentChecksum length = Checksum.label length (Digest.sha256Hex b.contentText)) ∧
    (∀ length m, { b with metadata := m }.contentChecksum length = b.contentChecksum length) ∧
    (∀ length, b.SameRights c → b.contentChecksum length = c.contentChecksum length) ∧
    (∀ length, ¬b.SameRights c → b.contentChecksum length = c.contentChecksum length →
      b.contentText ≠ c.contentText ∧
      upTo length (Digest.sha256Hex b.contentText) =
        upTo length (Digest.sha256Hex c.contentText)) ∧
    ∀ length,
      b.withChecksum length =
        { b with metadata := { b.metadata with checksum := b.contentChecksum length } } ∧
      (b.withChecksum length).metadata.checksum = (b.withChecksum length).contentChecksum length ∧
      (b.withChecksum length).withChecksum length = b.withChecksum length := by
  have htext := contentText_eq_iff hb hc
  refine ⟨htext, b.contentText_eq_document, b.contentChecksum_eq_label, fun _ _ => rfl, ?_, ?_,
    fun _ => ⟨rfl, rfl, rfl⟩⟩
  · intro length hsame
    rw [contentChecksum_eq_label, contentChecksum_eq_label, htext.2 hsame]
  · intro length hother heq
    rw [contentChecksum_eq_label, contentChecksum_eq_label, label_eq_iff] at heq
    exact ⟨fun h => hother (htext.1 h), heq⟩

/-- A bundle that states access to features and nothing else. -/
def ofFeatures (features : Keyed FeaturePolicy) (scope : String) : Bundle where
  profile := ⟨"u1", "u1@example.com", none, none, none⟩
  domainPolicies := []
  featurePolicies := features
  permissions := ⟨[], []⟩
  metadata := ⟨.utc ⟨0⟩, .utc ⟨0⟩, 0, scope, [], [], ""⟩

theorem hasDistinctKeys_ofFeatures {features : Keyed FeaturePolicy} (h : features.keys.Nodup)
    (scope : String) : (ofFeatures features scope).HasDistinctKeys :=
  ⟨⟨List.nodup_nil, fun domain hd => by cases hd⟩, h⟩

/-- Neither the order in which features were added nor the scope shows in the checksum. -/
theorem checksum_of_swapped_features :
    let alarms := ("alarm_management", (⟨.granted, none, none⟩ : FeaturePolicy))
    let reports := ("reports_export", (⟨.denied, some .empty, none⟩ : FeaturePolicy))
    let b := ofFeatures [alarms, reports] "global"
    let c := ofFeatures [reports, alarms] "site:1"
    b.HasDistinctKeys ∧ c.HasDistinctKeys ∧ b.SameRights c ∧
      ∀ length, b.contentChecksum length = c.contentChecksum length := by
  intro alarms reports b c
  have hb : b.HasDistinctKeys := hasDistinctKeys_ofFeatures (by decide) _
  have hc : c.HasDistinctKeys := hasDistinctKeys_ofFeatures (by decide) _
  have hsame : b.SameRights c := {
    profile := rfl
    domains := fun _ => .none
    features := .of_perm (fun _ => rfl) hb.features (.swap _ _ _)
    permissions := rfl }
  have hcovers := checksum_covers_rights hb hc
  exact ⟨hb, hc, hsame, fun length => hcovers.2.2.2.2.1 length hsame⟩

example : (ofFeatures [("reports_export", ⟨.denied, some .empty, none⟩)] "global").contentText ≠
    (ofFeatures [("reports_export", ⟨.denied, none, none⟩)] "global").contentText := by
  rw [Ne, contentText_eq_iff (hasDistinctKeys_ofFeatures (by decide) _)
    (hasDistinctKeys_ofFeatures (by decide) _)]
  intro h
  have hpolicy := h.features "reports_export"
  cases hpolicy
  contradiction

end Bundle

end Entitlements
