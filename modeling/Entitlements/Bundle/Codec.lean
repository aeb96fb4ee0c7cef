import Entitlements.Bundle.Basic

/-!
Bundles as documents. Keys are in camel case. A missing member of the profile is written as null,
while the optional members of a location or a feature are left out. Reading accepts the plain field
names as well and ignores what it does not know; the version, when given, has to be the one this
library writes.
-/

namespace Entitlements

open Schema

def schemaVersion : String := "1.0"

/-! ### Writing -/

def GroupSummary.toJson (g : GroupSummary) : Json :=
  .obj [("id", .str g.id), ("key", .str g.key), ("name", .str g.name)]

def nullOr (write : α → Json) : Option α → Json
  | none => .null
  | some a => write a

def Profile.toJson (p : Profile) : Json :=
  .obj [("userId", .str p.userId), ("userEmail", .str p.userEmail),
    ("customerId", nullOr .str p.customerId), ("customerName", nullOr .str p.customerName),
    ("maintenanceGroup", nullOr GroupSummary.toJson p.group)]

def unlessNone (key : String) (write : α → Json) : Option α → Json.Fields
  | none => []
  | some a => [(key, write a)]

def LocationActions.toJson (l : LocationActions) : Json :=
  .obj (("actions", .ofTexts l.actions) :: unlessNone "conditions" Conditions.toJson l.conditions)

def objectOf (write : α → Json) (entries : Keyed α) : Json :=
  .obj (entries.map fun e => (e.1, write e.2))

def DomainTree.toJson : DomainTree → Json :=
  objectOf (objectOf (objectOf LocationActions.toJson))

def FeaturePolicy.toJson (p : FeaturePolicy) : Json :=
  .obj (("access", .str p.access.text) ::
    (unlessNone "conditions" Conditions.toJson p.conditions ++
      unlessNone "expiresAt" .str p.expiresAt))

def FlatPermissions.toJson (p : FlatPermissions) : Json :=
  .obj [("allowed", .ofTexts p.allowed), ("denied", .ofTexts p.denied)]

def Metadata.toJson (m : Metadata) : Json :=
  .obj [("generatedAt", .str m.generatedAt.documentText),
    ("expiresAt", .str m.expiresAt.documentText), ("ttlSeconds", .int m.ttlSeconds),
    ("scope", .str m.scope), ("sourceRoles", .ofTexts m.sourceRoles),
    ("sourcePolicies", .ofTexts m.sourcePolicies), ("checksum", .str m.checksum)]

/-- The fields that state rights, without the version and the metadata. -/
def Bundle.contentFields (b : Bundle) : Json.Fields :=
  [("profile", b.profile.toJson), ("domainPolicies", DomainTree.toJson b.domainPolicies),
    ("featurePolicies", objectOf FeaturePolicy.toJson b.featurePolicies),
    ("permissions", b.permissions.toJson)]

def Bundle.toJson (b : Bundle) : Json :=
  .obj (("version", .str schemaVersion) :: b.contentFields ++ [("metadata", b.metadata.toJson)])

/-! ### Reading -/

def GroupSummary.read : Reader GroupSummary := model fun fields =>
  GroupSummary.mk
    <$> (FieldName.mk "id" "id").required text fields
    <*> (FieldName.mk "key" "key").required text fields
    <*> (FieldName.mk "name" "name").required text fields

def Profile.read : Reader Profile := model fun fields =>
  Profile.mk
    <$> (FieldName.mk "userId" "user_id").required text fields
    <*> (FieldName.mk "userEmail" "user_email").required text fields
    <*> (FieldName.mk "customerId" "customer_id").optional text fields
    <*> (FieldName.mk "customerName" "customer_name").optional text fields
    <*> (FieldName.mk "maintenanceGroup" "maintenance_group").optional GroupSummary.read fields

def LocationActions.read : Reader LocationActions := model fun fields =>
  LocationActions.mk
    <$> (FieldName.mk "actions" "actions").withDefault (list text) [] fields
    <*> (FieldName.mk "conditions" "conditions").optional Conditions.read fields

def DomainTree.read : Reader DomainTree := map (map (map LocationActions.read))

def FeaturePolicy.read : Reader FeaturePolicy := model fun fields =>
  FeaturePolicy.mk
    <$> (FieldName.mk "access" "access").required (choice FeatureAccess.ofText?) fields
    <*> (FieldName.mk "conditions" "conditions").optional Conditions.read fields
    <*> (FieldName.mk "expiresAt" "expires_at").optional text fields

def FlatPermissions.read : Reader FlatPermissions := model fun fields =>
  FlatPermissions.mk
    <$> (FieldName.mk "allowed" "allowed").withDefault (list text) [] fields
    <*> (FieldName.mk "denied" "denied").withDefault (list text) [] fields

def Metadata.read : Reader Metadata := model fun fields =>
  Metadata.mk
    <$> (FieldName.mk "generatedAt" "generated_at").required time fields
    <*> (FieldName.mk "expiresAt" "expires_at").required time fields
    <*> (FieldName.mk "ttlSeconds" "ttl_seconds").required integer fields
    <*> (FieldName.mk "scope" "scope").required text fields
    <*> (FieldName.mk "sourceRoles" "source_roles").withDefault (list text) [] fields
    <*> (FieldName.mk "sourcePolicies" "source_policies").withDefault (list text) [] fields
    <*> (FieldName.mk "checksum" "checksum").withDefault text "" fields

def readVersion : Reader Unit
  | .str s => if s = schemaVersion then .valid () else .fail .wrongLiteral
  | _ => .fail .wrongLiteral

def Bundle.read : Reader Bundle := model fun fields =>
  (fun _ profile domains features permissions metadata =>
      Bundle.mk profile domains features permissions metadata)
    <$> (FieldName.mk "version" "version").withDefault readVersion () fields
    <*> (FieldName.mk "profile" "profile").required Profile.read fields
    <*> (FieldName.mk "domainPolicies" "domain_policies").withDefault DomainTree.read [] fields
    <*> (FieldName.mk "featurePolicies" "feature_policies").withDefault (map FeaturePolicy.read) []
      fields
    <*> (FieldName.mk "permissions" "permissions").withDefault FlatPermissions.read ⟨[], []⟩ fields
    <*> (FieldName.mk "metadata" "metadata").required Metadata.read fields

end Entitlements
