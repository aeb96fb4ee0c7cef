import Entitlements.Access.Codec
import Entitlements.Store.Listing

/-!
Rows and whole tables as documents. The columns have the names that exports of the tables use; a row
shows what was stored, so conditions that set nothing show as an empty object.
-/

namespace Entitlements

def PolicyRow.toJson (r : PolicyRow) : Json :=
  .obj [("id", .str r.policy.id), ("tenant_id", .str r.tenant), ("key", .str r.policy.key),
    ("display_name", .str r.policy.displayName), ("description", .str r.policy.description),
    ("allow_json", .ofTexts r.policy.allow), ("deny_json", .ofTexts r.policy.deny),
    ("conditions_json", nullOr Conditions.toJson r.policy.conditions),
    ("risk_level", .str r.policy.risk.text), ("is_system", .bool r.policy.isSystem),
    ("created_by", .ofText? r.createdBy), ("updated_by", .ofText? r.updatedBy),
    ("updated_at", Json.ofInstant r.updatedAt)]

def RoleRow.toJson (r : RoleRow) : Json :=
  .obj [("id", .str r.role.id), ("tenant_id", .str r.tenant), ("key", .str r.role.key),
    ("display_name", .str r.role.displayName), ("description", .str r.role.description),
    ("policy_keys_json", .ofTexts r.role.policyKeys), ("tags_json", .ofTexts r.role.tags),
    ("risk_level", .str r.role.risk.text), ("is_system", .bool r.role.isSystem),
    ("created_by", .ofText? r.createdBy), ("updated_by", .ofText? r.updatedBy),
    ("updated_at", Json.ofInstant r.updatedAt)]

def AssignmentRow.toJson (r : AssignmentRow) : Json :=
  .obj [("id", .str r.id), ("tenant_id", .str r.tenant), ("user_id", .str r.userId),
    ("role_key", .str r.roleKey), ("scope", .str r.scope), ("status", .str r.status),
    ("granted_by", .str r.grantedBy), ("granted_at", Json.ofInstant r.grantedAt),
    ("expires_at", Json.ofInstant? r.expiresAt), ("reason", .ofText? r.reason),
    ("updated_by", .ofText? r.updatedBy), ("updated_at", Json.ofInstant r.updatedAt)]

def CacheRow.toJson (r : CacheRow) : Json :=
  .obj [("tenant_id", .str r.tenant), ("user_id", .str r.userId), ("scope", .str r.scope),
    ("bundle_json", r.bundle), ("checksum", .str r.checksum),
    ("generated_at", Json.ofInstant r.generatedAt), ("expires_at", Json.ofInstant r.expiresAt),
    ("invalidated_at", Json.ofInstant? r.invalidatedAt),
    ("invalidation_reason", .ofText? r.invalidationReason),
    ("updated_at", Json.ofInstant r.updatedAt)]

def CacheEntry.toJson (e : CacheEntry) : Json :=
  .obj [("tenant_id", .str e.tenant), ("user_id", .str e.userId), ("scope", .str e.scope),
    ("bundle", e.bundle.toJson), ("checksum", .str e.checksum),
    ("generated_at", Json.ofInstant e.generatedAt), ("expires_at", Json.ofInstant e.expiresAt),
    ("invalidated_at", Json.ofInstant? e.invalidatedAt),
    ("invalidation_reason", .ofText? e.invalidationReason)]

def PermissionRow.toJson (r : PermissionRow) : Json :=
  .obj [("id", .str r.id), ("tenant_id", .ofText? r.tenant), ("domain", .str r.key.domain),
    ("equipment", .str r.key.equipment), ("location", .str r.key.location),
    ("action", .str r.key.action), ("display_name", .ofText? r.displayName),
    ("description", .ofText? r.description), ("risk_level", .str r.risk.text),
    ("is_active", .bool r.isActive), ("updated_at", Json.ofInstant r.updatedAt)]

def AuditRow.toJson (r : AuditRow) : Json :=
  .obj [("id", .int r.id), ("occurred_at", Json.ofInstant r.occurredAt),
    ("tenant_id", .ofText? r.tenant),
    ("actor_type", .str r.actorType), ("actor_id", .ofText? r.actorId),
    ("event_type", .str r.eventType), ("outcome", .str r.outcome),
    ("resource_type", .ofText? r.resourceType), ("resource_id", .ofText? r.resourceId),
    ("correlation_id", .ofText? r.correlationId), ("metadata_json", r.metadata)]

/-- A whole table by its name. -/
def Store.table? (s : Store) : String → Option Json
  | "policies" => some (.arr (s.allPolicies.map PolicyRow.toJson))
  | "roles" => some (.arr (s.allRoles.map RoleRow.toJson))
  | "assignments" => some (.arr (s.allAssignments.map AssignmentRow.toJson))
  | "cache" => some (.arr (s.allCached.map CacheRow.toJson))
  | "permissions" => some (.arr (s.allPermissions.map PermissionRow.toJson))
  | "audit" => some (.arr (s.allAudit.map AuditRow.toJson))
  | _ => none

end Entitlements
