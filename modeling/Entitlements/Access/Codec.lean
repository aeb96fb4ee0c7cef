import Entitlements.Bundle.Codec

/-!
Records of access control as documents. Field names are in snake case, times are written out, and a
missing member is null.
-/

namespace Entitlements

open Time

def Json.ofInstant (i : Instant) : Json := .str i.text

def Json.ofInstant? (i : Option Instant) : Json := nullOr Json.ofInstant i

def DomainKey.toJson (k : DomainKey) : Json :=
  .obj [("domain", .str k.domain), ("equipment", .str k.equipment), ("location", .str k.location),
    ("action", .str k.action)]

def Policy.toJson (p : Policy) : Json :=
  .obj [("id", .str p.id), ("key", .str p.key), ("allow", .ofTexts p.allow),
    ("deny", .ofTexts p.deny), ("risk_level", .str p.risk.text),
    ("conditions", nullOr Conditions.toJson p.conditions), ("display_name", .str p.displayName),
    ("description", .str p.description), ("is_system", .bool p.isSystem)]

def Role.toJson (r : Role) : Json :=
  .obj [("id", .str r.id), ("key", .str r.key), ("policy_keys", .ofTexts r.policyKeys),
    ("risk_level", .str r.risk.text), ("display_name", .str r.displayName),
    ("description", .str r.description), ("tags", .ofTexts r.tags), ("is_system", .bool r.isSystem)]

def Assignment.toJson (a : Assignment) : Json :=
  .obj [("id", .str a.id), ("user_id", .str a.userId), ("role_key", .str a.roleKey),
    ("scope", .str a.scope), ("status", .str a.status.text), ("granted_by", .str a.grantedBy),
    ("granted_at", Json.ofInstant a.grantedAt), ("expires_at", Json.ofInstant? a.expiresAt),
    ("reason", .ofText? a.reason)]

def Grant.toJson (g : Grant) : Json :=
  .obj [("assignment", g.assignment.toJson), ("role", g.role.toJson), ("policy", g.policy.toJson)]

def Decision.toJson (d : Decision) : Json :=
  .obj [("allowed", .bool d.verdict.isAllowed), ("reason", .str d.verdict.reason),
    ("matched_policy", .ofText? d.verdict.policy?), ("matched_role", .ofText? d.verdict.role?),
    ("evaluated_at", Json.ofInstant d.evaluatedAt)]

def EffectivePermission.toJson (e : EffectivePermission) : Json :=
  .obj [("permission", .str e.permission), ("allowed", .bool e.allowed),
    ("granted_by_role", .str e.role), ("granted_by_policy", .str e.policy),
    ("explicitly_denied", .bool e.explicitlyDenied),
    ("conditions", nullOr Conditions.toJson e.conditions)]

end Entitlements
