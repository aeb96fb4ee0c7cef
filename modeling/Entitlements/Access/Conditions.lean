import Entitlements.Schema.Reader

/-!
Session conditions of a policy. The engine carries them along and never looks inside; the session
layer enforces them. Every member may be unset, and unset members are not written. A document that
sets none of them is still a value of its own, different from having no conditions at all.
-/

namespace Entitlements

structure Conditions where
  requiresMfa : Option Bool
  onlyBusinessHours : Option Bool
  allowedDeviceTypes : Option (List String)
  ipAllowlist : Option (List String)
  maxSessionDuration : Option Int
  deriving DecidableEq, Repr

namespace Conditions

def empty : Conditions := ⟨none, none, none, none, none⟩

/-! ### Reading -/

def requiresMfaField : Schema.FieldName := ⟨"requiresMFA", "requires_mfa"⟩

def onlyBusinessHoursField : Schema.FieldName := ⟨"onlyBusinessHours", "only_business_hours"⟩

def allowedDeviceTypesField : Schema.FieldName := ⟨"allowedDeviceTypes", "allowed_device_types"⟩

def ipAllowlistField : Schema.FieldName := ⟨"ipAllowlist", "ip_allowlist"⟩

def maxSessionDurationField : Schema.FieldName := ⟨"maxSessionDuration", "max_session_duration"⟩

def read : Schema.Reader Conditions := Schema.model fun fields =>
  Conditions.mk
    <$> requiresMfaField.optional Schema.flag fields
    <*> onlyBusinessHoursField.optional Schema.flag fields
    <*> allowedDeviceTypesField.optional (Schema.list Schema.text) fields
    <*> ipAllowlistField.optional (Schema.list Schema.text) fields
    <*> maxSessionDurationField.optional Schema.integer fields

/-! ### Writing -/

def member (key : String) (write : α → Json) : Option α → Json.Fields
  | none => []
  | some a => [(key, write a)]

/-- The members that are set, under the spelling that `spell` picks for each field. -/
def fields (spell : Schema.FieldName → String) (c : Conditions) : Json.Fields :=
  member (spell requiresMfaField) .bool c.requiresMfa ++
    member (spell onlyBusinessHoursField) .bool c.onlyBusinessHours ++
    member (spell allowedDeviceTypesField) Json.ofTexts c.allowedDeviceTypes ++
    member (spell ipAllowlistField) Json.ofTexts c.ipAllowlist ++
    member (spell maxSessionDurationField) .int c.maxSessionDuration

def toJson (c : Conditions) : Json := .obj (c.fields (·.key))

def toJsonByName (c : Conditions) : Json := .obj (c.fields (·.name))

end Conditions

end Entitlements
