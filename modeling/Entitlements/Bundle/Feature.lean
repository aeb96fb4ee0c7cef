import Entitlements.Schema.Reader
import Entitlements.Access.Grant

/-!
Product features and the permissions they require. A feature is denied when one of its permissions
is explicitly denied, granted when all of them are allowed, and otherwise has its own default; a
feature that requires nothing is granted. Membership is of the permission texts themselves, not by
pattern. Some features are guaranteed whatever the rights are.
-/

namespace Entitlements

inductive FeatureAccess where
  | guaranteed
  | granted
  | notGranted
  | denied
  deriving DecidableEq, Repr

namespace FeatureAccess

def text : FeatureAccess → String
  | .guaranteed => "guaranteed"
  | .granted => "granted"
  | .notGranted => "not_granted"
  | .denied => "denied"

def ofText? : String → Option FeatureAccess
  | "guaranteed" => some .guaranteed
  | "granted" => some .granted
  | "not_granted" => some .notGranted
  | "denied" => some .denied
  | _ => none

def isAllowed : FeatureAccess → Bool
  | .guaranteed | .granted => true
  | .notGranted | .denied => false

theorem ofText?_text (access : FeatureAccess) : ofText? access.text = some access := by
  cases access <;> rfl

end FeatureAccess

structure FeatureDefinition where
  required : List String
  default : FeatureAccess
  deriving DecidableEq

def FeatureDefinition.resolve (d : FeatureDefinition) (allowed denied : List String) :
    FeatureAccess :=
  if d.required.any denied.contains then .denied
  else if d.required.all allowed.contains then .granted
  else d.default

structure FeatureTable where
  version : String
  features : Keyed FeatureDefinition
  alwaysGuaranteed : List String
  deriving DecidableEq

namespace FeatureTable

/-- Features in ascending order of their keys, then the guaranteed ones that the table lacks. -/
def evaluate (t : FeatureTable) (allowed denied : List String) : Keyed FeatureAccess :=
  let sorted := t.features.mergeSort fun a b => decide (a.1 ≤ b.1)
  let resolved : Keyed FeatureAccess := sorted.map fun e => (e.1, e.2.resolve allowed denied)
  t.alwaysGuaranteed.foldl (fun map key => map.set key .guaranteed) resolved

/-! ### The built-in table -/

def dashboards : List String := ["dashboard_operational_indicators", "dashboard_head_office"]

def builtIn : FeatureTable where
  version := "1"
  features := [
    ("dashboard_operational_indicators", ⟨["dashboards.operational.read"], .granted⟩),
    ("dashboard_head_office", ⟨["dashboards.head_office.read"], .granted⟩),
    ("alarm_management", ⟨["alarms.rules.read", "alarms.rules.update"], .notGranted⟩),
    ("user_administration", ⟨["identity.users.manage"], .notGranted⟩),
    ("reports_export", ⟨["reports.export.execute"], .notGranted⟩),
    ("device_commands", ⟨["devices.commands.execute"], .notGranted⟩)]
  alwaysGuaranteed := dashboards

/-! ### Reading -/

def plain (name : String) : Schema.FieldName := ⟨name, name⟩

def readDefinition : Schema.Reader FeatureDefinition := Schema.model fun fields =>
  FeatureDefinition.mk
    <$> (plain "required_permissions").withDefault (Schema.list Schema.text) [] fields
    <*> (plain "default_access").withDefault (Schema.choice FeatureAccess.ofText?) .notGranted
      fields

def read : Schema.Reader FeatureTable := Schema.model fun fields =>
  FeatureTable.mk
    <$> (plain "version").withDefault Schema.text "1" fields
    <*> (plain "features").withDefault (Schema.map readDefinition) [] fields
    <*> (plain "always_guaranteed").withDefault (Schema.tuple Schema.text) dashboards fields

def limits : Json.Limits := ⟨200, 4300⟩

def ofDocument (text : String) : Schema.Checked FeatureTable :=
  match Json.parse? limits text with
  | some x => read x
  | none => .fail .invalidJson

end FeatureTable

end Entitlements
