import Entitlements.CommandLine.Help
import Entitlements.Generation
import Entitlements.Maintenance

/-!
The commands. Each reads its arguments, checks that the log can be set up, and does its work on the
engine; its answer is an exit code and the text that it prints. Misuse ends a command before it has
done anything.
-/

namespace Entitlements.CommandLine

open Call

structure Answer where
  exit : Nat
  output : String
  deriving DecidableEq, Repr

/-! ### Values of flags -/

def text? (values : Keyed Setting) (name : String) : Given :=
  match values.get? name with
  | some (.text s) => some s
  | _ => none

def integer? (values : Keyed Setting) (name : String) : Option Int :=
  match values.get? name with
  | some (.integer n) => some n
  | _ => none

def isNothing (values : Keyed Setting) (name : String) : Bool :=
  values.get? name == some .nothing

/-- No query can look for what is nothing, which shows after the tenant is found to be named. -/
def checkQueried (values : Keyed Setting) (names : List String) : Call Unit := do
  if names.any (isNothing values) then
    requireTenant (text? values "tenant-id")
    throw .unbindable

def isOn (values : Keyed Setting) (name : String) : Bool := values.get? name == some .on

/-! ### Commands -/

inductive Name where
  | inspectBundle
  | pruneBundleCache
  | expireRoleAssignments
  deriving DecidableEq, Repr

def Name.text : Name → String
  | .inspectBundle => "inspect_bundle"
  | .pruneBundleCache => "prune_bundle_cache"
  | .expireRoleAssignments => "expire_role_assignments"

def Name.ofText? : String → Option Name
  | "inspect_bundle" => some .inspectBundle
  | "prune_bundle_cache" => some .pruneBundleCache
  | "expire_role_assignments" => some .expireRoleAssignments
  | _ => none

def Name.command (n : Name) : Command :=
  { name := n.text
    purpose := match n with
      | .inspectBundle => "Generate and print a user's access bundle"
      | .pruneBundleCache => "Prune expired and long-invalidated access bundles"
      | .expireRoleAssignments => "Mark lazily expired role assignments as expired"
    flags := match n with
      | .inspectBundle =>
        [⟨"tenant-id", .text, true⟩, ⟨"user-id", .text, true⟩, ⟨"scope", .text, false⟩,
          ⟨"no-cache", .switch, false⟩]
      | .pruneBundleCache =>
        [⟨"older-than-days", .integer, false⟩, ⟨"skip-expired", .switch, false⟩,
          ⟨"skip-invalidated", .switch, false⟩]
      | .expireRoleAssignments => [⟨"tenant-id", .text, true⟩] }

/-- Prints a user's bundle as a consumer receives it, by the feature table of the deployment. -/
def inspectBundle (values : Keyed Setting) : Call String := do
  let features ← ofExcept (← read).configured
  checkQueried values ["tenant-id", "user-id"]
  let options :=
    { BundleOptions.atScope (text? values "scope") with useCache := !isOn values "no-cache" }
  let bundle ← withReader (fun env => { env with features }) <|
    Generation.generate (text? values "tenant-id") (text? values "user-id") options
  return bundle.toJson.indented ++ "\n"

def countLine (name : String) (count : Nat) : String := name ++ "=" ++ toString count ++ "\n"

/-- Runs the passes over the cache that are not skipped, in one transaction. -/
def pruneBundleCache (values : Keyed Setting) : Call String := transaction do
  let expired ← if isOn values "skip-expired" then pure "" else do
    pure (countLine "pruned_expired_bundles" (← Maintenance.pruneExpired none))
  let invalidated ← if isOn values "skip-invalidated" then pure "" else do
    if isNothing values "older-than-days" then throw .wrongType
    let count ← Maintenance.pruneInvalidated (integer? values "older-than-days") none
    pure (countLine "pruned_invalidated_bundles" count)
  return expired ++ invalidated

/-- A missing tenant is noticed inside the session, which cannot pass that failure on as it is. -/
def expireRoleAssignments (values : Keyed Setting) : Call String := do
  let expire : Call Nat := do
    checkQueried values ["tenant-id"]
    Maintenance.expireAssignments (text? values "tenant-id") none
  let count ← tryCatch expire fun
    | .tenantMissing => throw .tenantMissingInSession
    | failure => throw failure
  return countLine "expired_role_assignments" count

def Name.work : Name → Keyed Setting → Call String
  | .inspectBundle => CommandLine.inspectBundle
  | .pruneBundleCache => CommandLine.pruneBundleCache
  | .expireRoleAssignments => CommandLine.expireRoleAssignments

def run (n : Name) (args : List String) : Call Answer := do
  match parse n.command.flags args with
  | .help => return ⟨0, Help.text n.command⟩
  | .misuse => return ⟨2, ""⟩
  | .settings values => do
    let _ ← ofExcept (← read).settings.levelNumber
    return ⟨0, ← n.work values⟩

end Entitlements.CommandLine
