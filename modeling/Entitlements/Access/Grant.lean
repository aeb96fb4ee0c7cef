import Entitlements.Access.Basic

/-!
Grants and what they decide. A grant is one path from an assignment through its role to a policy.
Denying is global: every reachable deny list is consulted before any allow list, so the order of
grants can change which policy is named but never whether access is given.

The enumeration of effective permissions sorts the grants first. Each text of an allow list becomes
an entry, allowed unless some reachable deny pattern matches it, and is credited to the first grant
that lists it; each text of a deny list becomes an entry that is explicitly denied and takes the
place of an allow entry of the same text.
-/

namespace Entitlements

open Time

structure Grant where
  assignment : Assignment
  role : Role
  policy : Policy
  deriving DecidableEq

namespace Grant

def denies (g : Grant) (permission : Given) : Bool := Pattern.anyMatch permission g.policy.deny

def allows (g : Grant) (permission : Given) : Bool := Pattern.anyMatch permission g.policy.allow

end Grant

/-! ### Decisions -/

inductive Verdict where
  | noAssignments
  | noMatch
  | denied (role policy : String)
  | allowed (role policy : String)
  deriving DecidableEq, Repr

namespace Verdict

def isAllowed : Verdict → Bool
  | .allowed .. => true
  | _ => false

def reason : Verdict → String
  | .noAssignments => "no active role assignments"
  | .noMatch => "no matching permission found"
  | .denied _ policy => "denied by policy " ++ policy
  | .allowed _ policy => "allowed by policy " ++ policy

def policy? : Verdict → Option String
  | .denied _ policy => some policy
  | .allowed _ policy => some policy
  | _ => none

def role? : Verdict → Option String
  | .denied role _ => some role
  | .allowed role _ => some role
  | _ => none

end Verdict

structure Decision where
  verdict : Verdict
  evaluatedAt : Instant
  deriving DecidableEq

/-- Deny lists first, then allow lists, each in the order of the grants. -/
def Verdict.ofGrants (grants : List Grant) (permission : Given) : Verdict :=
  match grants.find? (·.denies permission) with
  | some g => .denied g.role.key g.policy.key
  | none => match grants.find? (·.allows permission) with
    | some g => .allowed g.role.key g.policy.key
    | none => .noMatch

/-! ### Effective permissions -/

structure EffectivePermission where
  permission : String
  allowed : Bool
  role : String
  policy : String
  explicitlyDenied : Bool
  conditions : Option Conditions
  deriving DecidableEq

/-- The order in which grants are credited: by role, then policy, then assignment. -/
def Grant.le (g h : Grant) : Bool :=
  if g.role.key ≠ h.role.key then decide (g.role.key < h.role.key)
  else if g.policy.key ≠ h.policy.key then decide (g.policy.key < h.policy.key)
  else decide (g.assignment.id ≤ h.assignment.id)

namespace EffectivePermission

/-- The entry of a text that a grant allows, given everything that is denied. -/
def ofAllow (denied : List String) (g : Grant) (permission : String) : EffectivePermission :=
  { permission, allowed := !Pattern.anyMatch (some permission) denied, role := g.role.key,
    policy := g.policy.key, explicitlyDenied := false, conditions := g.policy.conditions }

def ofDeny (g : Grant) (permission : String) : EffectivePermission :=
  { permission, allowed := false, role := g.role.key, policy := g.policy.key,
    explicitlyDenied := true, conditions := g.policy.conditions }

/-- All entries in order of precedence: of two for the same text the earlier one counts. -/
def candidates (grants : List Grant) : List EffectivePermission :=
  let denied := grants.flatMap (·.policy.deny)
  grants.flatMap (fun g => g.policy.deny.map (ofDeny g)) ++
    grants.flatMap (fun g => g.policy.allow.map (ofAllow denied g))

end EffectivePermission

/-- The members of a list whose key did not occur before. -/
def distinctBy [BEq κ] (key : α → κ) : List κ → List α → List α
  | _, [] => []
  | seen, x :: xs =>
    if seen.contains (key x) then distinctBy key seen xs
    else x :: distinctBy key (key x :: seen) xs

/-- The distinct members of a list, each at its first place. -/
def distinct [BEq α] (xs : List α) : List α := distinctBy id [] xs

def sortTexts (texts : List String) : List String := texts.mergeSort fun a b => decide (a ≤ b)

/-- Every permission text that the grants mention, resolved, in ascending order. -/
def effectivePermissions (grants : List Grant) : List EffectivePermission :=
  let sorted := grants.mergeSort Grant.le
  (distinctBy (·.permission) [] (EffectivePermission.candidates sorted)).mergeSort
    fun a b => decide (a.permission ≤ b.permission)

end Entitlements
