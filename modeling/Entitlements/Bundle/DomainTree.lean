import Entitlements.Access.Grant
import Entitlements.Keyed

/-!
The domain view of a bundle: which actions a user may take, by domain, equipment and location. It
is folded from the effective permissions that are allowed and name a domain key in either spelling;
all others stay in the flat lists only. Keys ascend at every level, actions ascend and are listed
once, and the conditions of a location are those of its first entry that carries any.
-/

namespace Entitlements

structure LocationActions where
  actions : List String
  conditions : Option Conditions
  deriving DecidableEq

abbrev DomainTree := Keyed (Keyed (Keyed LocationActions))

namespace DomainTree

/-- A domain key that is allowed, with the conditions it comes with. -/
abbrev Leaf := DomainKey × Option Conditions

def leaf? (e : EffectivePermission) : Option Leaf :=
  if e.allowed then (DomainKey.ofPermission? e.permission).map fun key => (key, e.conditions)
  else none

def ascending (texts : List String) : List String := sortTexts (distinct texts)

/-- Groups leaves by one part of their key, in ascending order. -/
def groupBy (part : DomainKey → String) (build : List Leaf → β) (leaves : List Leaf) : Keyed β :=
  (ascending (leaves.map (part ·.1))).map fun name =>
    (name, build (leaves.filter (part ·.1 == name)))

def location (leaves : List Leaf) : LocationActions :=
  { actions := ascending (leaves.map (·.1.action)), conditions := leaves.findSome? (·.2) }

def ofLeaves : List Leaf → DomainTree :=
  groupBy (·.domain) (groupBy (·.equipment) (groupBy (·.location) location))

def ofPermissions (entries : List EffectivePermission) : DomainTree :=
  ofLeaves (entries.filterMap leaf?)

def node? (tree : DomainTree) (domain equipment location : String) : Option LocationActions := do
  let equipments ← tree.get? domain
  let locations ← Keyed.get? equipments equipment
  Keyed.get? locations location

def permits (tree : DomainTree) (key : DomainKey) : Bool :=
  match node? tree key.domain key.equipment key.location with
  | some node => node.actions.contains key.action
  | none => false

end DomainTree

end Entitlements
