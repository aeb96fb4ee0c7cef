import Entitlements.Decimal.Power

/-!
Cutting a list short by a signed count. A count that is not negative keeps that many members from
the front; a negative one drops that many from the back; no count keeps everything. Pages of a
table start at an offset, where a negative offset is none, and hold a limited number of rows, where
a negative limit is none.
-/

namespace Entitlements

def upTo (stop : Option Int) (xs : List α) : List α :=
  match stop with
  | none => xs
  | some n => if 0 ≤ n then xs.take n.toNat else xs.take (xs.length - n.natAbs)

def page (offset : Int) (limit : Option Int) (rows : List α) : List α :=
  let rest := rows.drop offset.toNat
  match limit with
  | none => rest
  | some n => if 0 ≤ n then rest.take n.toNat else rest

/-- The integers that a table can take as an offset or a limit. -/
def isTableInteger (n : Int) : Bool := Decimal.isWordSized n

end Entitlements
