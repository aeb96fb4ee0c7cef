/-!
Powers of the two bases that number formats are about, and the range of signed words of 64 bits.
-/

namespace Entitlements.Decimal

def twoTo (k : Nat) : Nat := Nat.pow 2 k

def tenTo (k : Nat) : Nat := Nat.pow 10 k

def isWordSized (n : Int) : Bool :=
  decide (-(twoTo 63 : Int) ≤ n) && decide (n < (twoTo 63 : Int))

end Entitlements.Decimal
