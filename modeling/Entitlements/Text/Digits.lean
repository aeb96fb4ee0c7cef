import Entitlements.Text.Blank

/-!
Decimal digits and the whole numbers they spell. Numbers are written to a least width with zeros in
front. The readers of numbers that people type allow a sign and single underscores between digits;
only the ASCII digits count.
-/

namespace Entitlements.Text

def isDigit (c : Char) : Bool := '0' ≤ c && c ≤ '9'

def ofDigits (ds : List Char) : Nat := ds.foldl (fun n d => n * 10 + (d.toNat - 48)) 0

/-- A number with at least `width` digits. -/
def padded (width n : Nat) : List Char :=
  let ds := Nat.toDigits 10 n
  List.replicate (width - ds.length) '0' ++ ds

/-- The digits of a text in which single underscores may stand between digits. -/
def plainDigits : List Char → Option (List Char)
  | [] => none
  | [d] => if isDigit d then some [d] else none
  | d :: '_' :: rest => if isDigit d then (plainDigits rest).map (d :: ·) else none
  | d :: rest => if isDigit d then (plainDigits rest).map (d :: ·) else none

/-- A whole number with an optional sign. -/
def signed? : List Char → Option Int
  | '-' :: ds => (plainDigits ds).map fun ds => -(ofDigits ds : Int)
  | '+' :: ds => (plainDigits ds).map fun ds => (ofDigits ds : Int)
  | ds => (plainDigits ds).map fun ds => (ofDigits ds : Int)

/-! ### What is written -/

theorem isDigit_of_isDigit {c : Char} (h : c.isDigit = true) : isDigit c = true := h

theorem isDigit_of_mem_padded {width n : Nat} {c : Char} (h : c ∈ padded width n) :
    isDigit c = true := by
  simp only [padded, List.mem_append, List.mem_replicate] at h
  rcases h with ⟨-, rfl⟩ | h
  · decide
  · exact isDigit_of_isDigit (Nat.isDigit_of_mem_toDigits (by omega) (by omega) h)

theorem ofDigits_append_zeros (zeros : Nat) (ds : List Char) :
    ofDigits (List.replicate zeros '0' ++ ds) = ofDigits ds := by
  induction zeros with
  | zero => rfl
  | succ zeros ih =>
    rw [List.replicate_succ, List.cons_append]
    exact ih

theorem ofDigits_toDigits (n : Nat) : ofDigits (Nat.toDigits 10 n) = n := by
  have h := @Nat.ofDigitChars_ten_toDigits n
  rw [Nat.ofDigitChars_eq_foldl] at h
  rw [ofDigits]
  have hzero : '0'.toNat = 48 := rfl
  simpa only [Nat.mul_comm, hzero] using h

theorem ofDigits_padded (width n : Nat) : ofDigits (padded width n) = n := by
  rw [padded, ofDigits_append_zeros, ofDigits_toDigits]

end Entitlements.Text
