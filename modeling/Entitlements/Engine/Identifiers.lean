import Entitlements.Text.Digits

/-!
Identifiers and where they come from. What an identifier is called is not up to the engine: it gets
the names one after another, and all that it may rely on is that a name comes once. Which name
stands at which place is a parameter therefore, and the numbered ones are an instance.
-/

namespace Entitlements

open Text

inductive IdKind where
  | policy
  | role
  | assignment
  | permission
  deriving DecidableEq, Repr

def IdKind.tag : IdKind → String
  | .policy => "po"
  | .role => "rl"
  | .assignment => "ra"
  | .permission => "dp"

/-- What identifiers are called, by their kind and their place in the order of issue. -/
structure IdScheme where
  name : IdKind → Nat → String
  /-- Fresh names: what stands at one place stands at no other. -/
  distinct : ∀ {kind : IdKind} {m n : Nat}, name kind m = name kind n → m = n

namespace IdScheme

/-- At least four places, of which a sign takes one. -/
def numberText (n : Int) : List Char :=
  if n < 0 then '-' :: padded 3 n.natAbs else padded 4 n.toNat

/-- A sign is no digit, so it tells the two ways of writing apart. -/
theorem numberText_injective {m n : Int} (h : numberText m = numberText n) : m = n := by
  have hsign (width k : Nat) (rest : List Char) : padded width k ≠ '-' :: rest := by
    intro heq
    have hdigit : isDigit '-' = true :=
      isDigit_of_mem_padded (heq ▸ List.mem_cons_self : '-' ∈ padded width k)
    exact absurd hdigit (by decide)
  unfold numberText at h
  split at h
  · split at h
    · have habs := congrArg ofDigits (List.cons.inj h).2
      rw [ofDigits_padded, ofDigits_padded] at habs
      omega
    · exact (hsign _ _ _ h.symm).elim
  · split at h
    · exact (hsign _ _ _ h).elim
    · have hnat := congrArg ofDigits h
      rw [ofDigits_padded, ofDigits_padded] at hnat
      omega

/-- The number at a place, upwards from one or downwards from the largest of four digits. -/
def number (descending : Bool) (place : Nat) : Int :=
  if descending then 9999 - place else place + 1

/-- Numbers behind a tag of the kind. -/
def numbered (descending : Bool) : IdScheme where
  name kind place := kind.tag ++ "-" ++ String.ofList (numberText (number descending place))
  distinct {_ m n} h := by
    have hnumber : number descending m = number descending n :=
      numberText_injective (String.ofList_injective (String.append_right_inj _ |>.1 h))
    simp only [number] at hnumber
    split at hnumber <;> omega

end IdScheme

/-- Hands out names, counted for each kind on its own. -/
structure IdSupply where
  scheme : IdScheme
  issued : IdKind → Nat

namespace IdSupply

def start (scheme : IdScheme) : IdSupply := ⟨scheme, fun _ => 0⟩

def next (ids : IdSupply) (kind : IdKind) : String := ids.scheme.name kind (ids.issued kind)

def advance (ids : IdSupply) (kind : IdKind) : IdSupply :=
  { ids with issued := fun k => if k = kind then ids.issued k + 1 else ids.issued k }

theorem issued_advance_self (ids : IdSupply) (kind : IdKind) :
    (ids.advance kind).issued kind = ids.issued kind + 1 := by
  simp [advance]

theorem issued_advance_of_ne (ids : IdSupply) {kind k : IdKind} (h : k ≠ kind) :
    (ids.advance kind).issued k = ids.issued k := by
  simp [advance, h]

end IdSupply

end Entitlements
