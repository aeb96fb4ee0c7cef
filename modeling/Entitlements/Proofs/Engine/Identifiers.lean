import Entitlements.Engine.Identifiers

/-!
Identifiers are handed out once. The supply counts, and no two places in the order of issue have one
name, whatever the names are. An identifier that is still to come is therefore on no row that was
added with one of the supply.
-/

namespace Entitlements

namespace IdSupply

variable (ids : IdSupply)

/-- Is an identifier still to be handed out? -/
def IsUpcoming (kind : IdKind) (id : String) : Prop :=
  ∃ n, ids.issued kind ≤ n ∧ id = ids.scheme.name kind n

theorem isUpcoming_next (kind : IdKind) : ids.IsUpcoming kind (ids.next kind) :=
  ⟨ids.issued kind, Nat.le_refl _, rfl⟩

variable {ids}

theorem IsUpcoming.of_advance {kind k : IdKind} {id : String}
    (h : (ids.advance kind).IsUpcoming k id) : ids.IsUpcoming k id := by
  obtain ⟨n, hn, rfl⟩ := h
  refine ⟨n, Nat.le_trans ?_ hn, rfl⟩
  by_cases hk : k = kind
  · rw [hk, issued_advance_self]
    omega
  · exact Nat.le_of_eq (issued_advance_of_ne ids hk).symm

/-- What has just been handed out is not handed out again. -/
theorem not_isUpcoming_advance (kind : IdKind) :
    ¬(ids.advance kind).IsUpcoming kind (ids.next kind) := by
  rintro ⟨n, hn, heq⟩
  rw [issued_advance_self] at hn
  have hplace : ids.issued kind = n := ids.scheme.distinct heq
  omega

/-! ### Supplies one after the other -/

variable (ids) in
/-- Does an identifier that is still to come in the later supply come in the earlier one? -/
def Precedes (later : IdSupply) : Prop :=
  ∀ kind id, later.IsUpcoming kind id → ids.IsUpcoming kind id

theorem Precedes.refl (ids : IdSupply) : ids.Precedes ids := fun _ _ h => h

theorem Precedes.trans {mid later : IdSupply} (h : ids.Precedes mid) (h' : mid.Precedes later) :
    ids.Precedes later := fun kind id hup => h kind id (h' kind id hup)

theorem precedes_advance (ids : IdSupply) (kind : IdKind) : ids.Precedes (ids.advance kind) :=
  fun _ _ h => h.of_advance

end IdSupply

end Entitlements
