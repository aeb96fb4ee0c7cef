import Entitlements.Proofs.Access.Distinct
import Entitlements.Proofs.Evaluation.Decision
import Mathlib.Data.Finset.Card
import Mathlib.Data.List.Dedup

/-!
Several permissions at once. A batch looks the grants up once and decides each permission that it
was asked for by them, however often it was asked. It answers what one evaluation after another
would have answered: the same access for the same reason, with the same role and policy named and
at the same time. What it counts is counted over the permissions asked for, taken as a set.
-/

namespace Entitlements

open Time Call

/-! ### Distinct members -/

section

variable [BEq κ] [LawfulBEq κ] {key : α → κ}

/-- What is kept stands in the order in which its keys first occur. -/
theorem pairwise_idxOf_distinctBy (seen : List κ) (xs : List α) :
    (distinctBy key seen xs).Pairwise fun x y =>
      (xs.map key).idxOf (key x) < (xs.map key).idxOf (key y) := by
  induction xs generalizing seen with
  | nil => exact .nil
  | cons z xs ih =>
    -- Whatever has another key than the head is found one place later than in the rest.
    have hlater {x : α} (hx : key x ≠ key z) :
        ((z :: xs).map key).idxOf (key x) = (xs.map key).idxOf (key x) + 1 :=
      List.idxOf_cons_ne _ hx.symm
    have hrest (taken : List κ) (hz : key z ∈ taken) :
        (distinctBy key taken xs).Pairwise fun x y =>
          ((z :: xs).map key).idxOf (key x) < ((z :: xs).map key).idxOf (key y) := by
      refine (ih taken).imp_of_mem fun {x y} hx hy hlt => ?_
      have hne {w : α} (hw : w ∈ distinctBy key taken xs) : key w ≠ key z := fun heq =>
        not_seen_of_mem_distinctBy hw (heq ▸ hz)
      rw [hlater (hne hx), hlater (hne hy)]
      exact Nat.succ_lt_succ hlt
    rw [distinctBy]
    split
    · next hz => exact hrest seen (List.contains_iff_mem.1 hz)
    · refine List.pairwise_cons.2 ⟨fun y hy => ?_, hrest _ List.mem_cons_self⟩
      have hne : key y ≠ key z := fun heq =>
        not_seen_of_mem_distinctBy hy (heq ▸ List.mem_cons_self)
      rw [hlater hne, List.map_cons, List.idxOf_cons_self]
      exact Nat.succ_pos _

end

section

variable [BEq α] [LawfulBEq α] (xs : List α)

theorem pairwise_idxOf_distinct :
    (distinct xs).Pairwise fun x y => xs.idxOf x < xs.idxOf y := by
  have h : (distinct xs).Pairwise fun x y => (xs.map id).idxOf x < (xs.map id).idxOf y :=
    pairwise_idxOf_distinctBy [] xs
  rwa [List.map_id] at h

variable [DecidableEq α]

theorem toFinset_distinct : (distinct xs).toFinset = xs.toFinset := by
  ext x
  rw [List.mem_toFinset, List.mem_toFinset, mem_distinct]

theorem length_distinct : (distinct xs).length = xs.toFinset.card := by
  rw [← toFinset_distinct, List.toFinset_card_of_nodup (nodup_distinct xs)]

theorem countP_distinct (p : α → Bool) :
    (distinct xs).countP p = (xs.toFinset.filter (p ·)).card := by
  rw [← toFinset_distinct, ← List.toFinset_filter, List.countP_eq_length_filter,
    List.toFinset_card_of_nodup ((nodup_distinct xs).filter p)]

end

/-! ### Batches -/

theorem Store.liveAssignmentsOf_opposed :
    Store.opposed.liveAssignmentsOf (some "acme") (some "alice") ⟨0⟩ =
      Store.opposed.assignments := by
  rw [liveAssignmentsOf, assignmentsOf, List.mergeSort_of_pairwise (by decide)]
  rfl

namespace Evaluation

theorem outcome_evaluateBatch {env : Environment} {tenant : Given}
    (ht : env.settings.checkTenant tenant = .ok ()) (user scope : Given)
    (permissions : List Given) (e : Engine) :
    (evaluateBatch tenant user permissions scope).outcome env e =
      (.ok ⟨(distinct permissions).map fun p =>
        (p, ⟨e.store.verdict tenant user p scope e.clock, e.clock⟩)⟩, e) := by
  simp [evaluateBatch, ht, Store.verdict]

theorem Batch.allowed_le_total (b : Batch) : b.allowed ≤ b.total := List.countP_le_length

theorem Batch.total_eq (b : Batch) : b.total = b.allowed + b.denied :=
  (Nat.add_sub_cancel' b.allowed_le_total).symm

/-- A batch lists the permissions asked for, each once and in the order in which they first occur,
with the decision that an evaluation comes to; and it counts how many there are and how many of
them are allowed. -/
theorem batch_decides_as_evaluate (env : Environment) (e : Engine) (tenant user scope : Given)
    (permissions : List Given) (ht : env.settings.checkTenant tenant = .ok ()) :
    ∃ (decision : Given → Decision) (b : Batch),
      (∀ p, (evaluate tenant user p scope).outcome env e = (.ok (decision p), e)) ∧
      (evaluateBatch tenant user permissions scope).outcome env e = (.ok b, e) ∧
      (∀ p, p ∈ b.results.map (·.1) ↔ p ∈ permissions) ∧
      (b.results.map (·.1)).Pairwise
        (fun p q => permissions.idxOf p < permissions.idxOf q) ∧
      (∀ r ∈ b.results, r.2 = decision r.1) ∧
      b.total = permissions.toFinset.card ∧
      b.allowed = (permissions.toFinset.filter fun p => (decision p).verdict.isAllowed).card ∧
      b.total = b.allowed + b.denied := by
  have hkeys : ((distinct permissions).map fun p =>
      (p, (⟨e.store.verdict tenant user p scope e.clock, e.clock⟩ : Decision))).map (·.1) =
      distinct permissions := by
    rw [List.map_map]
    exact List.map_id _
  refine ⟨fun p => ⟨e.store.verdict tenant user p scope e.clock, e.clock⟩, _,
    fun p => outcome_evaluate_of_checked ht user p scope e,
    outcome_evaluateBatch ht user scope permissions e, ?_, ?_, ?_, ?_, ?_, Batch.total_eq _⟩
  · intro p
    rw [hkeys, mem_distinct]
  · rw [hkeys]
    exact pairwise_idxOf_distinct permissions
  · intro r hr
    obtain ⟨p, -, rfl⟩ := List.mem_map.1 hr
    rfl
  · rw [Batch.total, List.length_map, length_distinct]
  · rw [Batch.allowed, List.countP_map]
    exact countP_distinct permissions _

/-- Alice asks twice about the export of reports, which is allowed, and once about purging them,
which nothing allows. -/
theorem batch_counts_repeated_once :
    Environment.plain.settings.checkTenant (some "acme") = .ok () ∧
      ∃ b : Batch,
        (evaluateBatch (some "acme") (some "alice")
            [some "reports.export.execute", some "reports.purge.execute",
              some "reports.export.execute"] (some "customer:*")).outcome Environment.plain
            { Engine.start ⟨0⟩ false with store := Store.opposed } =
          (.ok b, { Engine.start ⟨0⟩ false with store := Store.opposed }) ∧
        b.results.map (·.1) = [some "reports.export.execute", some "reports.purge.execute"] ∧
        b.total = 2 ∧ b.allowed = 1 ∧ b.denied = 1 := by
  have ht : Environment.plain.settings.checkTenant (some "acme") = .ok () := rfl
  obtain ⟨-, b, -, hb, -, -, -, htotal, -, hsum⟩ := batch_decides_as_evaluate Environment.plain
    { Engine.start ⟨0⟩ false with store := Store.opposed } (some "acme") (some "alice")
    (some "customer:*")
    [some "reports.export.execute", some "reports.purge.execute", some "reports.export.execute"] ht
  have htwo : b.total = 2 := htotal.trans (by decide)
  have hbatch := hb
  rw [outcome_evaluateBatch ht] at hbatch
  have hallowed : b.allowed = 1 := by
    rw [← Except.ok.inj (congrArg Prod.fst hbatch)]
    simp only [Batch.allowed, Engine.start, Engine.empty, Store.verdict, Store.grantsAt,
      Store.grantsWhere, Store.liveAssignmentsOf_opposed]
    decide
  refine ⟨ht, b, hb, ?_, htwo, hallowed, by omega⟩
  rw [← Except.ok.inj (congrArg Prod.fst hbatch)]
  rfl

end Evaluation

end Entitlements
