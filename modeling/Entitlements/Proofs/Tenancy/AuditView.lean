import Entitlements.Proofs.Tenancy.Agreement

/-!
The part of the audit log that a tenant sees. Rows are numbered across all tenants, so two logs that
say the same of one tenant still number it differently. What survives is the order of the numbers,
and that is all that a listing uses of them: newest first, and of rows of one time the one with the
higher number first. The listings are compared row by row, over the list of pairs of rows that stand
at the same place in both logs.
-/

namespace Entitlements

open Time Table

/-! ### Numbers -/

namespace Store

variable {s : Store} {row : AuditRow} {tenant : String}

theorem lt_nextAuditId {r : AuditRow} (hr : r ∈ s.audit) : r.id < s.nextAuditId := by
  have hfold : ∀ (rows : List AuditRow) (start : Nat),
      start ≤ rows.foldl (fun n r => max n r.id) start ∧
        ∀ r ∈ rows, r.id ≤ rows.foldl (fun n r => max n r.id) start := by
    intro rows
    induction rows with
    | nil => exact fun start => ⟨Nat.le_refl start, fun r hr => by cases hr⟩
    | cons q rows ih =>
      intro start
      obtain ⟨hstart, hrows⟩ := ih (max start q.id)
      rw [List.foldl_cons]
      refine ⟨by omega, fun r hr => ?_⟩
      rcases List.mem_cons.1 hr with rfl | hr
      · omega
      · exact hrows r hr
  exact Nat.lt_succ_of_le ((hfold s.audit 0).2 r hr)

theorem pairwise_allAudit (h : (s.audit.map (·.id)).Nodup) :
    s.allAudit.Pairwise fun a b => a.id < b.id := by
  have hsorted : s.allAudit.Pairwise fun a b => decide (a.id ≤ b.id) = true := by
    refine List.pairwise_mergeSort ?_ ?_ s.audit
    · intro a b c hab hbc
      exact decide_eq_true (Nat.le_trans (of_decide_eq_true hab) (of_decide_eq_true hbc))
    · intro a b
      simp only [Bool.or_eq_true, decide_eq_true_eq]
      exact Nat.le_total _ _
  have hdistinct : s.allAudit.Pairwise fun a b => a.id ≠ b.id := by
    have hnodup : (s.allAudit.map (·.id)).Nodup :=
      ((List.mergeSort_perm s.audit _).map (·.id)).nodup_iff.2 h
    exact List.pairwise_map.1 hnodup
  refine hsorted.imp₂ (fun a b hle hne => ?_) hdistinct
  exact Nat.lt_of_le_of_ne (of_decide_eq_true hle) hne

/-- A row with a higher number comes last. -/
theorem allAudit_append (h : (s.audit.map (·.id)).Nodup) (hrow : ∀ r ∈ s.audit, r.id < row.id) :
    Store.allAudit { s with audit := s.audit ++ [row] } = s.allAudit ++ [row] := by
  have hsorted : (s.allAudit ++ [row]).Pairwise fun a b => decide (a.id ≤ b.id) = true := by
    refine List.pairwise_append.2 ⟨?_, List.pairwise_singleton _ _, fun a ha b hb => ?_⟩
    · exact (pairwise_allAudit h).imp fun hlt => decide_eq_true (Nat.le_of_lt hlt)
    · rw [List.mem_singleton.1 hb]
      exact decide_eq_true (Nat.le_of_lt (hrow a (List.mem_mergeSort.1 ha)))
  rw [← List.mergeSort_of_pairwise hsorted]
  refine mergeSort_eq_of_perm (fun r : AuditRow => r.id) (fun a b => decide_eq_true_iff)
    (fun a ha b hb hid => ?_) ((List.mergeSort_perm s.audit _).symm.append_right [row])
  exact eq_of_key (nodup_append h fun r hr => Nat.ne_of_lt (hrow r hr)) ha hb hid

theorem auditOf_append (h : (s.audit.map (·.id)).Nodup) (hrow : ∀ r ∈ s.audit, r.id < row.id)
    (htenant : row.tenant = some tenant) :
    Store.auditOf { s with audit := s.audit ++ [row] } tenant =
      s.auditOf tenant ++ [row.content] := by
  simp [auditOf, allAudit_append h hrow, htenant]

end Store

/-! ### Listings -/

/-- The order of listings. -/
def AuditRow.isNewer (a b : AuditRow) : Bool :=
  decide (b.occurredAt < a.occurredAt) || (a.occurredAt == b.occurredAt && decide (b.id ≤ a.id))

theorem AuditRow.isNewer_iff (a b : AuditRow) : a.isNewer b = true ↔
    toLex (OrderDual.toDual a.occurredAt.micros, OrderDual.toDual a.id) ≤
      toLex (OrderDual.toDual b.occurredAt.micros, OrderDual.toDual b.id) := by
  rw [Prod.Lex.toLex_le_toLex, isNewer, Bool.or_eq_true, Bool.and_eq_true, decide_eq_true_eq,
    beq_iff_eq, decide_eq_true_eq, Instant.eq_iff_micros]
  rfl

theorem Store.auditRows_eq {s : Store} (h : (s.audit.map (·.id)).Nodup) (tenant : String)
    (f : AuditFilter) : s.auditRows (some tenant) f =
      ((s.allAudit.filter (·.tenant == some tenant)).filter f.accepts).mergeSort
        AuditRow.isNewer := by
  rw [List.filter_filter]
  refine mergeSort_eq_of_perm _ AuditRow.isNewer_iff (fun a ha b hb hkey => ?_) ?_
  · simp only [toLex_inj, Prod.mk.injEq, OrderDual.toDual_inj] at hkey
    exact eq_of_key h (List.mem_filter.1 ha).1 (List.mem_filter.1 hb).1 hkey.2
  · have hcomm : (fun r : AuditRow => r.tenant == some tenant && f.accepts r) =
        fun r => f.accepts r && r.tenant == some tenant := funext fun r => Bool.and_comm _ _
    rw [hcomm]
    exact (List.mergeSort_perm s.audit _).symm.filter _

theorem content_mergeSort_eq {rows rows' : List AuditRow}
    (hcontent : rows.map (·.content) = rows'.map (·.content))
    (hrows : rows.Pairwise fun a b => a.id < b.id)
    (hrows' : rows'.Pairwise fun a b => a.id < b.id) :
    (rows.mergeSort AuditRow.isNewer).map (·.content) =
      (rows'.mergeSort AuditRow.isNewer).map (·.content) := by
  have hlength : rows.length = rows'.length := by simpa using congrArg List.length hcontent
  obtain ⟨pairs, rfl, rfl⟩ : ∃ pairs : List (AuditRow × AuditRow),
      rows = pairs.map Prod.fst ∧ rows' = pairs.map Prod.snd :=
    ⟨rows.zip rows', (List.map_fst_zip (Nat.le_of_eq hlength)).symm,
      (List.map_snd_zip (Nat.le_of_eq hlength.symm)).symm⟩
  rw [List.map_map, List.map_map, List.map_inj_left] at hcontent
  have htime : ∀ p ∈ pairs, p.1.occurredAt = p.2.occurredAt := by
    intro p hp
    have hsame : p.1.content = p.2.content := hcontent p hp
    have htimes := congrArg AuditRow.occurredAt hsame
    exact htimes
  rw [List.pairwise_map] at hrows hrows'
  -- Of two places the later one has the higher number in both logs.
  have hids : ∀ ⦃p⦄, p ∈ pairs → ∀ ⦃q⦄, q ∈ pairs → (p.1.id ≤ q.1.id ↔ p.2.id ≤ q.2.id) := by
    have hboth : pairs.Pairwise fun p q =>
        (p.1.id ≤ q.1.id ↔ p.2.id ≤ q.2.id) ∧ (q.1.id ≤ p.1.id ↔ q.2.id ≤ p.2.id) :=
      hrows.imp₂ (fun p q hlt hlt' => ⟨by omega, by omega⟩) hrows'
    have hsymm : Std.Symm fun p q : AuditRow × AuditRow =>
        (p.1.id ≤ q.1.id ↔ p.2.id ≤ q.2.id) ∧ (q.1.id ≤ p.1.id ↔ q.2.id ≤ p.2.id) :=
      ⟨fun p q hpq => hpq.symm⟩
    intro p hp q hq
    refine (List.Pairwise.forall_of_forall (fun r _ => ?_) hboth hp hq).1
    exact ⟨iff_of_true (Nat.le_refl _) (Nat.le_refl _), iff_of_true (Nat.le_refl _) (Nat.le_refl _)⟩
  have horder : ∀ p ∈ pairs, ∀ q ∈ pairs, p.1.isNewer q.1 = p.2.isNewer q.2 := by
    intro p hp q hq
    simp only [AuditRow.isNewer, htime p hp, htime q hq, decide_eq_decide.2 (hids hq hp)]
  have hfst := List.map_mergeSort (f := Prod.fst) (s := AuditRow.isNewer)
    (r := fun p q => p.1.isNewer q.1) (l := pairs) fun _ _ _ _ => rfl
  have hsnd := List.map_mergeSort (f := Prod.snd) (s := AuditRow.isNewer)
    (r := fun p q => p.1.isNewer q.1) (l := pairs) horder
  rw [← hfst, ← hsnd, List.map_map, List.map_map]
  exact List.map_congr_left fun p hp => hcontent p (List.mem_mergeSort.1 hp)

/-- Twins list the same entries, up to their numbers. -/
theorem Engine.Twin.auditRows {tenant : String} {e e' : Engine} (h : e.Twin tenant e')
    (f : AuditFilter) :
    (e.store.auditRows (some tenant) f).map (·.content) =
      (e'.store.auditRows (some tenant) f).map (·.content) := by
  rw [Store.auditRows_eq h.left.audit, Store.auditRows_eq h.right.audit]
  have haccepts : f.accepts ∘ AuditRow.content = f.accepts := rfl
  have hcontent := congrArg (List.filter f.accepts) h.store.audit
  rw [Store.auditOf, Store.auditOf, List.filter_map, List.filter_map, haccepts] at hcontent
  exact content_mergeSort_eq hcontent (((Store.pairwise_allAudit h.left.audit).filter _).filter _)
    (((Store.pairwise_allAudit h.right.audit).filter _).filter _)

end Entitlements
