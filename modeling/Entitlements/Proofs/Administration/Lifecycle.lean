import Entitlements.Proofs.Administration.Integrity
import Entitlements.Proofs.Engine.Identifiers

/-!
The life of an assignment. It is granted active, and leaves that state at most once: it is revoked,
or its expiry is recorded once the limit has come. Three writes touch the state, one of them hidden
in a new grant of the same role, and each is confined to its rows; nothing else about a row ever
changes, and no row goes. So what is not in force at some time is not in force later.

That a role is held once at a time comes from the check in the table, which looks at other
identifiers only. It is enough because the identifier of a new row has never been handed out before.
-/

namespace Entitlements

open Time Call

/-! ### One row -/

namespace AssignmentRow

/-- Is a row what has become of another by a time? What was granted stays. -/
structure Becomes (a b : AssignmentRow) (now : Instant) : Prop where
  grant : b = { a with status := b.status, updatedBy := b.updatedBy, updatedAt := b.updatedAt }
  status : b.status = a.status ∨ a.isActive = true ∧
    (b.status = AssignmentStatus.revoked.text ∨
      b.status = AssignmentStatus.expired.text ∧ ∃ t, a.expiresAt = some t ∧ t ≤ now)

variable {a b c : AssignmentRow} {now later : Instant}

theorem Becomes.refl (a : AssignmentRow) (now : Instant) : a.Becomes a now := ⟨rfl, .inl rfl⟩

theorem Becomes.mono (h : a.Becomes b now) (hle : now ≤ later) : a.Becomes b later where
  grant := h.grant
  status := by
    rcases h.status with hsame | ⟨hactive, hrevoked | ⟨hexpired, t, hexp, hpast⟩⟩
    · exact .inl hsame
    · exact .inr ⟨hactive, .inl hrevoked⟩
    · exact .inr ⟨hactive, .inr ⟨hexpired, t, hexp, Int.le_trans hpast hle⟩⟩

/-- A state that was left is not entered again. -/
theorem Becomes.isActive (h : a.Becomes b now) (hb : b.isActive = true) : a.isActive = true := by
  rcases h.status with hsame | ⟨hactive, -⟩
  · rwa [AssignmentRow.isActive, ← hsame]
  · exact hactive

theorem Becomes.status_of_not_isActive (h : a.Becomes b now) (ha : a.isActive = false) :
    b.status = a.status := by
  rcases h.status with hsame | ⟨hactive, -⟩
  · exact hsame
  · rw [ha] at hactive
    cases hactive

theorem Becomes.expiresAt (h : a.Becomes b now) : b.expiresAt = a.expiresAt := by rw [h.grant]

theorem Becomes.trans (h : a.Becomes b now) (h' : b.Becomes c later) (hle : now ≤ later) :
    a.Becomes c later where
  grant := by rw [h'.grant, h.grant]
  status := by
    rcases hb : b.isActive with _ | _
    · rw [h'.status_of_not_isActive hb]
      exact (h.mono hle).status
    · -- The row was active all the time, so the later change is the only one.
      have ha := h.isActive hb
      rcases h'.status with hsame | ⟨-, hleft⟩
      · rw [hsame]
        exact (h.mono hle).status
      · rw [h.expiresAt] at hleft
        exact .inr ⟨ha, hleft⟩

/-- What is not in force does not come into force. -/
theorem Becomes.not_isLive (h : a.Becomes b later) (hle : now ≤ later)
    (ha : a.isLive now = false) : b.isLive later = false := by
  rw [Bool.eq_false_iff]
  intro hlive
  rw [isLive, Bool.and_eq_true, isAhead_iff, h.expiresAt] at hlive
  have hearlier : a.isLive now = true := by
    rw [isLive, Bool.and_eq_true, isAhead_iff]
    exact ⟨h.isActive hlive.1, fun t ht => Int.lt_of_le_of_lt hle (hlive.2 t ht)⟩
  rw [ha] at hearlier
  cases hearlier

theorem becomes_settle (selected : AssignmentRow → Bool) {time : Instant} (hle : time ≤ now)
    (a : AssignmentRow) : a.Becomes (Store.settle selected time a) now := by
  unfold Store.settle
  split
  · next h =>
    obtain ⟨hactive, hlapsed⟩ := Bool.and_eq_true_iff.1 (Bool.and_eq_true_iff.1 h).2
    refine ⟨rfl, .inr ⟨hactive, .inr ⟨rfl, ?_⟩⟩⟩
    rw [Bool.not_eq_true', ← Bool.not_eq_true, isAhead_iff] at hlapsed
    push Not at hlapsed
    obtain ⟨t, hexp, hpast⟩ := hlapsed
    exact ⟨t, hexp, Int.le_trans (Instant.not_lt.1 hpast) hle⟩
  · exact .refl a now

/-- Do two rows give the same role to the same user at the same scope? -/
def SharesTriple (a b : AssignmentRow) : Prop :=
  a.hasTriple (some b.tenant) (some b.userId) (some b.roleKey) (some b.scope) = true

theorem Becomes.hasTriple (h : a.Becomes b now) (tenant user role scope : Given) :
    b.hasTriple tenant user role scope = a.hasTriple tenant user role scope := by
  rw [h.grant]
  rfl

theorem Becomes.id (h : a.Becomes b now) : b.id = a.id := by rw [h.grant]

end AssignmentRow

/-- What the check for clashes makes sure of. -/
theorem Store.not_sharesTriple_of_not_clashes {s : Store} {row : AssignmentRow}
    (h : s.clashes row = false) (hactive : row.isActive = true) {a : AssignmentRow}
    (ha : a ∈ s.assignments) (haActive : a.isActive = true) (hid : a.id ≠ row.id) :
    ¬a.SharesTriple row := by
  intro hshares
  have hany := Bool.and_eq_false_iff.1 h
  rw [hactive] at hany
  have hnone := List.any_eq_false.1 (hany.resolve_left (by simp)) a ha
  rw [AssignmentRow.SharesTriple] at hshares
  exact hnone (by simp [haActive, hid, hshares])

/-! ### The table -/

/-- Does each row have an identifier of its own, which is not to be handed out again, and is no role
held twice at a time? -/
structure AssignmentTable.WellKept (ids : IdSupply) (rows : List AssignmentRow) : Prop where
  distinct : (rows.map (·.id)).Nodup
  issued : ∀ a ∈ rows, ¬ids.IsUpcoming .assignment a.id
  single : rows.Pairwise fun a b => a.isActive = true → b.isActive = true → ¬a.SharesTriple b

namespace AssignmentTable.WellKept

variable {ids : IdSupply} {rows : List AssignmentRow} {now : Instant}

theorem advance (h : WellKept ids rows) (kind : IdKind) : WellKept (ids.advance kind) rows :=
  { h with issued := fun a ha hup => h.issued a ha hup.of_advance }

/-- Rows may change as rows do. -/
theorem map (h : WellKept ids rows) {f : AssignmentRow → AssignmentRow}
    (hf : ∀ a ∈ rows, a.Becomes (f a) now) : WellKept ids (rows.map f) where
  distinct := by
    have hids : (rows.map f).map (·.id) = rows.map (·.id) := by
      rw [List.map_map]
      exact List.map_congr_left fun a ha => (hf a ha).id
    rw [hids]
    exact h.distinct
  issued := by
    intro b hb
    obtain ⟨a, ha, rfl⟩ := List.mem_map.1 hb
    rw [(hf a ha).id]
    exact h.issued a ha
  single := by
    rw [List.pairwise_map]
    refine h.single.imp_of_mem fun {a b} ha hb hab hactive hactive' hshares => ?_
    have hsame := (hf b hb).grant
    rw [AssignmentRow.SharesTriple, (hf a ha).hasTriple, hsame] at hshares
    exact hab ((hf a ha).isActive hactive) ((hf b hb).isActive hactive') hshares

/-- The check in the table passes over rows with the identifier of the new row, and there are
none. -/
theorem append_of_not_clashes {s : Store} (h : WellKept ids s.assignments) {row : AssignmentRow}
    (hid : row.id = ids.next .assignment) (hclash : s.clashes row = false) :
    WellKept (ids.advance .assignment) (s.assignments ++ [row]) where
  distinct := by
    rw [List.map_append, List.map_singleton, List.nodup_append]
    refine ⟨h.distinct, List.nodup_singleton _, fun id hmem id' hmem' => ?_⟩
    obtain ⟨a, ha, rfl⟩ := List.mem_map.1 hmem
    rw [List.mem_singleton.1 hmem', hid]
    rintro heq
    exact h.issued a ha (heq ▸ ids.isUpcoming_next .assignment)
  issued := by
    refine Store.forall_mem_append_singleton (h.advance .assignment).issued ?_
    rw [hid]
    exact IdSupply.not_isUpcoming_advance .assignment
  single := by
    refine List.pairwise_append.2 ⟨h.single, List.pairwise_singleton _ _, fun a ha b hb => ?_⟩
    rw [List.mem_singleton.1 hb]
    intro hactive hactive'
    refine Store.not_sharesTriple_of_not_clashes hclash hactive' ha hactive fun heq => ?_
    exact h.issued a ha (heq ▸ hid ▸ ids.isUpcoming_next .assignment)

/-- At most one row is active for a user, a role and a scope. -/
theorem countP_le_one (h : WellKept ids rows) (tenant user role scope : Given) :
    rows.countP (fun r => r.isActive && r.hasTriple tenant user role scope) ≤ 1 := by
  rw [List.countP_eq_length_filter]
  rcases hrows : rows.filter fun r => r.isActive && r.hasTriple tenant user role scope with
    _ | ⟨a, _ | ⟨b, rest⟩⟩
  · rw [hrows]
    exact Nat.zero_le 1
  · rw [hrows]
    exact Nat.le_refl 1
  · -- Two rows of the same triple would share it.
    have hmem : ∀ r ∈ a :: b :: rest, r.isActive = true ∧
        r.hasTriple tenant user role scope = true := fun r hr => by
      rw [← hrows] at hr
      exact Bool.and_eq_true_iff.1 (List.mem_filter.1 hr).2
    have hpairs := h.single.filter fun r => r.isActive && r.hasTriple tenant user role scope
    rw [hrows] at hpairs
    obtain ⟨hactive, htriple⟩ := hmem a List.mem_cons_self
    obtain ⟨hactive', htriple'⟩ := hmem b (List.mem_cons_of_mem _ List.mem_cons_self)
    refine (List.rel_of_pairwise_cons hpairs List.mem_cons_self hactive hactive' ?_).elim
    simp only [AssignmentRow.hasTriple, Bool.and_eq_true, beq_iff_eq] at htriple htriple'
    simp [AssignmentRow.SharesTriple, AssignmentRow.hasTriple, htriple, htriple']

end AssignmentTable.WellKept

open AssignmentTable (WellKept)

/-- Is each assignment still there, as what has become of it? -/
def Store.KeepsAssignments (s s' : Store) (now : Instant) : Prop :=
  ∀ a ∈ s.assignments, ∃ b ∈ s'.assignments, a.Becomes b now

namespace Store

variable {s s' : Store} {now : Instant}

theorem KeepsAssignments.of_eq (h : s'.assignments = s.assignments) :
    s.KeepsAssignments s' now := fun a ha => ⟨a, h ▸ ha, .refl a now⟩

theorem KeepsAssignments.trans {s'' : Store} {later : Instant} (h : s.KeepsAssignments s' now)
    (h' : s'.KeepsAssignments s'' later) (hle : now ≤ later) : s.KeepsAssignments s'' later := by
  intro a ha
  obtain ⟨b, hb, hab⟩ := h a ha
  obtain ⟨c, hc, hbc⟩ := h' b hb
  exact ⟨c, hc, hab.trans hbc hle⟩

end Store

/-! ### One write -/

/-- What a step does to the table of assignments is no more than the life of each allows. -/
structure Engine.LivesOn (e e' : Engine) : Prop where
  clock : e.clock ≤ e'.clock
  table : WellKept e.ids e.store.assignments → WellKept e'.ids e'.store.assignments
  rows : e.store.KeepsAssignments e'.store e'.clock

namespace Engine.LivesOn

variable {e e' : Engine}

theorem trans {e'' : Engine} (h : e.LivesOn e') (h' : e'.LivesOn e'') : e.LivesOn e'' where
  clock := Int.le_trans h.clock h'.clock
  table hk := h'.table (h.table hk)
  rows := h.rows.trans h'.rows h'.clock

theorem of_tables (hclock : e.clock ≤ e'.clock)
    (hids : e'.ids = e.ids ∨ ∃ kind, e'.ids = e.ids.advance kind)
    (ha : e'.store.assignments = e.store.assignments) : e.LivesOn e' where
  clock := hclock
  table hk := by
    rw [ha]
    rcases hids with hids | ⟨kind, hids⟩
    · rwa [hids]
    · rw [hids]
      exact hk.advance kind
  rows := .of_eq ha

theorem refl (e : Engine) : e.LivesOn e := of_tables (Int.le_refl e.clock.micros) (.inl rfl) rfl

/-- Each row changes as rows do. -/
theorem of_map {f : AssignmentRow → AssignmentRow}
    (hf : ∀ a ∈ e.store.assignments, a.Becomes (f a) e.clock) :
    e.LivesOn { e with
      store := { e.store with assignments := e.store.assignments.map f } } where
  clock := Int.le_refl e.clock.micros
  table hk := hk.map hf
  rows a ha := ⟨f a, List.mem_map_of_mem ha, hf a ha⟩

theorem settles (selected : AssignmentRow → Bool) {time : Instant} (hle : time ≤ e.clock) :
    e.LivesOn { e with store := e.store.expireWhere selected time } :=
  of_map fun a _ => AssignmentRow.becomes_settle selected hle a

/-- A grant retires what has lapsed, and then adds a row that nothing clashes with. -/
theorem grants {tenant : Given} {d : AssignmentDraft} {s : Store} {row : AssignmentRow}
    (h : e.store.insertAssignment? (e.ids.next .assignment) tenant d e.clock = some (s, row)) :
    e.LivesOn { e with store := s, ids := e.ids.advance .assignment } := by
  obtain ⟨⟨-, hid, -⟩, retired, rfl, hclash, rfl⟩ := Store.insertAssignment?_eq_some h
  have hretire := settles (e := e)
    (·.hasTriple tenant d.user d.role d.scope) (Int.le_refl e.clock.micros)
  refine hretire.trans ⟨Int.le_refl e.clock.micros, fun hk => ?_, ?_⟩
  · exact hk.append_of_not_clashes (s := e.store.expireWhere _ _) hid hclash
  · exact fun a ha => ⟨a, List.mem_append_left _ ha, .refl a e.clock⟩

theorem revokes {actor : Given} {r row : AssignmentRow} {s : Store}
    (hactive : r.isActive = true)
    (h : e.store.setStatus? r (some AssignmentStatus.revoked.text) actor e.clock = some (s, row)) :
    e.LivesOn { e with store := s } := by
  obtain ⟨⟨text, htext, rfl⟩, rfl⟩ := Store.setStatus?_eq_some h
  refine of_map fun a _ => ?_
  split
  · next hr =>
    rw [hr]
    exact ⟨rfl, .inr ⟨hactive, .inl (Option.some.inj htext).symm⟩⟩
  · exact .refl a e.clock

end Engine.LivesOn

/-- Every effect does, as long as no expiry is recorded before it has come. -/
theorem Engine.Effect.livesOn {e e' : Engine} (h : Effect (· ≤ e.clock) e e') : e.LivesOn e' := by
  have hclock : e.clock ≤ e.clock := Int.le_refl e.clock.micros
  cases h with
  | registers _ _ ha => exact .of_tables hclock (.inl rfl) ha
  | spends kind => exact .of_tables hclock (.inr ⟨kind, rfl⟩) rfl
  | addsPolicy _ _ hins =>
    obtain ⟨row, -, -, -, rfl⟩ := Store.insertPolicy?_eq_some hins
    exact .of_tables hclock (.inr ⟨.policy, rfl⟩) rfl
  | changesPolicy _ _ _ hupd =>
    obtain ⟨row, -, -, -, -, rfl⟩ := Store.updatePolicy?_eq_some hupd
    exact .of_tables hclock (.inl rfl) rfl
  | removesPolicy _ _ => exact .of_tables hclock (.inl rfl) rfl
  | addsRole _ hins =>
    obtain ⟨row, -, -, rfl⟩ := Store.insertRole?_eq_some hins
    exact .of_tables hclock (.inr ⟨.role, rfl⟩) rfl
  | changesRole _ _ hupd =>
    obtain ⟨row, -, -, -, rfl⟩ := Store.updateRole?_eq_some hupd
    exact .of_tables hclock (.inl rfl) rfl
  | removesRole _ _ => exact .of_tables hclock (.inl rfl) rfl
  | grants _ _ hins => exact .grants hins
  | revokes _ hactive hset => exact .revokes hactive hset
  | settles selected hle => exact .settles selected hle

theorem Engine.HasEffect.livesOn {e e' : Engine} (h : e.HasEffect (· ≤ e.clock) e') :
    e.LivesOn e' := by
  obtain ⟨e₁, m, heffect, rfl⟩ := h
  exact heffect.livesOn.trans (.of_tables (Int.le_refl e₁.clock.micros) (.inl rfl) rfl)

/-- A grant past administration, at the time of the clock. -/
theorem AccessStore.createAssignment_livesOn (env : Environment) (e : Engine) (tenant : Given)
    (d : AssignmentDraft) : e.LivesOn ((createAssignment tenant d (some e.clock)).after env e) := by
  rcases AccessStore.after_createAssignment env e tenant d e.clock with
    hsame | hspent | ⟨s, row, hins, hgranted⟩
  · rw [hsame]
    exact .refl e
  · rw [hspent]
    exact .of_tables (Int.le_refl e.clock.micros) (.inr ⟨.assignment, rfl⟩) rfl
  · rw [hgranted]
    exact .grants hins

/-! ### Requests -/

/-- Does a request go through administration, or grant at the time of the clock, and does it neither
set the clock back nor record an expiry before it has come? -/
def Request.IsCurrent (e : Engine) : Request → Prop
  | operation op => op.IsTimely e
  | write (.createAssignment _ _ grantedAt) => grantedAt = some e.clock
  | write (.expireAssignments _ now) => now = e.clock
  | write _ => False
  | generate .. | edit _ => True

theorem Operation.IsTimely.passesBy {e : Engine} {op : Operation} (h : op.IsTimely e) :
    op.PassesBy (· ≤ e.clock) e := by
  have hnow : e.clock ≤ e.clock := Int.le_refl e.clock.micros
  cases op with
  | expireAssignments tenant present =>
    cases present with
    | none => exact hnow
    | some stamp => exact h stamp rfl
  | runTask => exact hnow
  | _ => trivial

theorem Request.IsCurrent.livesOn (env : Environment) {e : Engine} {request : Request}
    (h : request.IsCurrent e) : e.LivesOn (request.call.after env e) := by
  by_cases hwrite : ∃ w, request = write w
  · obtain ⟨w, rfl⟩ := hwrite
    cases w with
    | createAssignment tenant d grantedAt =>
      rw [call, AccessStore.Write.call, after_discard, h]
      exact AccessStore.createAssignment_livesOn env e tenant d
    | expireAssignments tenant now =>
      rw [call, AccessStore.Write.call, after_discard, h]
      exact (AccessStore.expireAssignments_hasEffect env e tenant
        (Int.le_refl e.clock.micros)).livesOn
    | _ => exact h.elim
  · have hpasses : ∀ op, request = operation op → op.PassesBy (· ≤ e.clock) e := by
      rintro op rfl
      exact Operation.IsTimely.passesBy h
    rcases request.hasEffect_or_moves env e (fun w hw => hwrite ⟨w, hw⟩) hpasses with
      heffect | ⟨setTo, micros, rfl⟩
    · exact heffect.livesOn
    · rw [call, Operation.after_moveClock]
      rcases htime : (setTo.getD e.clock).add? micros with _ | time
      · exact .refl e
      · exact .of_tables (h time htime) (.inl rfl) rfl

/-! ### Runs -/

theorem livesOn_of_course {start e : Engine}
    (hrun : Course (fun _ e request => request.IsCurrent e) start e) : start.LivesOn e := by
  induction hrun with
  | nil => exact .refl start
  | step env request _ hcurrent ih => exact ih.trans (hcurrent.livesOn env)

/-- Along every run of administration, of grants and of recorded expiries, a role is held once at a
time, no assignment is lost, and of each only the state changes: once, when it is revoked or when
its expiry that has come is recorded. What is not in force at some time is not in force later. -/
theorem assignments_live_once {clock : Instant} {scheme : IdScheme} {e e' : Engine}
    (hrun : Course (fun _ e request => request.IsCurrent e) (Engine.empty clock scheme) e)
    (hrest : Course (fun _ e request => request.IsCurrent e) e e') :
    (∀ tenant user role scope : Given,
        e'.store.assignments.countP
          (fun r => r.isActive && r.hasTriple tenant user role scope) ≤ 1) ∧
      (e'.store.assignments.map (·.id)).Nodup ∧
      ∀ a ∈ e.store.assignments, ∃ b ∈ e'.store.assignments, a.Becomes b e'.clock ∧
        (a.isLive e.clock = false → b.isLive e'.clock = false) := by
  have hempty : WellKept (IdSupply.start scheme) [] :=
    ⟨List.nodup_nil, by simp, List.Pairwise.nil⟩
  have hlater := livesOn_of_course hrest
  have hkept := hlater.table ((livesOn_of_course hrun).table hempty)
  refine ⟨hkept.countP_le_one, hkept.distinct, fun a ha => ?_⟩
  obtain ⟨b, hb, hbecomes⟩ := hlater.rows a ha
  exact ⟨b, hb, hbecomes, hbecomes.not_isLive hlater.clock⟩

/-- Two minutes after the loan for a minute, the same role is granted for good. -/
def Engine.grantAfterLoan : List Operation :=
  [.moveClock none (120 * Instant.microsPerSecond),
    .assignRole (some "acme")
      { user := some "alice", role := some "operator", scope := some "tenant:*"
        grantedBy := some "admin", expiresAt := none, reason := none }]

/-- The engine after these calls. -/
def Engine.grantedAfterLoan : Engine :=
  grantAfterLoan.foldl (fun e op => op.call.after Environment.plain e) fansLent

/-- The grant has retired the loan, whose row is still there, and is the only active one. -/
theorem loan_lives_once :
    Engine.grantedAfterLoan.store.assignments.length = 2 ∧
      Engine.grantedAfterLoan.store.assignments.countP
        (fun r => r.isActive &&
          r.hasTriple (some "acme") (some "alice") (some "operator") (some "tenant:*")) ≤ 1 ∧
      ∃ b ∈ Engine.grantedAfterLoan.store.assignments,
        Engine.fansLoan.Becomes b ⟨120 * Instant.microsPerSecond⟩ ∧ b.status = "expired" := by
  have hrun : Course (fun _ e request => request.IsCurrent e) (Engine.start ⟨0⟩ false)
      Engine.fansLent := by
    refine Course.nil.operations fun op hop e => ?_
    simp only [Engine.lendFans, Engine.allowFans, List.take, List.mem_append, List.mem_cons,
      List.not_mem_nil, or_false] at hop
    rcases hop with (rfl | rfl | rfl) | rfl <;> trivial
  have hrest : Course (fun _ e request => request.IsCurrent e) Engine.fansLent
      Engine.grantedAfterLoan := by
    refine Course.nil.operations fun op hop e => ?_
    simp only [Engine.grantAfterLoan, List.mem_cons, List.not_mem_nil, or_false] at hop
    rcases hop with rfl | rfl
    · exact Operation.isTimely_advance e (by decide)
    · trivial
  obtain ⟨hsingle, -, hrows⟩ := assignments_live_once hrun hrest
  obtain ⟨b, hb, hbecomes, -⟩ := hrows Engine.fansLoan (List.mem_singleton_self _)
  refine ⟨rfl, hsingle _ _ _ _, b, hb, hbecomes, ?_⟩
  -- Of the two rows, the new one has another identifier.
  have hcases : b = Engine.fansLoan.expire ⟨120 * Instant.microsPerSecond⟩ ∨ b.id = "ra-0002" := by
    rcases List.mem_cons.1 hb with rfl | hb
    · exact .inl rfl
    · rw [List.mem_singleton.1 hb]
      exact .inr rfl
  rcases hcases with rfl | hid
  · rfl
  · rw [hbecomes.id] at hid
    exact absurd hid (by decide)

end Entitlements
