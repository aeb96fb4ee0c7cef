import Entitlements.Proofs.Tenancy.AuditView

/-!
Calls that keep to one tenant. A call is isolated if it ends in the same way on twins, leaves twins,
and leaves every row of others alone on both sides. There is a rule for each way in which calls are
put together, so that a call is isolated because its steps are.

A write does not fit such a rule by itself: what it writes was made of the store that it read, and
that differs between the two sides. So the judgement underneath, `TwinRuns`, is about one pair of
runs, and it is followed through the call with both stores at hand.
-/

namespace Entitlements

open Time Table

/-! ### Steps of two engines -/

/-- Are the rows of others as they were, and is no identifier to come that was not to come
before? -/
structure Engine.Spares (tenant : String) (e f : Engine) : Prop where
  store : e.store.Spares tenant f.store
  issued : ∀ kind id, f.ids.IsUpcoming kind id → e.ids.IsUpcoming kind id

theorem Store.Spares.refl (tenant : String) (s : Store) : s.Spares tenant s :=
  ⟨rfl, rfl, rfl, rfl, rfl, rfl, rfl, rfl, rfl, rfl⟩

theorem Store.Spares.trans {tenant : String} {s s' s'' : Store} (h : s.Spares tenant s')
    (h' : s'.Spares tenant s'') : s.Spares tenant s'' where
  users := Eq.trans h'.users h.users
  customers := Eq.trans h'.customers h.customers
  groups := Eq.trans h'.groups h.groups
  members := Eq.trans h'.members h.members
  policies := Eq.trans h'.policies h.policies
  roles := Eq.trans h'.roles h.roles
  assignments := Eq.trans h'.assignments h.assignments
  cache := Eq.trans h'.cache h.cache
  permissions := Eq.trans h'.permissions h.permissions
  audit := Eq.trans h'.audit h.audit

/-- Two engines have gone on, without a difference that the tenant could see and without a trace
that others could. -/
structure Engine.StepsAlike (tenant : String) (e e' f f' : Engine) : Prop where
  twin : f.Twin tenant f'
  left : e.Spares tenant f
  right : e'.Spares tenant f'

namespace Engine

variable {tenant : String} {e e' f f' g g' : Engine}

theorem Spares.refl (tenant : String) (e : Engine) : e.Spares tenant e :=
  ⟨.refl tenant e.store, fun _ _ h => h⟩

theorem Spares.trans (h : e.Spares tenant f) (h' : f.Spares tenant g) : e.Spares tenant g :=
  ⟨h.store.trans h'.store, fun kind id hid => h.issued kind id (h'.issued kind id hid)⟩

theorem StepsAlike.refl (h : e.Twin tenant e') : e.StepsAlike tenant e' e e' :=
  ⟨h, .refl tenant e, .refl tenant e'⟩

theorem StepsAlike.trans (h : e.StepsAlike tenant e' f f') (h' : f.StepsAlike tenant f' g g') :
    e.StepsAlike tenant e' g g' := ⟨h'.twin, h.left.trans h'.left, h.right.trans h'.right⟩

theorem IsConsistent.advance (h : e.IsConsistent) (kind : IdKind) :
    IsConsistent { e with ids := e.ids.advance kind } :=
  { h with
    assignments := h.assignments.advance kind
    permissions := { h.permissions with
      issued := fun r hr hup => h.permissions.issued r hr hup.of_advance } }

/-- Both sides use up the same identifier. -/
theorem Twin.spend (h : e.Twin tenant e') (kind : IdKind) :
    e.StepsAlike tenant e' { e with ids := e.ids.advance kind }
      { e' with ids := e'.ids.advance kind } where
  twin :=
    { h with
      ids := congrArg (·.advance kind) h.ids
      left := h.left.advance kind
      right := h.right.advance kind }
  left := ⟨.refl tenant e.store, fun _ _ hup => hup.of_advance⟩
  right := ⟨.refl tenant e'.store, fun _ _ hup => hup.of_advance⟩

/-- Constraints on identifiers still hold of tables that are put back. -/
theorem IsConsistent.restore (h : e.IsConsistent)
    (hids : ∀ kind id, f.ids.IsUpcoming kind id → e.ids.IsUpcoming kind id) :
    IsConsistent { f with store := e.store } :=
  { h with
    assignments := { h.assignments with
      issued := fun a ha hup => h.assignments.issued a ha (hids _ _ hup) }
    permissions := { h.permissions with
      issued := fun r hr hup => h.permissions.issued r hr (hids _ _ hup) } }

/-- Both sides give up what they have written. -/
theorem StepsAlike.restore (h : e.StepsAlike tenant e' f f') (htwin : e.Twin tenant e') :
    e.StepsAlike tenant e' { f with store := e.store } { f' with store := e'.store } where
  twin :=
    { clock := h.twin.clock
      ids := h.twin.ids
      store := htwin.store
      left := htwin.left.restore h.left.issued
      right := htwin.right.restore h.right.issued }
  left := ⟨.refl tenant e.store, h.left.issued⟩
  right := ⟨.refl tenant e'.store, h.right.issued⟩

end Engine

namespace Call

/-! ### Two runs -/

/-- Do two runs end in the same way and leave engines that have gone on alike? -/
structure TwinRuns (tenant : String) (x y : Call α) (env : Environment) (e e' : Engine) : Prop
    extends e.StepsAlike tenant e' (x.after env e) (y.after env e') where
  answers : (x.outcome env e).1 = (y.outcome env e').1

namespace TwinRuns

variable {tenant : String} {x y : Call α} {env : Environment} {e e' f f' : Engine}

theorem of_outcome {r : Except Failure α} (hx : x.outcome env e = (r, f))
    (hy : y.outcome env e' = (r, f')) (h : e.StepsAlike tenant e' f f') :
    TwinRuns tenant x y env e e' := by
  rw [← after_eq_of_outcome hx, ← after_eq_of_outcome hy] at h
  exact ⟨h, by rw [hx, hy]⟩

/-- After a step that both sides have taken. -/
theorem of_steps {x' y' : Call α} (h : e.StepsAlike tenant e' f f')
    (hx : x.outcome env e = x'.outcome env f) (hy : y.outcome env e' = y'.outcome env f')
    (hnext : TwinRuns tenant x' y' env f f') : TwinRuns tenant x y env e e' := by
  have hsteps := h.trans hnext.toStepsAlike
  have hanswers := hnext.answers
  rw [after, after, ← hx, ← hy] at hsteps
  rw [← hx, ← hy] at hanswers
  exact ⟨hsteps, hanswers⟩

theorem bind {k l : α → Call β} (h : TwinRuns tenant x y env e e')
    (hk : ∀ a, TwinRuns tenant (k a) (l a) env (x.after env e) (y.after env e')) :
    TwinRuns tenant (x >>= k) (y >>= l) env e e' := by
  have hanswers := h.answers
  have hsteps := h.toStepsAlike
  rcases hx : x.outcome env e with ⟨r, f⟩
  rcases hy : y.outcome env e' with ⟨r', f'⟩
  rw [hx, hy] at hanswers
  rw [after_eq_of_outcome hx, after_eq_of_outcome hy] at hsteps hk
  -- Both sides have failed, or both go on with the same value.
  obtain rfl : r = r' := hanswers
  rcases r with failure | a
  · exact of_outcome (by rw [outcome_bind, hx]; rfl) (by rw [outcome_bind, hy]; rfl) hsteps
  · exact of_steps hsteps (by rw [outcome_bind, hx]; rfl) (by rw [outcome_bind, hy]; rfl) (hk a)

theorem store_bind {k l : Store → Call β} (h : TwinRuns tenant (k e.store) (l e'.store) env e e') :
    TwinRuns tenant (store >>= k) (store >>= l) env e e' :=
  ⟨h.toStepsAlike, h.answers⟩

theorem now_bind (htwin : e.Twin tenant e') {k l : Instant → Call β}
    (h : TwinRuns tenant (k e.clock) (l e.clock) env e e') :
    TwinRuns tenant (now >>= k) (now >>= l) env e e' := by
  have hx : (now >>= k).outcome env e = (k e.clock).outcome env e := rfl
  have hy : (now >>= l).outcome env e' = (l e.clock).outcome env e' := by
    rw [htwin.clock]
    rfl
  exact of_steps (.refl htwin) hx hy h

theorem orFail_none (htwin : e.Twin tenant e') (failure : Failure) {k l : β → Call α} :
    TwinRuns tenant (orFail failure none >>= k) (orFail failure none >>= l) env e e' :=
  of_outcome rfl rfl (.refl htwin)

theorem orFail_some {failure : Failure} {a b : β} {k l : β → Call α}
    (h : TwinRuns tenant (k a) (l b) env e e') :
    TwinRuns tenant (orFail failure (some a) >>= k) (orFail failure (some b) >>= l) env e e' :=
  ⟨h.toStepsAlike, h.answers⟩

/-- Both sides use up an identifier, and it is the same. -/
theorem freshId_bind (htwin : e.Twin tenant e') {kind : IdKind} {k l : String → Call α}
    (h : TwinRuns tenant (k (e.ids.next kind)) (l (e.ids.next kind)) env
      { e with ids := e.ids.advance kind } { e' with ids := e'.ids.advance kind }) :
    TwinRuns tenant (freshId kind >>= k) (freshId kind >>= l) env e e' := by
  refine of_steps (htwin.spend kind) rfl ?_ h
  rw [outcome_bind, outcome_freshId, htwin.ids]
  rfl

end TwinRuns

/-! ### Isolated calls -/

/-- Does a call keep to one tenant, in what it looks at and in what it changes? -/
def Isolated (tenant : String) (x : Call α) : Prop :=
  ∀ env e e', e.Twin tenant e' → TwinRuns tenant x x env e e'

/-- Both sides write, and go on in the same way. -/
theorem TwinRuns.write_bind {tenant : String} {env : Environment} {e e' : Engine} {s s' : Store}
    {k : Unit → Call α}
    (h : e.StepsAlike tenant e' { e with store := s } { e' with store := s' })
    (hk : Isolated tenant (k ())) : TwinRuns tenant (write s >>= k) (write s' >>= k) env e e' :=
  .of_steps h rfl rfl (hk env _ _ h.twin)

namespace Isolated

variable {tenant : String} {x : Call α}

/-- A call whose answer depends on nothing that may differ, and that writes nothing. -/
theorem of_outcome {answer : Environment → Except Failure α}
    (hx : ∀ env e, x.outcome env e = (answer env, e)) : Isolated tenant x :=
  fun env e e' h => .of_outcome (hx env e) (hx env e') (.refl h)

theorem pure (a : α) : Isolated tenant (pure a) := of_outcome fun _ _ => rfl

theorem throw (failure : Failure) : Isolated tenant (throw failure : Call α) :=
  of_outcome fun _ _ => rfl

theorem read : Isolated tenant read := of_outcome fun _ _ => rfl

theorem ofExcept (r : Except Failure α) : Isolated tenant (ofExcept r) :=
  of_outcome fun env e => outcome_ofExcept env e r

theorem orFail (failure : Failure) (a? : Option α) : Isolated tenant (orFail failure a?) :=
  of_outcome fun env e => outcome_orFail env e failure a?

theorem requireTenant (given : Given) : Isolated tenant (requireTenant given) :=
  of_outcome fun env e => outcome_requireTenant env e given

theorem now : Isolated tenant now := by
  intro env e e' h
  refine .of_outcome rfl ?_ (.refl h)
  rw [outcome_now, h.clock]

theorem bind {k : α → Call β} (hx : Isolated tenant x) (hk : ∀ a, Isolated tenant (k a)) :
    Isolated tenant (x >>= k) := fun env e e' h =>
  let hruns := hx env e e' h
  hruns.bind fun a => hk a env _ _ hruns.twin

theorem map {f : α → β} (hx : Isolated tenant x) : Isolated tenant (f <$> x) := by
  rw [map_eq_pure_bind]
  exact hx.bind fun a => pure (f a)

/-- A look at the store for what twins have in common. -/
theorem look {g : Store → α} {k : α → Call β}
    (hg : ∀ e e' : Engine, e.Twin tenant e' → g e.store = g e'.store)
    (hk : ∀ a, Isolated tenant (k a)) : Isolated tenant (store >>= fun s => k (g s)) := by
  intro env e e' h
  refine .store_bind ?_
  rw [← hg e e' h]
  exact hk _ env e e' h

theorem ite {c : Prop} [Decidable c] {y : Call α} (hx : Isolated tenant x)
    (hy : Isolated tenant y) : Isolated tenant (if c then x else y) := by
  split
  · exact hx
  · exact hy

/-- Two ways to go on to the same. -/
theorem ite_bind {c : Prop} [Decidable c] {y : Call α} {k : α → Call β} (hx : Isolated tenant x)
    (hy : Isolated tenant y) (hk : ∀ a, Isolated tenant (k a)) :
    Isolated tenant (if c then x >>= k else y >>= k) :=
  .ite (hx.bind hk) (hy.bind hk)

/-- A check that refuses. -/
theorem guard {c : Prop} [Decidable c] {failure : Failure} {f : Unit → Call α}
    (hx : Isolated tenant x) :
    Isolated tenant (if c then MonadExcept.throw failure >>= f else x) :=
  .ite (of_outcome fun _ _ => rfl) hx

theorem tryCatch {handle : Failure → Call α} (hx : Isolated tenant x)
    (hh : ∀ failure, Isolated tenant (handle failure)) : Isolated tenant (tryCatch x handle) := by
  intro env e e' h
  have hruns := hx env e e' h
  have hanswers := hruns.answers
  have hsteps := hruns.toStepsAlike
  rw [after, after] at hsteps
  rcases ho : x.outcome env e with ⟨r, f⟩
  rcases ho' : x.outcome env e' with ⟨r', f'⟩
  rw [ho, ho'] at hanswers hsteps
  obtain rfl : r = r' := hanswers
  rcases r with failure | a
  · exact .of_steps hsteps (by rw [outcome_tryCatch, ho]) (by rw [outcome_tryCatch, ho'])
      (hh failure env f f' hsteps.twin)
  · exact .of_outcome (by rw [outcome_tryCatch, ho]) (by rw [outcome_tryCatch, ho']) hsteps

theorem attempt {x : Call Unit} (hx : Isolated tenant x) : Isolated tenant (attempt x) :=
  hx.tryCatch fun _ => pure ()

theorem discard (hx : Isolated tenant x) : Isolated tenant (discard x) := by
  rw [Functor.discard, LawfulFunctor.map_const]
  exact hx.map

/-- What a failed transaction has written is gone on both sides. -/
theorem transaction (hx : Isolated tenant x) : Isolated tenant (transaction x) := by
  intro env e e' h
  have hruns := hx env e e' h
  have hanswers := hruns.answers
  have hsteps := hruns.toStepsAlike
  rw [after, after] at hsteps
  rcases ho : x.outcome env e with ⟨r, f⟩
  rcases ho' : x.outcome env e' with ⟨r', f'⟩
  rw [ho, ho'] at hanswers hsteps
  obtain rfl : r = r' := hanswers
  rcases r with failure | a
  · have hx' : (Call.transaction x).outcome env e =
        (.error failure, { f with store := e.store }) := by rw [outcome_transaction, ho]
    have hy' : (Call.transaction x).outcome env e' =
        (.error failure, { f' with store := e'.store }) := by rw [outcome_transaction, ho']
    exact .of_outcome hx' hy' (hsteps.restore h)
  · have hx' : (Call.transaction x).outcome env e = (.ok a, f) := by rw [outcome_transaction, ho]
    have hy' : (Call.transaction x).outcome env e' = (.ok a, f') := by
      rw [outcome_transaction, ho']
    exact .of_outcome hx' hy' hsteps

theorem mapM {k : α → Call β} (a? : Option α) (hk : ∀ a, Isolated tenant (k a)) :
    Isolated tenant (a?.mapM k) := by
  cases a? with
  | none => exact pure none
  | some a =>
    rw [Option.mapM_some]
    exact (hk a).bind fun b => pure (some b)

theorem list_mapM {k : α → Call β} (hk : ∀ a, Isolated tenant (k a)) (as : List α) :
    Isolated tenant (as.mapM k) := by
  induction as with
  | nil => exact pure []
  | cons a as ih =>
    rw [List.mapM_cons]
    exact (hk a).bind fun b => ih.bind fun bs => pure (b :: bs)

theorem window (offset limit : Option Int) (rows : List α) :
    Isolated tenant (window offset limit rows) := .ite (pure _) (throw _)

end Isolated

end Call

end Entitlements
