import Entitlements.Engine.Basic

/-!
What calls come to. A call is a program in a monad, and the wrong thing to reason about is the
stack the monad is made of. `outcome` says what a call does to one engine: the answer or the
failure, and the engine it leaves. The lemmas here give the outcome of every primitive and of the
ways in which calls are put together, all as equations that `simp` takes from left to right, so
that the outcome of a whole call is computed by simplification and the monad is never opened again.
-/

namespace Entitlements.Call

open Time

/-! ### Results -/

section Results

variable (a : α) (failure : Failure)

@[simp] theorem ok_bind (f : α → Except Failure β) : (Except.ok a >>= f) = f a := rfl

@[simp] theorem error_bind (f : α → Except Failure β) :
    (Except.error failure >>= f) = .error failure := rfl

@[simp] theorem map_ok (f : α → β) : (f <$> Except.ok a : Except Failure β) = .ok (f a) := rfl

@[simp] theorem map_error (f : α → β) :
    (f <$> Except.error failure : Except Failure β) = .error failure := rfl

@[simp] theorem pure_eq_ok : (pure a : Except Failure α) = .ok a := rfl

theorem bind_eq_ok_iff {r : Except Failure α} {f : α → Except Failure β} {b : β} :
    (r >>= f) = .ok b ↔ ∃ a, r = .ok a ∧ f a = .ok b := by
  cases r <;> simp

end Results

/-! ### Outcomes -/

/-- What follows an outcome: nothing after a failure. -/
def andThen (r : Except Failure α × Engine) (next : α → Engine → Except Failure β × Engine) :
    Except Failure β × Engine :=
  match r with
  | (.ok a, e) => next a e
  | (.error failure, e) => (.error failure, e)

@[simp] theorem andThen_ok (a : α) (e : Engine)
    (next : α → Engine → Except Failure β × Engine) : andThen (.ok a, e) next = next a e := rfl

@[simp] theorem andThen_error (failure : Failure) (e : Engine)
    (next : α → Engine → Except Failure β × Engine) :
    andThen (.error failure, e) next = (.error failure, e) := rfl

/-- The engine after a call, whether or not it failed. -/
def after (x : Call α) (env : Environment) (e : Engine) : Engine := (x.outcome env e).2

section Primitives

variable (env : Environment) (e : Engine)

@[simp] theorem outcome_pure (a : α) : (pure a : Call α).outcome env e = (.ok a, e) := rfl

@[simp] theorem outcome_bind (x : Call α) (f : α → Call β) :
    (x >>= f).outcome env e = andThen (x.outcome env e) fun a => (f a).outcome env := by
  simp only [outcome, bind, ReaderT.bind, ExceptT.bind, ExceptT.mk, ExceptT.bindCont,
    StateT.bind]
  rcases x env e with ⟨_ | _, _⟩ <;> rfl

@[simp] theorem outcome_map (f : α → β) (x : Call α) :
    (f <$> x).outcome env e = andThen (x.outcome env e) fun a e => (.ok (f a), e) := by
  rw [map_eq_pure_bind, outcome_bind]
  rfl

@[simp] theorem outcome_throw (failure : Failure) :
    (throw failure : Call α).outcome env e = (.error failure, e) := rfl

@[simp] theorem outcome_tryCatch (x : Call α) (handle : Failure → Call α) :
    (tryCatch x handle : Call α).outcome env e =
      match x.outcome env e with
      | (.ok a, e) => (.ok a, e)
      | (.error failure, e) => (handle failure).outcome env e := by
  simp only [outcome, tryCatch, tryCatchThe, MonadExceptOf.tryCatch, ExceptT.tryCatch,
    ExceptT.mk, bind, StateT.bind]
  rcases x env e with ⟨_ | _, _⟩ <;> rfl

@[simp] theorem outcome_ofExcept (r : Except Failure α) :
    (ofExcept r : Call α).outcome env e = (r, e) := by
  cases r <;> rfl

@[simp] theorem outcome_read : (read : Call Environment).outcome env e = (.ok env, e) := rfl

@[simp] theorem outcome_get : (get : Call Engine).outcome env e = (.ok e, e) := rfl

@[simp] theorem outcome_modify (f : Engine → Engine) :
    (modify f : Call Unit).outcome env e = (.ok (), f e) := rfl

@[simp] theorem outcome_store : store.outcome env e = (.ok e.store, e) := rfl

@[simp] theorem outcome_now : now.outcome env e = (.ok e.clock, e) := rfl

@[simp] theorem outcome_write (s : Store) :
    (write s).outcome env e = (.ok (), { e with store := s }) := rfl

@[simp] theorem outcome_freshId (kind : IdKind) :
    (freshId kind).outcome env e =
      (.ok (e.ids.next kind), { e with ids := e.ids.advance kind }) := rfl

@[simp] theorem outcome_orFail (failure : Failure) (a? : Option α) :
    (orFail failure a?).outcome env e = (a?.elim (.error failure) .ok, e) := by
  cases a? <;> rfl

@[simp] theorem outcome_requireTenant (tenant : Given) :
    (requireTenant tenant).outcome env e = (env.settings.checkTenant tenant, e) := by
  simp [requireTenant]

@[simp] theorem outcome_moveClock (setTo : Option Instant) (micros : Int) :
    (moveClock setTo micros).outcome env e =
      match (setTo.getD e.clock).add? micros with
      | some time => (.ok time, { e with clock := time })
      | none => (.error .outOfRange, e) := by
  cases h : (setTo.getD e.clock).add? micros <;> simp [moveClock, h]

/-- Nothing comes out of an attempt but the engine it leaves. -/
@[simp] theorem outcome_attempt (x : Call Unit) :
    (attempt x).outcome env e = (.ok (), x.after env e) := by
  rw [attempt, outcome_tryCatch, after]
  split <;> simp_all

/-- What a failed transaction has written is gone, and the identifiers it has used stay used. -/
theorem outcome_transaction (x : Call α) :
    (transaction x).outcome env e =
      match x.outcome env e with
      | (.ok a, e') => (.ok a, e')
      | (.error failure, e') => (.error failure, { e' with store := e.store }) := by
  rw [transaction, outcome_bind, outcome_store, andThen_ok, outcome_tryCatch]
  split <;> rfl

@[simp] theorem outcome_discard (x : Call α) :
    (discard x).outcome env e = andThen (x.outcome env e) fun _ e => (.ok (), e) := by
  rw [Functor.discard, LawfulFunctor.map_const]
  exact outcome_map env e _ x

end Primitives

theorem after_eq_of_outcome {x : Call α} {env : Environment} {e e' : Engine}
    {r : Except Failure α} (h : x.outcome env e = (r, e')) : x.after env e = e' := by
  rw [after, h]

@[simp] theorem after_discard (x : Call α) (env : Environment) (e : Engine) :
    (discard x : Call Unit).after env e = x.after env e := by
  rw [after, outcome_discard, after]
  rcases x.outcome env e with ⟨_ | _, _⟩ <;> rfl

/-! ### Inversion -/

theorem andThen_eq_ok_iff {r : Except Failure α × Engine}
    {next : α → Engine → Except Failure β × Engine} {b : β} {e' : Engine} :
    andThen r next = (.ok b, e') ↔ ∃ a e, r = (.ok a, e) ∧ next a e = (.ok b, e') := by
  rcases r with ⟨_ | a, e⟩
  · simp
  · constructor
    · intro h
      exact ⟨a, e, rfl, h⟩
    · rintro ⟨_, _, h, hn⟩
      cases h
      exact hn

end Entitlements.Call

namespace Entitlements

/-- The environment of a deployment that sets nothing and listens to no events. -/
def Environment.plain : Environment where
  settings := Settings.default
  features := FeatureTable.builtIn
  configured := .ok FeatureTable.builtIn
  sink := .none
  canInvalidate := true
  hasBundles := true
  isOvertaken := false

end Entitlements
