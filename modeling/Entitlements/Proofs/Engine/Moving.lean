import Entitlements.Proofs.Engine.Alike
import Mathlib.Order.Defs.Unbundled

/-!
What calls do to an engine, as steps of a relation. Many properties of runs compare the engine after
a call with the one before it, by a relation that is reflexive and transitive: something only grows,
something is kept. `Moves` says of a call that it is such a step, however it ends. There is one rule
for each way in which calls are put together, and none of them depends on the relation, except that
a transaction has to be able to go back: its relation must survive that the store is restored.
-/

namespace Entitlements.Call

/-- Does a call, however it ends, take an engine to one that is related to it? -/
def Moves (R : Engine → Engine → Prop) (env : Environment) (x : Call α) : Prop :=
  ∀ e, R e (x.after env e)

namespace Moves

variable {R : Engine → Engine → Prop} {env : Environment} {x : Call α}

theorem attempt {x : Call Unit} (hx : Moves R env x) : Moves R env (attempt x) := by
  intro e
  rw [after_eq_of_outcome (outcome_attempt env e x)]
  exact hx e

theorem discard (hx : Moves R env x) : Moves R env (discard x) := by
  intro e
  rw [after_discard]
  exact hx e

theorem map {f : α → β} (hx : Moves R env x) : Moves R env (f <$> x) := by
  intro e
  rw [map_eq_pure_bind, after_bind_pure]
  exact hx e

theorem ite {c : Prop} [Decidable c] {y : Call α} (hx : Moves R env x) (hy : Moves R env y) :
    Moves R env (if c then x else y) := by
  split
  · exact hx
  · exact hy

/-- The environment is the one that the call is made in. -/
theorem read_bind {f : Environment → Call β} (hf : Moves R env (f env)) :
    Moves R env (read >>= f) := hf

theorem withReader {f : Environment → Environment} (hx : Moves R (f env) x) :
    Moves R env (withReader f x : Call α) := hx

variable [IsPreorder Engine R]

/-- A call that only looks. -/
theorem of_look {answer : Engine → Except Failure α} (hx : ∀ e, x.outcome env e = (answer e, e)) :
    Moves R env x := by
  intro e
  rw [after_eq_of_outcome (hx e)]
  exact refl e

theorem pure (a : α) : Moves R env (pure a) := of_look (outcome_pure env · a)

theorem throw (failure : Failure) : Moves R env (throw failure : Call α) :=
  of_look (outcome_throw env · failure)

theorem now : Moves R env now := of_look (outcome_now env)

theorem store : Moves R env store := of_look (outcome_store env)

theorem ofExcept (r : Except Failure α) : Moves R env (ofExcept r) :=
  of_look (outcome_ofExcept env · r)

theorem orFail (failure : Failure) (a? : Option α) : Moves R env (orFail failure a?) :=
  of_look (outcome_orFail env · failure a?)

theorem requireTenant (tenant : Given) : Moves R env (requireTenant tenant) :=
  of_look (outcome_requireTenant env · tenant)

theorem window (offset limit : Option Int) (rows : List α) :
    Moves R env (window offset limit rows) := .ite (pure _) (throw _)

theorem bind {f : α → Call β} (hx : Moves R env x) (hf : ∀ a, Moves R env (f a)) :
    Moves R env (x >>= f) := fun e =>
  after_bind_of_after (P := R e) (hx e) fun a e' h => IsTrans.trans _ _ _ h (hf a e')

/-- A check that refuses. -/
theorem guard {c : Prop} [Decidable c] {failure : Failure} {f : Unit → Call α}
    (hx : Moves R env x) : Moves R env (if c then MonadExcept.throw failure >>= f else x) :=
  .ite (of_look fun _ => rfl) hx

/-- A choice between two steps before the rest. -/
theorem after_choice {c : Prop} [Decidable c] {y : Call α} {f : α → Call β}
    (hx : Moves R env x) (hy : Moves R env y) (hf : ∀ a, Moves R env (f a)) :
    Moves R env (if c then x >>= f else y >>= f) := .ite (hx.bind hf) (hy.bind hf)

theorem tryCatch {handle : Failure → Call α} (hx : Moves R env x)
    (hh : ∀ failure, Moves R env (handle failure)) : Moves R env (tryCatch x handle) := by
  intro e
  have hmoves := hx e
  rw [after] at hmoves
  rw [after, outcome_tryCatch]
  rcases hr : x.outcome env e with ⟨failure | a, e'⟩
  · rw [hr] at hmoves
    exact IsTrans.trans _ _ _ hmoves (hh failure e')
  · rw [hr] at hmoves
    exact hmoves

theorem list_mapM {f : α → Call β} (hf : ∀ a, Moves R env (f a)) (as : List α) :
    Moves R env (as.mapM f) := by
  induction as with
  | nil => exact pure []
  | cons a as ih =>
    rw [List.mapM_cons]
    exact (hf a).bind fun b => ih.bind fun bs => pure (b :: bs)

omit [IsPreorder Engine R] in
/-- A transaction that fails leaves what the call has left, but for the store. -/
theorem transaction (hrestored : ∀ e e', R e e' → R e { e' with store := e.store })
    (hx : Moves R env x) : Moves R env (transaction x) := by
  intro e
  have hmoves := hx e
  rw [after] at hmoves
  rw [after, outcome_transaction]
  rcases hr : x.outcome env e with ⟨failure | a, e'⟩
  · rw [hr] at hmoves
    exact hrestored e e' hmoves
  · rw [hr] at hmoves
    exact hmoves

end Moves

end Entitlements.Call
