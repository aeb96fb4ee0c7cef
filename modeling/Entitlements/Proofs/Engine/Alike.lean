import Entitlements.Proofs.Engine.Reading

/-!
Two engines side by side. Rights are read from the tables, the clock and the identifiers; what is
cached, logged or waiting is in the margin, and most calls do not look there. To compare a call on
two engines that differ in their margins, following both runs at once is the wrong object: nearly
every step is the same on both sides. So there are two judgements, each with one rule for each way
in which calls are put together. `Mirrors` is for calls that never look at the margin: they do the
same beside any other one. `Alike` is for whole calls: given a relation between the cached bundles
of both sides, both runs end in the same way with the relation restored.
-/

namespace Entitlements

open Time

/-- What an engine holds besides the tables that rights are read from. -/
structure Margin where
  cache : List CacheRow
  audit : List AuditRow
  outbox : List Event

def Store.withMargin (s : Store) (m : Margin) : Store :=
  { s with cache := m.cache, audit := m.audit }

namespace Engine

def margin (e : Engine) : Margin := ⟨e.store.cache, e.store.audit, e.outbox⟩

def withMargin (e : Engine) (m : Margin) : Engine :=
  { e with store := e.store.withMargin m, outbox := m.outbox }

@[simp] theorem withMargin_margin (e : Engine) : e.withMargin e.margin = e := rfl

@[simp] theorem store_withMargin (e : Engine) (m : Margin) :
    (e.withMargin m).store = e.store.withMargin m := rfl

@[simp] theorem clock_withMargin (e : Engine) (m : Margin) : (e.withMargin m).clock = e.clock := rfl

end Engine

namespace Call

/-! ### Calls that do not look at the margin -/

/-- Does one call do beside another margin what the other call does? -/
structure Mirrors (m : Margin) (x y : Call α) : Prop where
  outcome : ∀ env e,
    y.outcome env (e.withMargin m) = ((x.outcome env e).1, (x.after env e).withMargin m)
  clock : ∀ env e, (x.after env e).clock = e.clock

/-- Does a call do the same beside every margin? -/
def Unaware (x : Call α) : Prop := ∀ m, Mirrors m x x

namespace Mirrors

variable {m : Margin} {x y : Call α}

theorem pure (a : α) : Mirrors m (pure a) (pure a) := ⟨fun _ _ => rfl, fun _ _ => rfl⟩

theorem throw (failure : Failure) : Mirrors m (throw failure : Call α) (throw failure) :=
  ⟨fun _ _ => rfl, fun _ _ => rfl⟩

theorem bind {f g : α → Call β} (hx : Mirrors m x y) (hf : ∀ a, Mirrors m (f a) (g a)) :
    Mirrors m (x >>= f) (y >>= g) where
  outcome env e := by
    have h := hx.outcome env e
    rw [outcome_bind, outcome_bind, h, after, after, outcome_bind]
    rcases x.outcome env e with ⟨failure | a, e₁⟩
    · rfl
    · exact (hf a).outcome env e₁
  clock env e := by
    have h := hx.clock env e
    rw [after] at h
    rw [after, outcome_bind]
    rcases hr : x.outcome env e with ⟨failure | a, e₁⟩
    · rw [hr] at h
      exact h
    · rw [hr] at h
      exact ((hf a).clock env e₁).trans h

/-- A read of the store sees the other margin, and the rest of the call has to put up with it. -/
theorem store_bind {f g : Store → Call β}
    (hf : ∀ s : Store, Mirrors m (f s) (g (s.withMargin m))) :
    Mirrors m (store >>= f) (store >>= g) where
  outcome env e := (hf e.store).outcome env e
  clock env e := (hf e.store).clock env e

theorem write (s : Store) : Mirrors m (write s) (write (s.withMargin m)) :=
  ⟨fun _ _ => rfl, fun _ _ => rfl⟩

/-- What the tables refuse beside one margin they refuse beside the other. -/
theorem orFail_bind (failure : Failure) (a? : Option α) (beside : α → β) {f : α → Call γ}
    {g : β → Call γ} (hf : ∀ a, Mirrors m (f a) (g (beside a))) :
    Mirrors m (orFail failure a? >>= f) (orFail failure (a?.map beside) >>= g) := by
  cases a? with
  | none => exact ⟨fun _ _ => rfl, fun _ _ => rfl⟩
  | some a => exact ⟨(hf a).outcome, (hf a).clock⟩

end Mirrors

namespace Unaware

variable {x : Call α}

/-- Nothing that is not looked at is changed. -/
theorem after_eq (h : Unaware x) (env : Environment) (e : Engine) :
    x.after env e = (x.after env e).withMargin e.margin := by
  have hself := (h e.margin).outcome env e
  rw [Engine.withMargin_margin] at hself
  exact congrArg Prod.snd hself

theorem bind {f : α → Call β} (hx : Unaware x) (hf : ∀ a, Unaware (f a)) : Unaware (x >>= f) :=
  fun m => (hx m).bind fun a => hf a m

theorem pure (a : α) : Unaware (pure a) := fun _ => .pure a

theorem throw (failure : Failure) : Unaware (throw failure : Call α) := fun _ => .throw failure

theorem read : Unaware read := fun _ => ⟨fun _ _ => rfl, fun _ _ => rfl⟩

theorem now : Unaware now := fun _ => ⟨fun _ _ => rfl, fun _ _ => rfl⟩

theorem freshId (kind : IdKind) : Unaware (freshId kind) :=
  fun _ => ⟨fun _ _ => rfl, fun _ _ => rfl⟩

theorem ofExcept (r : Except Failure α) : Unaware (ofExcept r) := by
  cases r with
  | error failure => exact throw failure
  | ok a => exact pure a

theorem orFail (failure : Failure) (a? : Option α) : Unaware (orFail failure a?) := by
  cases a? with
  | none => exact throw failure
  | some a => exact pure a

theorem mapM {f : α → Call β} (a? : Option α) (hf : ∀ a, Unaware (f a)) :
    Unaware (a?.mapM f) := by
  cases a? with
  | none => exact pure none
  | some a =>
    rw [Option.mapM_some]
    exact (hf a).bind fun b => pure (some b)

theorem list_mapM {f : α → Call β} (hf : ∀ a, Unaware (f a)) (as : List α) :
    Unaware (as.mapM f) := by
  induction as with
  | nil => exact pure []
  | cons a as ih =>
    rw [List.mapM_cons]
    exact (hf a).bind fun b => ih.bind fun bs => pure (b :: bs)

theorem requireTenant (tenant : Given) : Unaware (requireTenant tenant) :=
  read.bind fun _ => ofExcept _

end Unaware

/-! ### Calls beside related margins -/

/-- Are these the ends of two runs that went alike? Both failed for one reason, or both have an
answer and the answers belong together; and the cached bundles are related as before. -/
inductive Matched (R : Instant → List CacheRow → List CacheRow → Prop) (Q : α → β → Prop) :
    Except Failure α × Engine → Except Failure β × Engine → Prop
  | ok {a : α} {b : β} {e : Engine} {m : Margin} :
    Q a b → R e.clock e.store.cache m.cache → Matched R Q (.ok a, e) (.ok b, e.withMargin m)
  | error {failure : Failure} {e : Engine} {m : Margin} :
    R e.clock e.store.cache m.cache →
      Matched R Q (.error failure, e) (.error failure, e.withMargin m)

namespace Matched

variable {R : Instant → List CacheRow → List CacheRow → Prop} {P : α → β → Prop}
  {l : Except Failure α × Engine} {r : Except Failure β × Engine}

theorem mono {Q : α → β → Prop} (h : Matched R P l r) (hPQ : ∀ a b, P a b → Q a b) :
    Matched R Q l r := by
  cases h with
  | ok hab hR => exact .ok (hPQ _ _ hab) hR
  | error hR => exact .error hR

theorem andThen {Q : γ → δ → Prop} {f : α → Engine → Except Failure γ × Engine}
    {g : β → Engine → Except Failure δ × Engine} (h : Matched R P l r)
    (hf : ∀ a b e m, P a b → R e.clock e.store.cache m.cache →
      Matched R Q (f a e) (g b (e.withMargin m))) :
    Matched R Q (Call.andThen l f) (Call.andThen r g) := by
  cases h with
  | ok hab hR => exact hf _ _ _ _ hab hR
  | error hR => exact .error hR

/-- Of two runs that went alike, the engines alone. -/
theorem engines (h : Matched R P l r) :
    ∃ m, r.2 = l.2.withMargin m ∧ R l.2.clock l.2.store.cache m.cache := by
  cases h with
  | ok _ hR => exact ⟨_, rfl, hR⟩
  | error hR => exact ⟨_, rfl, hR⟩

/-- Of two runs that went alike with equal answers, the answers alone. -/
theorem answers {r : Except Failure α × Engine} (h : Matched R Eq l r) : l.1 = r.1 := by
  cases h with
  | ok hab _ => exact congrArg Except.ok hab
  | error _ => rfl

end Matched

/-- Do two calls go alike on engines that differ in their margins? -/
def Alike (R : Instant → List CacheRow → List CacheRow → Prop) (Q : α → β → Prop) (x : Call α)
    (y : Call β) : Prop :=
  ∀ env e m, R e.clock e.store.cache m.cache →
    Matched R Q (x.outcome env e) (y.outcome env (e.withMargin m))

namespace Alike

variable {R : Instant → List CacheRow → List CacheRow → Prop} {P Q : α → β → Prop}
  {x : Call α} {y : Call β}

theorem of_unaware {x : Call α} (hx : Unaware x) : Alike R Eq x x := by
  intro env e m hR
  have hcache : (x.after env e).store.cache = e.store.cache :=
    congrArg (·.store.cache) (hx.after_eq env e)
  have hafter : R (x.after env e).clock (x.after env e).store.cache m.cache := by
    rw [(hx m).clock, hcache]
    exact hR
  rw [(hx m).outcome]
  rw [after] at hafter ⊢
  rcases hr : x.outcome env e with ⟨failure | a, e'⟩
  · rw [hr] at hafter
    exact .error hafter
  · rw [hr] at hafter
    exact .ok rfl hafter

theorem pure {a : α} {b : β} (h : Q a b) : Alike R Q (pure a) (pure b) :=
  fun _ _ _ hR => .ok h hR

theorem throw (failure : Failure) :
    Alike R Q (throw failure : Call α) (throw failure : Call β) :=
  fun _ _ _ hR => .error hR

theorem mono (h : Alike R P x y) (hPQ : ∀ a b, P a b → Q a b) : Alike R Q x y :=
  fun env e m hR => (h env e m hR).mono hPQ

theorem bind {Q : γ → δ → Prop} {f : α → Call γ} {g : β → Call δ} (hx : Alike R P x y)
    (hf : ∀ a b, P a b → Alike R Q (f a) (g b)) : Alike R Q (x >>= f) (y >>= g) := by
  intro env e m hR
  rw [outcome_bind, outcome_bind]
  exact (hx env e m hR).andThen fun a b e m hab hR => hf a b hab env e m hR

/-- Over a step that goes the same way on both sides. -/
theorem after_unaware {Q : γ → δ → Prop} {x : Call α} {f : α → Call γ} {g : α → Call δ}
    (hx : Unaware x) (hf : ∀ a, Alike R Q (f a) (g a)) : Alike R Q (x >>= f) (x >>= g) := by
  refine (of_unaware hx).bind fun a b hab => ?_
  rw [hab]
  exact hf b

/-- Over a check that both sides make. -/
theorem ite {c : Prop} [Decidable c] {x' : Call α} {y' : Call β} (h : Alike R Q x y)
    (h' : Alike R Q x' y') : Alike R Q (if c then x else x') (if c then y else y') := by
  split
  · exact h
  · exact h'

/-- Over a choice between two steps before the rest. -/
theorem after_choice {Q : γ → δ → Prop} {c : Prop} [Decidable c] {x x' : Call α}
    {f : α → Call γ} {g : α → Call δ} (hx : Unaware x) (hx' : Unaware x')
    (hf : ∀ a, Alike R Q (f a) (g a)) :
    Alike R Q (if c then x >>= f else x' >>= f) (if c then x >>= g else x' >>= g) :=
  .ite (.after_unaware hx hf) (.after_unaware hx' hf)

/-- What an attempt comes to shows in the engine only. -/
theorem attempt {Q : Unit → Unit → Prop} {x y : Call Unit} (h : Alike R Q x y) :
    Alike R Eq (attempt x) (attempt y) := by
  intro env e m hR
  obtain ⟨m', hm', hR'⟩ := (h env e m hR).engines
  rw [outcome_attempt, outcome_attempt, after, after, hm']
  exact .ok rfl hR'

theorem discard (h : Alike R Q x y) : Alike R Eq (discard x) (discard y) := by
  intro env e m hR
  rw [outcome_discard, outcome_discard]
  exact (h env e m hR).andThen fun _ _ _ _ _ hR => .ok rfl hR

end Alike

end Call

end Entitlements
