import Entitlements.Proofs.Evaluation.Decision
import Entitlements.Proofs.Permission.PatternOrder
import Mathlib.Data.List.Forall2

/-!
What a redundant pattern does, which is nothing. A list matches what lies below one of its patterns
in the order of matching, so a pattern below another one of its list brings nothing of its own. It
may be added or left out, and every evaluation gives the answer that it gave before: the same access
for the same reason, with the same role and policy named.

The argument compares two stores row by row. Where the policies of corresponding rows match the
same permissions, corresponding grants do, and then both searches through the grants of one store
stop where they stop in those of the other.
-/

namespace Entitlements

open Time Call

/-! ### Lists of patterns -/

theorem Pattern.anyMatch_insert {before after : List String} {pattern : String}
    (h : ∃ kept ∈ before ++ after, isMatch pattern kept = true) (permission : Given) :
    anyMatch permission (before ++ pattern :: after) = anyMatch permission (before ++ after) := by
  rw [Bool.eq_iff_iff, anyMatch, anyMatch, List.any_eq_true, List.any_eq_true]
  constructor
  · rintro ⟨p, hp, hm⟩
    rcases List.mem_append.1 hp with hp | hp
    · exact ⟨p, List.mem_append_left _ hp, hm⟩
    · rcases List.mem_cons.1 hp with rfl | hp
      · obtain ⟨kept, hkept, hwider⟩ := h
        exact ⟨kept, hkept, isMatchGiven_trans hm hwider⟩
      · exact ⟨p, List.mem_append_right _ hp, hm⟩
  · rintro ⟨p, hp, hm⟩
    refine ⟨p, ?_, hm⟩
    rcases List.mem_append.1 hp with hp | hp
    · exact List.mem_append_left _ hp
    · exact List.mem_append_right _ (List.mem_cons_of_mem _ hp)

/-! ### Searching alike -/

/-- Two searches that cannot tell corresponding members apart stop at corresponding members. -/
theorem rel_find? {R : α → β → Prop} {found : α → Bool} {found' : β → Bool} {xs : List α}
    {ys : List β} (h : List.Forall₂ R xs ys) (hfound : ∀ x y, R x y → found x = found' y) :
    Option.Rel R (xs.find? found) (ys.find? found') := by
  induction h with
  | nil => exact .none
  | @cons x y xs ys hxy _ ih =>
    rw [List.find?_cons, List.find?_cons, hfound x y hxy]
    cases found' y with
    | false => exact ih
    | true => exact .some hxy

theorem rel_map? {R : α → β → Prop} {S : γ → δ → Prop} {f : α → γ} {g : β → δ} {x : Option α}
    {y : Option β} (h : Option.Rel R x y) (hfg : ∀ a b, R a b → S (f a) (g b)) :
    Option.Rel S (x.map f) (y.map g) := by
  cases h with
  | none => exact .none
  | some hab => exact .some (hfg _ _ hab)

/-- Do two policies of one key allow and deny the same permissions? -/
structure Policy.MatchesAs (p p' : Policy) : Prop where
  key : p.key = p'.key
  allow : ∀ permission,
    Pattern.anyMatch permission p.allow = Pattern.anyMatch permission p'.allow
  deny : ∀ permission, Pattern.anyMatch permission p.deny = Pattern.anyMatch permission p'.deny

structure Grant.DecidesAs (g g' : Grant) : Prop where
  role : g.role = g'.role
  policy : g.policy.MatchesAs g'.policy

theorem Verdict.ofGrants_congr {grants others : List Grant}
    (h : List.Forall₂ Grant.DecidesAs grants others) (permission : Given) :
    ofGrants grants permission = ofGrants others permission := by
  have hdenied : Option.Rel Grant.DecidesAs (grants.find? (·.denies permission))
      (others.find? (·.denies permission)) :=
    rel_find? h fun _ _ hg => hg.policy.deny permission
  have hallowed : Option.Rel Grant.DecidesAs (grants.find? (·.allows permission))
      (others.find? (·.allows permission)) :=
    rel_find? h fun _ _ hg => hg.policy.allow permission
  unfold ofGrants
  generalize grants.find? (·.denies permission) = d, others.find? (·.denies permission) = d',
    grants.find? (·.allows permission) = a, others.find? (·.allows permission) = a' at *
  cases hdenied with
  | some hg => simp only [hg.role, hg.policy.key]
  | none =>
    cases hallowed with
    | some hg => simp only [hg.role, hg.policy.key]
    | none => rfl

/-! ### Stores with policies that match alike -/

structure PolicyRow.MatchesAs (r r' : PolicyRow) : Prop where
  tenant : r.tenant = r'.tenant
  policy : r.policy.MatchesAs r'.policy

theorem PolicyRow.MatchesAs.refl (r : PolicyRow) : r.MatchesAs r :=
  ⟨rfl, rfl, fun _ => rfl, fun _ => rfl⟩

/-- Are two stores the same as far as rights go, except that lists may be written differently? -/
structure Store.DecidesAs (s s' : Store) : Prop where
  assignments : s.assignments = s'.assignments
  roles : s.roles = s'.roles
  policies : List.Forall₂ PolicyRow.MatchesAs s.policies s'.policies

namespace Store.DecidesAs

variable {s s' : Store} {tenant user scope permission : Given} {now : Instant}

theorem policy? (h : s.DecidesAs s') (tenant key : Given) :
    Option.Rel Policy.MatchesAs (s.policy? tenant key) (s'.policy? tenant key) := by
  refine rel_map? (R := PolicyRow.MatchesAs) (rel_find? h.policies fun r r' hr => ?_)
    fun r r' hr => ⟨hr.policy.key, hr.policy.allow, hr.policy.deny⟩
  rw [hr.tenant, hr.policy.key]

theorem grantsOf (h : s.DecidesAs s') (tenant : Given) (a : AssignmentRow) :
    List.Forall₂ Grant.DecidesAs (s.grantsOf tenant a) (s'.grantsOf tenant a) := by
  have hrole : s.role? tenant (some a.roleKey) = s'.role? tenant (some a.roleKey) := by
    rw [role?, role?, roleRow?, roleRow?, h.roles]
  rw [Store.grantsOf, Store.grantsOf, hrole]
  cases s'.role? tenant (some a.roleKey) with
  | none => exact .nil
  | some role =>
    refine List.rel_filterMap (R := Eq) ?_ (List.forall₂_refl role.policyKeys)
    rintro key _ rfl
    exact rel_map? (h.policy? tenant (some key)) fun p p' hp => ⟨rfl, hp⟩

theorem liveAssignmentsOf (h : s.DecidesAs s') :
    s.liveAssignmentsOf tenant user now = s'.liveAssignmentsOf tenant user now := by
  rw [Store.liveAssignmentsOf, Store.liveAssignmentsOf, assignmentsOf, assignmentsOf,
    h.assignments]

theorem grantsAt (h : s.DecidesAs s') :
    List.Forall₂ Grant.DecidesAs (s.grantsAt tenant user scope now)
      (s'.grantsAt tenant user scope now) := by
  rw [Store.grantsAt, Store.grantsAt, grantsWhere, grantsWhere, h.liveAssignmentsOf]
  refine List.rel_flatMap (R := Eq) (List.forall₂_refl _) ?_
  rintro a _ rfl
  exact h.grantsOf tenant a

theorem verdict_eq (h : s.DecidesAs s') :
    s.verdict tenant user permission scope now = s'.verdict tenant user permission scope now := by
  rw [verdict, verdict, h.liveAssignmentsOf, Verdict.ofGrants_congr h.grantsAt]

end Store.DecidesAs

/-! ### Editing one list -/

/-- Which of the two lists of a policy. -/
inductive PatternList where
  | allow
  | deny

/-- The row with one of its lists replaced. -/
def PolicyRow.withPatterns (r : PolicyRow) (patterns : List String) : PatternList → PolicyRow
  | .allow => { r with policy := { r.policy with allow := patterns } }
  | .deny => { r with policy := { r.policy with deny := patterns } }

def Engine.withPolicies (e : Engine) (rows : List PolicyRow) : Engine :=
  { e with store := { e.store with policies := rows } }

theorem PolicyRow.matchesAs_withPatterns (r : PolicyRow) (which : PatternList)
    {patterns others : List String}
    (h : ∀ permission, Pattern.anyMatch permission patterns = Pattern.anyMatch permission others) :
    (r.withPatterns patterns which).MatchesAs (r.withPatterns others which) := by
  cases which with
  | allow => exact ⟨rfl, rfl, h, fun _ => rfl⟩
  | deny => exact ⟨rfl, rfl, fun _ => rfl, h⟩

/-- Exchanging one row for another that matches alike changes no decision. -/
theorem Engine.decidesAs_of_row (e : Engine) (rows rows' : List PolicyRow) {r r' : PolicyRow}
    (h : r.MatchesAs r') :
    (e.withPolicies (rows ++ r :: rows')).store.DecidesAs
      (e.withPolicies (rows ++ r' :: rows')).store where
  assignments := rfl
  roles := rfl
  policies := List.rel_append (List.forall₂_same.2 fun q _ => .refl q)
    (.cons h (List.forall₂_same.2 fun q _ => .refl q))

/-- Matching is a partial order on all texts with the universal pattern on top. Hence, whatever an
engine holds, a policy with a pattern in one of its lists that another one of the list matches
decides as the policy without it: adding the one, or leaving it out, changes no answer. -/
theorem Evaluation.redundant_patterns_are_harmless :
    (∀ p, Pattern.isMatch p p = true) ∧
    (∀ p q r, Pattern.isMatch p q = true → Pattern.isMatch q r = true →
      Pattern.isMatch p r = true) ∧
    (∀ p q, Pattern.isMatch p q = true → Pattern.isMatch q p = true → p = q) ∧
    (∀ p, Pattern.isMatch p Pattern.universal = true) ∧
    ∀ (env : Environment) (e : Engine) (rows rows' : List PolicyRow) (r : PolicyRow)
      (which : PatternList) (before after : List String) (pattern : String),
      (∃ kept ∈ before ++ after, Pattern.isMatch pattern kept = true) →
      ∀ plus without : Engine,
        plus = e.withPolicies (rows ++ r.withPatterns (before ++ pattern :: after) which :: rows') →
        without = e.withPolicies (rows ++ r.withPatterns (before ++ after) which :: rows') →
        ∀ tenant user permission scope : Given, env.settings.checkTenant tenant = .ok () →
          ∃ d : Decision,
            (evaluate tenant user permission scope).outcome env plus = (.ok d, plus) ∧
            (evaluate tenant user permission scope).outcome env without = (.ok d, without) := by
  refine ⟨Pattern.isMatch_self, fun _ _ _ => Pattern.isMatch_trans,
    fun _ _ => Pattern.isMatch_antisymm, Pattern.isMatch_universal, ?_⟩
  rintro env e rows rows' r which before after pattern hkept _ _ rfl rfl tenant user permission
    scope ht
  have halike := e.decidesAs_of_row rows rows'
    (r.matchesAs_withPatterns which (Pattern.anyMatch_insert hkept))
  refine ⟨_, outcome_evaluate_of_checked ht user permission scope _, ?_⟩
  rw [outcome_evaluate_of_checked ht, halike.verdict_eq]
  rfl

/-- The lockdown with a second pattern in its deny list, which the first one makes redundant. -/
def Engine.lockedDownTwice : Engine :=
  { Engine.start ⟨0⟩ false with store := Store.opposed }.withPolicies [
    ⟨"acme", .plain "exports" ["reports.export.execute"] [], none, none, ⟨0⟩⟩,
    ⟨"acme", .plain "lockdown" [] ["reports.*.*", "reports.export.*"], none, none, ⟨0⟩⟩]

theorem Evaluation.narrower_pattern_changes_nothing :
    (∃ kept ∈ ["reports.*.*"] ++ [], Pattern.isMatch "reports.export.*" kept = true) ∧
      Environment.plain.settings.checkTenant (some "acme") = .ok () ∧
      ∃ d : Decision, d.verdict.isAllowed = false ∧
        (evaluate (some "acme") (some "alice") (some "reports.export.execute")
            (some "customer:7")).outcome Environment.plain Engine.lockedDownTwice =
          (.ok d, Engine.lockedDownTwice) ∧
        (evaluate (some "acme") (some "alice") (some "reports.export.execute")
            (some "customer:7")).outcome Environment.plain
            { Engine.start ⟨0⟩ false with store := Store.opposed } =
          (.ok d, { Engine.start ⟨0⟩ false with store := Store.opposed }) := by
  have hkept : ∃ kept ∈ ["reports.*.*"] ++ [], Pattern.isMatch "reports.export.*" kept = true :=
    ⟨"reports.*.*", List.mem_singleton_self _, by decide⟩
  have ht : Environment.plain.settings.checkTenant (some "acme") = .ok () := rfl
  obtain ⟨d, hplus, hwithout⟩ := redundant_patterns_are_harmless.2.2.2.2 Environment.plain
    { Engine.start ⟨0⟩ false with store := Store.opposed }
    [⟨"acme", .plain "exports" ["reports.export.execute"] [], none, none, ⟨0⟩⟩] []
    ⟨"acme", .plain "lockdown" [] [], none, none, ⟨0⟩⟩ .deny ["reports.*.*"] []
    "reports.export.*" hkept Engine.lockedDownTwice
    { Engine.start ⟨0⟩ false with store := Store.opposed } rfl rfl (some "acme") (some "alice")
    (some "reports.export.execute") (some "customer:7") ht
  refine ⟨hkept, ht, d, ?_, hplus, hwithout⟩
  rw [outcome_evaluate_of_checked ht] at hwithout
  obtain rfl := Except.ok.inj (congrArg Prod.fst hwithout)
  rw [← Bool.not_eq_true, Store.isAllowed_verdict_iff]
  exact fun h => h.1 (Store.opposed_denies ⟨0⟩)

end Entitlements
