import Entitlements.Proofs.Administration.Integrity

/-!
Records of the platform. Saving under a key that is taken changes the row in its place, so what
keeps a record of the platform as it is are guards alone, one in each call that changes or deletes.
They are enough: whatever else is written, a search by a key finds a record of the platform as it
was, and no write that changes a row touches its mark or its identifier. The policies that a role
lists are kept by another guard, which lets no policy go that is in use.

None of this goes by the time, so the clock may be moved about at will.
-/

namespace Entitlements

open Time Call

/-! ### Searches -/

/-- What a search finds after a write, against what it found before: a record of the platform is
found as it was, and any other, if it is still found, has its identifier and its mark. -/
structure Table.Preserves (id : ρ → String) (isSystem : ρ → Bool) (before after : Option ρ) :
    Prop where
  system : ∀ r, before = some r → isSystem r = true → after = some r
  mark : ∀ r q, before = some r → after = some q → id q = id r ∧ isSystem q = isSystem r

namespace Table.Preserves

variable {id : ρ → String} {isSystem : ρ → Bool} {before after : Option ρ} {p : ρ → Bool}
  {rows : List ρ}

theorem of_eq (h : after = before) : Preserves id isSystem before after where
  system r hr _ := h.trans hr
  mark r q hr hq := by
    rw [h, hr] at hq
    cases hq
    exact ⟨rfl, rfl⟩

theorem append (row : ρ) :
    Preserves id isSystem (rows.find? p) ((rows ++ [row]).find? p) := by
  cases hfound : rows.find? p with
  | none => exact ⟨nofun, nofun⟩
  | some r =>
    refine of_eq ?_
    rw [find?_append_of_isSome [row] (by rw [hfound]; rfl), hfound]

/-- A row that is not of the platform may be replaced by one with its identifier and its mark. -/
theorem replace [DecidableEq ρ] {x y : ρ} (hp : p y = p x) (hid : id y = id x)
    (hopen : isSystem x = false) (hmark : isSystem y = isSystem x) :
    Preserves id isSystem (rows.find? p)
      ((rows.map fun q => if q = x then y else q).find? p) := by
  rw [find?_replace hp]
  constructor
  case system =>
    intro r hr hsystem
    have hne : r ≠ x := by
      rintro rfl
      rw [hopen] at hsystem
      cases hsystem
    rw [hr, Option.map_some, if_neg hne]
  case mark =>
    intro r q hr hq
    rw [hr, Option.map_some] at hq
    cases hq
    split
    · next hx =>
      rw [hx]
      exact ⟨hid, hmark⟩
    · exact ⟨rfl, rfl⟩

/-- What is not of the platform may go. -/
theorem gone (hopen : ∀ r, before = some r → isSystem r = false) :
    Preserves id isSystem before none where
  system r hr hsystem := by
    rw [hopen r hr] at hsystem
    cases hsystem
  mark _ _ _ hq := nomatch hq

end Table.Preserves

open Table (Preserves)

/-! ### Stores -/

namespace Store

/-- Does a change of the tables keep the records of the platform, the identity of all records, and
the policies that roles list? -/
structure PreservesRecords (s s' : Store) : Prop where
  policies : ∀ tenant key, Preserves (·.policy.id) (·.policy.isSystem)
    (s.policyRow? tenant key) (s'.policyRow? tenant key)
  roles : ∀ tenant key, Preserves (·.role.id) (·.role.isSystem)
    (s.roleRow? tenant key) (s'.roleRow? tenant key)
  listed : ∀ r ∈ s.roles, ∀ key ∈ r.role.policyKeys,
    (s.policyRow? (some r.tenant) (some key)).isSome = true →
      (s'.policyRow? (some r.tenant) (some key)).isSome = true

/-- Is every policy there that a role lists? -/
def ListsFound (s : Store) : Prop :=
  ∀ r ∈ s.roles, ∀ key ∈ r.role.policyKeys,
    (s.policyRow? (some r.tenant) (some key)).isSome = true

variable {s s' : Store} {tenant actor : Given} {now : Instant}

theorem PreservesRecords.of_tables (hp : s'.policies = s.policies) (hr : s'.roles = s.roles) :
    s.PreservesRecords s' where
  policies tenant key := .of_eq (by rw [policyRow?, hp, policyRow?])
  roles tenant key := .of_eq (by rw [roleRow?, hr, roleRow?])
  listed r _ key _ hfound := by rwa [policyRow?, hp]

/-- As long as no role lists other policies than before, listed policies stay found. -/
theorem ListsFound.of_roles (h : s.ListsFound) (hkept : s.PreservesRecords s')
    (hroles : ∀ r ∈ s'.roles, r ∈ s.roles) : s'.ListsFound :=
  fun r hr key hkey => hkept.listed r (hroles r hr) key hkey (h r (hroles r hr) key hkey)

theorem ListsFound.of_accepts (h : s.ListsFound) {keys : List String}
    (ha : s.AcceptsKeys tenant keys) :
    ∀ key ∈ keys, (s.policyRow? tenant (some key)).isSome = true := by
  rcases ha with ⟨-, hfound⟩ | ⟨r, hr, rfl, rfl⟩
  · exact hfound
  · exact h r hr

/-! ### Writes -/

theorem of_policyUpdated? {r row : PolicyRow} {d : PolicyDraft}
    (h : r.updated? d actor now = some row) :
    row.tenant = r.tenant ∧ row.policy.key = r.policy.key ∧ row.policy.id = r.policy.id ∧
      row.policy.isSystem = r.policy.isSystem := by
  simp only [PolicyRow.updated?, Option.bind_eq_bind, Option.bind_eq_some_iff] at h
  obtain ⟨_, -, h⟩ := h
  cases h
  exact ⟨rfl, rfl, rfl, rfl⟩

theorem of_roleUpdated? {r row : RoleRow} {d : RoleDraft}
    (h : r.updated? d actor now = some row) :
    row.tenant = r.tenant ∧ row.role.key = r.role.key ∧ row.role.id = r.role.id ∧
      row.role.isSystem = r.role.isSystem := by
  simp only [RoleRow.updated?, Option.bind_eq_bind, Option.bind_eq_some_iff] at h
  obtain ⟨_, -, h⟩ := h
  cases h
  exact ⟨rfl, rfl, rfl, rfl⟩

theorem preservesRecords_addPolicy (row : PolicyRow) :
    s.PreservesRecords { s with policies := s.policies ++ [row] } where
  policies _ _ := .append row
  roles _ _ := .of_eq rfl
  listed r _ key _ hfound := by rwa [policyRow?_append row hfound]

theorem preservesRecords_updatePolicy? {r : PolicyRow} {d : PolicyDraft} {policy : Policy}
    (hopen : r.policy.isSystem = false)
    (h : s.updatePolicy? r d actor now = some (s', policy)) : s.PreservesRecords s' := by
  simp only [updatePolicy?, Option.bind_eq_bind, Option.bind_eq_some_iff] at h
  obtain ⟨row, hrow, h⟩ := h
  cases h
  obtain ⟨htenant, hkey, hid, hmark⟩ := of_policyUpdated? hrow
  refine ⟨fun tenant key => ?_, fun _ _ => .of_eq rfl, fun q _ key _ hfound => ?_⟩
  · exact .replace (by rw [htenant, hkey]) hid hopen hmark
  · rw [policyRow?, isSome_find?_replace (by rw [htenant, hkey])]
    exact hfound

theorem preservesRecords_removePolicy {key : Given} (hopen : s.LeavesPolicyOpen tenant key)
    (hfree : s.rolesUsing tenant key = []) : s.PreservesRecords (s.removePolicy tenant key) where
  policies t k := by
    by_cases hother : t ≠ tenant ∨ k ≠ key
    · exact .of_eq (policyRow?_remove hother)
    · obtain ⟨rfl, rfl⟩ : t = tenant ∧ k = key := by
        simpa only [not_or, Decidable.not_not] using hother
      have hnone : (s.removePolicy t k).policyRow? t k = none := find?_filter_not _ _
      rw [hnone]
      exact .gone hopen
  roles _ _ := .of_eq rfl
  listed r hr k hk hfound := by rwa [policyRow?_remove (ne_of_listed hfree hr hk)]

theorem preservesRecords_addRole (row : RoleRow) :
    s.PreservesRecords { s with roles := s.roles ++ [row] } where
  policies _ _ := .of_eq rfl
  roles _ _ := .append row
  listed _ _ _ _ hfound := hfound

theorem preservesRecords_updateRole? {r : RoleRow} {d : RoleDraft} {role : Role}
    (hopen : r.role.isSystem = false)
    (h : s.updateRole? r d actor now = some (s', role)) : s.PreservesRecords s' := by
  simp only [updateRole?, Option.bind_eq_bind, Option.bind_eq_some_iff] at h
  obtain ⟨row, hrow, h⟩ := h
  cases h
  obtain ⟨htenant, hkey, hid, hmark⟩ := of_roleUpdated? hrow
  refine ⟨fun _ _ => .of_eq rfl, fun tenant key => ?_, fun _ _ _ _ hfound => hfound⟩
  exact .replace (by rw [htenant, hkey]) hid hopen hmark

theorem preservesRecords_removeRole {key : Given} (hopen : s.LeavesRoleOpen tenant key) :
    s.PreservesRecords (s.removeRole tenant key) where
  policies _ _ := .of_eq rfl
  roles t k := by
    by_cases hother : t ≠ tenant ∨ k ≠ key
    · exact .of_eq (roleRow?_remove hother)
    · obtain ⟨rfl, rfl⟩ : t = tenant ∧ k = key := by
        simpa only [not_or, Decidable.not_not] using hother
      have hnone : (s.removeRole t k).roleRow? t k = none := find?_filter_not _ _
      rw [hnone]
      exact .gone hopen
  listed _ _ _ _ hfound := hfound

end Store

/-! ### Calls -/

namespace Engine

variable {passes : Instant → Prop} {e e' : Engine}

theorem Effect.preservesRecords (h : Effect passes e e') : e.store.PreservesRecords e'.store := by
  cases h with
  | registers hp hr _ => exact .of_tables hp hr
  | spends kind => exact .of_tables rfl rfl
  | addsPolicy _ _ hins =>
    obtain ⟨row, -, -, -, rfl⟩ := Store.insertPolicy?_eq_some hins
    exact Store.preservesRecords_addPolicy row
  | changesPolicy hopen _ _ hupd => exact Store.preservesRecords_updatePolicy? hopen hupd
  | removesPolicy hopen hfree => exact Store.preservesRecords_removePolicy hopen hfree
  | addsRole _ hins =>
    obtain ⟨row, -, -, rfl⟩ := Store.insertRole?_eq_some hins
    exact Store.preservesRecords_addRole row
  | changesRole hopen _ hupd => exact Store.preservesRecords_updateRole? hopen hupd
  | removesRole hopen _ => exact Store.preservesRecords_removeRole hopen
  | grants _ _ hins =>
    obtain ⟨-, retired, rfl, -, rfl⟩ := Store.insertAssignment?_eq_some hins
    exact .of_tables rfl rfl
  | revokes _ _ hset =>
    obtain ⟨-, rfl⟩ := Store.setStatus?_eq_some hset
    exact .of_tables rfl rfl
  | settles selected _ => exact .of_tables rfl rfl

/-- Only two writes put keys in a list, and they look the policies up before. -/
theorem Effect.listsFound (h : Effect passes e e') (hs : e.store.ListsFound) :
    e'.store.ListsFound := by
  have hkept := h.preservesRecords
  cases h with
  | registers hp hr _ => exact hs.of_roles hkept fun r hmem => hr ▸ hmem
  | spends kind => exact hs
  | addsPolicy _ _ hins =>
    obtain ⟨row, -, -, -, rfl⟩ := Store.insertPolicy?_eq_some hins
    exact hs.of_roles hkept fun _ hr => hr
  | changesPolicy _ _ _ hupd =>
    obtain ⟨row, -, -, -, -, rfl⟩ := Store.updatePolicy?_eq_some hupd
    exact hs.of_roles hkept fun _ hr => hr
  | removesPolicy => exact hs.of_roles hkept fun _ hr => hr
  | addsRole hkeys hins =>
    obtain ⟨row, rfl, hlisted, rfl⟩ := Store.insertRole?_eq_some hins
    rw [← hlisted] at hkeys
    exact Store.forall_mem_append_singleton hs (hs.of_accepts hkeys)
  | changesRole _ hkeys hupd =>
    obtain ⟨row, htenant, -, hlisted, rfl⟩ := Store.updateRole?_eq_some hupd
    rw [← hlisted, ← htenant] at hkeys
    exact Store.forall_mem_replace hs (hs.of_accepts hkeys)
  | removesRole => exact hs.of_roles hkept fun _ hr => (List.mem_filter.1 hr).1
  | grants _ _ hins =>
    obtain ⟨-, retired, rfl, -, rfl⟩ := Store.insertAssignment?_eq_some hins
    exact hs
  | revokes _ _ hset =>
    obtain ⟨-, rfl⟩ := Store.setStatus?_eq_some hset
    exact hs
  | settles selected _ => exact hs

end Engine

/-- Does a request leave the tables of rights to administration? -/
def Request.IsAdministered : Request → Prop
  | write _ => False
  | _ => True

namespace Request.IsAdministered

variable {env : Environment} {e : Engine} {request : Request}

/-- A request has one effect, or it moves the clock, which the tables do not show. -/
theorem after_eq_or_hasEffect (h : request.IsAdministered) (env : Environment) (e : Engine) :
    (request.call.after env e).store = e.store ∨
      e.HasEffect (fun _ => True) (request.call.after env e) := by
  have hwrite : ∀ w, request ≠ .write w := by
    rintro w rfl
    exact h
  have hpasses : ∀ op, request = .operation op → op.PassesBy (fun _ => True) e := by
    intro op _
    cases op <;> trivial
  rcases request.hasEffect_or_moves env e hwrite hpasses with heffect | ⟨setTo, micros, rfl⟩
  · exact .inr heffect
  · left
    rw [Request.call, Operation.after_moveClock]

theorem preservesRecords (h : request.IsAdministered) (env : Environment) (e : Engine) :
    e.store.PreservesRecords (request.call.after env e).store := by
  rcases h.after_eq_or_hasEffect env e with hsame | ⟨e₁, m, heffect, hafter⟩
  · rw [hsame]
    exact .of_tables rfl rfl
  · -- The margin has no part in the tables of rights.
    rw [hafter]
    have hkept := heffect.preservesRecords
    exact ⟨hkept.policies, hkept.roles, hkept.listed⟩

theorem listsFound (h : request.IsAdministered) (env : Environment) (hs : e.store.ListsFound) :
    (request.call.after env e).store.ListsFound := by
  rcases h.after_eq_or_hasEffect env e with hsame | ⟨e₁, m, heffect, hafter⟩
  · rw [hsame]
    exact hs
  · rw [hafter]
    exact heffect.listsFound hs

end Request.IsAdministered

/-! ### Runs -/

section

variable {e e' : Engine} {tenant key : Given}

theorem listsFound_of_course (hrun : Course (fun _ _ request => request.IsAdministered) e e')
    (hs : e.store.ListsFound) : e'.store.ListsFound := by
  induction hrun with
  | nil => exact hs
  | step env request _ hadmitted ih => exact hadmitted.listsFound env ih

theorem policyRow?_of_course (hrun : Course (fun _ _ request => request.IsAdministered) e e')
    {row : PolicyRow} (hrow : e.store.policyRow? tenant key = some row)
    (hsystem : row.policy.isSystem = true) : e'.store.policyRow? tenant key = some row := by
  induction hrun with
  | nil => exact hrow
  | step env request _ hadmitted ih =>
    exact ((hadmitted.preservesRecords env _).policies tenant key).system row ih hsystem

theorem roleRow?_of_course (hrun : Course (fun _ _ request => request.IsAdministered) e e')
    {row : RoleRow} (hrow : e.store.roleRow? tenant key = some row)
    (hsystem : row.role.isSystem = true) : e'.store.roleRow? tenant key = some row := by
  induction hrun with
  | nil => exact hrow
  | step env request _ hadmitted ih =>
    exact ((hadmitted.preservesRecords env _).roles tenant key).system row ih hsystem

/-- The role stays in the table, so none of the policies that it lists is let go. -/
theorem isSome_policyRow?_of_course
    (hrun : Course (fun _ _ request => request.IsAdministered) e e') {row : RoleRow}
    (hrow : e.store.roleRow? tenant key = some row) (hsystem : row.role.isSystem = true)
    {k : String} (hk : k ∈ row.role.policyKeys)
    (hfound : (e.store.policyRow? tenant (some k)).isSome = true) :
    (e'.store.policyRow? tenant (some k)).isSome = true := by
  induction hrun with
  | nil => exact hfound
  | step env request hbefore hadmitted ih =>
    obtain ⟨hmem, htenant, -⟩ := Store.of_roleRow? (roleRow?_of_course hbefore hrow hsystem)
    rw [← htenant] at ih ⊢
    exact (hadmitted.preservesRecords env _).listed row hmem k hk ih

end

/-! ### Immutability -/

namespace Engine

/-- Is a policy what everybody finds under its key, and is everybody refused who would change it or
delete it? -/
structure Protects (e : Engine) (tenant key : Given) (p : Policy) : Prop where
  found : ∀ env, (Administration.policy tenant key).outcome env e = (.ok p, e)
  unchanged : ∀ env change actor,
    (Administration.updatePolicy tenant key change actor).outcome env e =
      (.error (.immutable .policy .modify key), e)
  undeleted : ∀ env actor, (Administration.deletePolicy tenant key actor).outcome env e =
    (.error (.immutable .policy .delete key), e)

structure ProtectsRole (e : Engine) (tenant key : Given) (r : Role) : Prop where
  found : ∀ env, (Administration.role tenant key).outcome env e = (.ok r, e)
  unchanged : ∀ env change actor,
    (Administration.updateRole tenant key change actor).outcome env e =
      (.error (.immutable .role .modify key), e)
  undeleted : ∀ env actor, (Administration.deleteRole tenant key actor).outcome env e =
    (.error (.immutable .role .delete key), e)

variable {e : Engine} {tenant : String} {key : Given}

theorem outcome_policy_of_found (ht : tenant ≠ "") {p : Policy}
    (hp : e.store.policy? (some tenant) key = some p) (env : Environment) :
    (Administration.policy (some tenant) key).outcome env e = (.ok p, e) := by
  rw [Administration.outcome_policy, Administration.lookedUp, Settings.checkTenant_some _ ht, hp]
  rfl

theorem protects_of_policy? (ht : tenant ≠ "") {p : Policy}
    (hp : e.store.policy? (some tenant) key = some p) (hsystem : p.isSystem = true) :
    e.Protects (some tenant) key p where
  found := outcome_policy_of_found ht hp
  unchanged env change actor := by
    rw [Administration.updatePolicy, outcome_bind, outcome_policy_of_found ht hp, andThen_ok,
      if_pos hsystem]
    rfl
  undeleted env actor := by
    rw [Administration.deletePolicy, outcome_bind, outcome_policy_of_found ht hp, andThen_ok,
      if_pos hsystem]
    rfl

theorem protectsRole_of_role? (ht : tenant ≠ "") {r : Role}
    (hr : e.store.role? (some tenant) key = some r) (hsystem : r.isSystem = true) :
    e.ProtectsRole (some tenant) key r := by
  have hfound (env : Environment) :
      (Administration.role (some tenant) key).outcome env e = (.ok r, e) := by
    rw [Administration.outcome_role, Administration.lookedUp, Settings.checkTenant_some _ ht, hr]
    rfl
  refine ⟨hfound, fun env change actor => ?_, fun env actor => ?_⟩
  · rw [Administration.updateRole, outcome_bind, hfound, andThen_ok, if_pos hsystem]
    rfl
  · rw [Administration.deleteRole, outcome_bind, hfound, andThen_ok, if_pos hsystem]
    rfl

end Engine

namespace Administration

/-- Whatever administration is asked for after a record of the platform is there, everybody finds it
as it is and nobody changes or deletes it, and the policies that a role of the platform lists are
there as well. No call gives a record another mark or another identifier. In a run from the
beginning every role lists policies that are there. -/
theorem system_records_are_immutable {e e' : Engine}
    (hrun : Course (fun _ _ request => request.IsAdministered) e e') {tenant : String}
    (ht : tenant ≠ "") (key : Given) :
    (∀ p, e.store.policy? (some tenant) key = some p → p.isSystem = true →
      e'.Protects (some tenant) key p) ∧
    (∀ r, e.store.role? (some tenant) key = some r → r.isSystem = true →
      e'.ProtectsRole (some tenant) key r ∧
        ∀ k ∈ r.policyKeys, (e.store.policy? (some tenant) (some k)).isSome = true →
          ∀ env, ∃ p, (policy (some tenant) (some k)).outcome env e' = (.ok p, e')) ∧
    (∀ (env : Environment) (request : Request), request.IsAdministered →
      (∀ p q, e'.store.policy? (some tenant) key = some p →
        (request.call.after env e').store.policy? (some tenant) key = some q →
          q.id = p.id ∧ q.isSystem = p.isSystem) ∧
      ∀ r q, e'.store.role? (some tenant) key = some r →
        (request.call.after env e').store.role? (some tenant) key = some q →
          q.id = r.id ∧ q.isSystem = r.isSystem) ∧
    ∀ clock scheme,
      Course (fun _ _ request => request.IsAdministered) (Engine.empty clock scheme) e →
        ∀ r, e.store.role? (some tenant) key = some r → ∀ k ∈ r.policyKeys,
          (e.store.policy? (some tenant) (some k)).isSome = true := by
  refine ⟨fun p hp hsystem => ?_, fun r hr hsystem => ⟨?_, fun k hk hfound env => ?_⟩,
    fun env request hadmitted => ⟨fun p q hp hq => ?_, fun r q hr hq => ?_⟩,
    fun clock scheme hstart r hr k hk => ?_⟩
  · obtain ⟨row, hrow, rfl⟩ := Option.map_eq_some_iff.1 hp
    refine Engine.protects_of_policy? ht ?_ hsystem
    rw [Store.policy?, policyRow?_of_course hrun hrow hsystem]
    rfl
  · obtain ⟨row, hrow, rfl⟩ := Option.map_eq_some_iff.1 hr
    refine Engine.protectsRole_of_role? ht ?_ hsystem
    rw [Store.role?, roleRow?_of_course hrun hrow hsystem]
    rfl
  · obtain ⟨row, hrow, rfl⟩ := Option.map_eq_some_iff.1 hr
    rw [Store.policy?, Option.isSome_map] at hfound
    obtain ⟨found, hthere⟩ := Option.isSome_iff_exists.1
      (isSome_policyRow?_of_course hrun hrow hsystem hk hfound)
    refine ⟨found.record, Engine.outcome_policy_of_found ht ?_ env⟩
    rw [Store.policy?, hthere]
    rfl
  · obtain ⟨row, hrow, rfl⟩ := Option.map_eq_some_iff.1 hp
    obtain ⟨after, hafter, rfl⟩ := Option.map_eq_some_iff.1 hq
    have hkept := (hadmitted.preservesRecords env e').policies (some tenant) key
    exact hkept.mark row after hrow hafter
  · obtain ⟨row, hrow, rfl⟩ := Option.map_eq_some_iff.1 hr
    obtain ⟨after, hafter, rfl⟩ := Option.map_eq_some_iff.1 hq
    have hkept := (hadmitted.preservesRecords env e').roles (some tenant) key
    exact hkept.mark row after hrow hafter
  · obtain ⟨row, hrow, rfl⟩ := Option.map_eq_some_iff.1 hr
    obtain ⟨hmem, htenant, -⟩ := Store.of_roleRow? hrow
    have hempty : (Engine.empty clock scheme).store.ListsFound :=
      fun r hr => (List.not_mem_nil hr).elim
    have hlists := listsFound_of_course hstart hempty
    rw [Store.policy?, Option.isSome_map, ← htenant]
    exact hlists row hmem k hk

/-- Calls that set up a policy and a role of the platform. -/
def platformFans : List Operation :=
  [.createPolicy (some "acme")
      { key := some "fans", displayName := some "Fans", allow := .ofTexts ["hvac.fan.roof:start"]
        deny := .arr [], risk := .null, conditions := .null, description := none
        isSystem := true } (some "admin"),
    .createRole (some "acme")
      { key := some "operator", displayName := some "Operator", policyKeys := .ofTexts ["fans"]
        risk := .null, description := none, tags := .arr [], isSystem := true } (some "admin")]

/-- The engine after these calls. -/
def platformReady : Engine :=
  platformFans.foldl (fun e op => op.call.after Environment.plain e) (Engine.start ⟨0⟩ false)

/-- Calls that would take them away, also by way of their keys. -/
def takeFans : List Operation :=
  [.updateRole (some "acme") (some "operator")
      { displayName := none, description := none, policyKeys := .arr [], risk := .null
        tags := .null } (some "visitor"),
    .deleteRole (some "acme") (some "operator") (some "visitor"),
    .deletePolicy (some "acme") (some "fans") (some "visitor"),
    .createPolicy (some "acme")
      { key := some "fans", displayName := some "Fans", allow := .arr [], deny := .arr []
        risk := .null, conditions := .null, description := none, isSystem := false }
      (some "visitor")]

/-- After all these calls the role is there as it was, and so is its policy. -/
theorem platform_survives :
    ∃ e', Course (fun _ _ request => request.IsAdministered) platformReady e' ∧ "acme" ≠ "" ∧
      ∃ r, platformReady.store.role? (some "acme") (some "operator") = some r ∧
        e'.ProtectsRole (some "acme") (some "operator") r ∧
        ∃ p, (policy (some "acme") (some "fans")).outcome Environment.plain e' = (.ok p, e') := by
  have hrun : Course (fun _ _ request => request.IsAdministered) platformReady
      (takeFans.foldl (fun e op => op.call.after Environment.plain e) platformReady) :=
    Course.nil.operations fun op _ _ => trivial
  have hne : "acme" ≠ "" := by decide
  obtain ⟨-, hroles, -⟩ := system_records_are_immutable hrun hne (some "operator")
  obtain ⟨r, hr, hsystem, hk⟩ : ∃ r,
      platformReady.store.role? (some "acme") (some "operator") = some r ∧ r.isSystem = true ∧
        "fans" ∈ r.policyKeys := ⟨_, rfl, rfl, List.mem_singleton_self _⟩
  obtain ⟨hprotected, hpolicies⟩ := hroles r hr hsystem
  exact ⟨_, hrun, hne, r, hr, hprotected, hpolicies "fans" hk rfl Environment.plain⟩

end Administration

end Entitlements
