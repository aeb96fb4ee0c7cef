import Entitlements.Proofs.Administration.GrantedExpiry
import Entitlements.Proofs.Administration.SystemRecords
import Entitlements.Proofs.Bundle.RoundTrip
import Entitlements.Proofs.Catalog.Registration
import Entitlements.Proofs.Evaluation.Batch

/-!
What an update writes. An argument that is missing keeps a field and an empty one clears it, for
each field on its own; the draft is made of the record as it was read, so what is kept is written
once more. It has to survive that, and conditions are the field in doubt, because they go through a
document whose members are spelled differently and which reads back as nothing if it has none.

The row is changed in its place. Whatever a search by another key finds is what it found before, and
so are roles under an update of a policy, policies under one of a role, and assignments under both.
-/

namespace Entitlements

open Time Call

/-! ### Conditions as they are stored -/

/-- The document that a row keeps of its conditions. -/
def PolicyRow.conditionsDocument (r : PolicyRow) : Json :=
  r.policy.conditions.elim .null Conditions.toJson

/-- What does a stored document of conditions read back as? Nothing and a document without members
are no conditions. -/
def Conditions.ReadsBack (document : Json) (conditions : Option Conditions) : Prop :=
  if document.isNothing then conditions = none
  else ∃ c, Conditions.read document = .valid c ∧ conditions = some c

theorem Conditions.isNothing_toJson_iff (c : Conditions) :
    c.toJson.isNothing = true ↔ c = Conditions.empty := by
  rcases c with ⟨mfa, hours, devices, ips, duration⟩
  simp only [toJson, Json.isNothing, List.isEmpty_iff, fields, List.append_eq_nil_iff, empty,
    Conditions.mk.injEq]
  cases mfa <;> cases hours <;> cases devices <;> cases ips <;> cases duration <;> simp [member]

/-- A record never has conditions that set nothing. -/
theorem PolicyRow.filter_conditions (r : PolicyRow) :
    r.record.conditions.filter (· ≠ Conditions.empty) = r.record.conditions := by
  rw [record, Option.filter_filter]
  simp

theorem PolicyRow.readsBack_conditionsDocument (r : PolicyRow) :
    Conditions.ReadsBack r.conditionsDocument r.record.conditions := by
  rw [conditionsDocument, record]
  cases r.policy.conditions with
  | none =>
    have hnothing : Json.null.isNothing = true := rfl
    exact (if_pos hnothing).mpr rfl
  | some c =>
    change Conditions.ReadsBack c.toJson _
    rw [Conditions.ReadsBack]
    by_cases hc : c = Conditions.empty
    · rw [if_pos ((Conditions.isNothing_toJson_iff c).2 hc), hc]
      rfl
    · rw [if_neg fun h => hc ((Conditions.isNothing_toJson_iff c).1 h)]
      exact ⟨c, reads_conditions c, by simp [Option.filter, hc]⟩

/-! ### What a change asks for -/

namespace Administration

/-- What becomes of a field for which a change may give a value: without one it stays, and else it
is what the value means. -/
structure Argument.Sets (given : Json) (means : α → Prop) (before after : α) : Prop where
  kept : given = .null → after = before
  written : given ≠ .null → means after

/-- Does a value list these patterns, all of them well formed? -/
def ListsPatterns (given : Json) (patterns : List String) : Prop :=
  given.members? = some (patterns.map .str) ∧
    ∀ text ∈ patterns, PermissionShape.of text ≠ .unknown

/-- Does a value list these keys, apart from repetitions, in the order in which they first occur? -/
def ListsKeys (given : Json) (keys : List String) : Prop :=
  ∃ members asked, given.members? = some members ∧ members.mapM keyOf = .ok asked ∧
    keys.Nodup ∧ (∀ key, key ∈ asked ↔ ∃ k ∈ keys, key = some k) ∧
    keys.Pairwise fun j k => asked.idxOf (some j) < asked.idxOf (some k)

/-- Are these the conditions that a document gives? One that sets none of them gives none. -/
def GivesConditions (given : Json) (conditions : Option Conditions) : Prop :=
  ∃ c, Conditions.read given = .valid c ∧
    conditions = if c = Conditions.empty then none else some c

end Administration

open Administration

/-- Does a change make one policy of another: the fields that are given replaced, the others and the
identity kept? -/
structure PolicyChange.Makes (c : PolicyChange) (before after : Policy) : Prop where
  id : after.id = before.id
  key : after.key = before.key
  isSystem : after.isSystem = before.isSystem
  displayName : after.displayName = c.displayName.getD before.displayName
  description : after.description = c.description.getD before.description
  allow : Argument.Sets c.allow (ListsPatterns c.allow) before.allow after.allow
  deny : Argument.Sets c.deny (ListsPatterns c.deny) before.deny after.deny
  risk : Argument.Sets c.risk (fun level => c.risk = .str level.text) before.risk after.risk
  conditions : Argument.Sets c.conditions (GivesConditions c.conditions) before.conditions
    after.conditions

structure RoleChange.Makes (c : RoleChange) (before after : Role) : Prop where
  id : after.id = before.id
  key : after.key = before.key
  isSystem : after.isSystem = before.isSystem
  displayName : after.displayName = c.displayName.getD before.displayName
  description : after.description = c.description.getD before.description
  policyKeys : Argument.Sets c.policyKeys (ListsKeys c.policyKeys) before.policyKeys
    after.policyKeys
  risk : Argument.Sets c.risk (fun level => c.risk = .str level.text) before.risk after.risk
  tags : Argument.Sets c.tags (fun tags => c.tags.members? = some (tags.map .str)) before.tags
    after.tags

namespace Administration

/-! ### Arguments -/

section

variable {given : Json}

theorem sets_of_replacing {check : Json → Except Failure α} {means : α → Prop}
    {current found : α} (h : replacing given current check = .ok found)
    (hmeans : given ≠ .null → check given = .ok found → means found) :
    Argument.Sets given means current found := by
  unfold replacing at h
  split at h
  · next hnull =>
    cases h
    exact ⟨fun _ => rfl, fun hgiven => absurd hnull hgiven⟩
  · next hgiven => exact ⟨fun hnull => absurd hnull hgiven, fun _ => hmeans hgiven h⟩

theorem members?_of_membersOf {members : List Json} (h : membersOf given = .ok members) :
    given.members? = some members := by
  unfold membersOf at h
  split at h
  · next hmembers =>
    cases h
    exact hmembers
  · cases h

theorem of_checkPattern {text : String} (h : checkPattern given = .ok text) :
    given = .str text ∧ PermissionShape.of text ≠ .unknown := by
  unfold checkPattern at h
  split at h
  · split at h
    · cases h
    · next hshape =>
      cases h
      exact ⟨rfl, hshape⟩
  · cases h

theorem of_checkPatterns {members : List Json} {patterns : List String}
    (h : checkPatterns members = .ok patterns) :
    members = patterns.map .str ∧ ∀ text ∈ patterns, PermissionShape.of text ≠ .unknown := by
  induction members generalizing patterns with
  | nil =>
    cases h
    exact ⟨rfl, nofun⟩
  | cons first rest ih =>
    obtain ⟨pattern, hpattern, h⟩ := bind_eq_ok_iff.1 h
    obtain ⟨more, hmore, h⟩ := bind_eq_ok_iff.1 h
    cases h
    obtain ⟨rfl, hshape⟩ := of_checkPattern hpattern
    obtain ⟨rfl, hshapes⟩ := ih hmore
    exact ⟨rfl, List.forall_mem_cons.2 ⟨hshape, hshapes⟩⟩

theorem listsPatterns_of_patterns {found : List String} (h : patterns given = .ok found) :
    ListsPatterns given found := by
  obtain ⟨members, hmembers, h⟩ := bind_eq_ok_iff.1 h
  obtain ⟨rfl, hshapes⟩ := of_checkPatterns h
  exact ⟨members?_of_membersOf hmembers, hshapes⟩

theorem eq_text_of_parse {level : RiskLevel} (hgiven : given ≠ .null)
    (h : RiskLevel.parse given .low = .ok level) : given = .str level.text :=
  (NewPermission.parse_eq_ok_iff.1 h).resolve_left fun hnull => hgiven hnull.1

/-- What is read from each member on its own, when the member can be told from what is read. -/
theorem eq_map_of_mapM {f : Json → Except Failure α} {write : α → Json}
    (hf : ∀ member a, f member = .ok a → member = write a) {members : List Json} {found : List α}
    (h : members.mapM f = .ok found) : members = found.map write := by
  induction members generalizing found with
  | nil =>
    cases h
    rfl
  | cons first rest ih =>
    rw [List.mapM_cons] at h
    obtain ⟨a, ha, h⟩ := bind_eq_ok_iff.1 h
    obtain ⟨more, hmore, h⟩ := bind_eq_ok_iff.1 h
    cases h
    rw [List.map_cons, hf first a ha, ih hmore]

theorem members?_of_tags {found : List String} (h : tags given = .ok found) :
    given.members? = some (found.map .str) := by
  obtain ⟨members, hmembers, h⟩ := bind_eq_ok_iff.1 h
  rw [members?_of_membersOf hmembers]
  refine congrArg some (eq_map_of_mapM (fun member tag htag => ?_) h)
  split at htag
  · cases htag
    rfl
  · cases htag

/-- The keys that were looked up are those that were asked for, each of them once. -/
theorem listsKeys_of_requirePolicies {env : Environment} {s : Store} {tenant : Given}
    {found : List String}
    (h : (do
      let keys ← do (← membersOf given).mapM keyOf
      (distinct keys).mapM fun key =>
        (·.key) <$> lookedUp env tenant (.policyNotFound key) (s.policy? tenant key)) =
          Except.ok found) : ListsKeys given found := by
  obtain ⟨members, hmembers, h⟩ := bind_eq_ok_iff.1 h
  obtain ⟨asked, hasked, h⟩ := bind_eq_ok_iff.1 h
  have hfound : distinct asked = found.map some := asked_eq_of_mapM_lookedUp h
  have hnodup := nodup_distinct asked
  have horder := pairwise_idxOf_distinct asked
  rw [hfound] at hnodup
  rw [hfound, List.pairwise_map] at horder
  refine ⟨members, asked, members?_of_membersOf hmembers, hasked, hnodup.of_map some,
    fun key => ?_, horder⟩
  rw [← mem_distinct, hfound, List.mem_map]
  exact exists_congr fun k => and_congr_right fun _ => eq_comm

/-- Conditions that are written are read back without those that set nothing. -/
theorem givesConditions_of_conditions {found : Option Conditions} (hgiven : given ≠ .null)
    (h : conditions given = .ok found) :
    GivesConditions given (found.filter (· ≠ Conditions.empty)) := by
  rw [conditions, if_neg hgiven] at h
  rcases hread : Conditions.read given with c | issues
  · rw [hread] at h
    cases h
    refine ⟨c, hread, ?_⟩
    by_cases hc : c = Conditions.empty <;> simp [Option.filter, hc]
  · rw [hread] at h
    cases h

/-- Conditions that are kept were read, and so they are written as they were read. -/
theorem sets_conditions {current found : Option Conditions}
    (hcurrent : current.filter (· ≠ Conditions.empty) = current)
    (h : replacing given current conditions = .ok found) :
    Argument.Sets given (GivesConditions given) current
      (found.filter (· ≠ Conditions.empty)) := by
  have hsets : Argument.Sets given (conditions given = .ok ·) current found :=
    sets_of_replacing h fun _ hfound => hfound
  refine ⟨fun hnull => ?_, fun hgiven => ?_⟩
  · rw [hsets.kept hnull, hcurrent]
  · exact givesConditions_of_conditions hgiven (hsets.written hgiven)

end

/-! ### Drafts -/

/-- The row that a draft is written to, read again. -/
theorem makes_of_changedPolicyDraft {c : PolicyChange} {row new : PolicyRow} {d : PolicyDraft}
    (h : changedPolicyDraft c row.record = .ok d) {actor : Given} {now : Instant}
    (hnew : row.updated? d actor now = some new) : c.Makes row.record new.record := by
  obtain ⟨allow, hallow, h⟩ := bind_eq_ok_iff.1 h
  obtain ⟨deny, hdeny, h⟩ := bind_eq_ok_iff.1 h
  obtain ⟨risk, hrisk, h⟩ := bind_eq_ok_iff.1 h
  obtain ⟨conditions, hconditions, h⟩ := bind_eq_ok_iff.1 h
  cases h
  cases hnew
  exact
    { id := rfl
      key := rfl
      isSystem := rfl
      displayName := rfl
      description := rfl
      allow := sets_of_replacing hallow fun _ => listsPatterns_of_patterns
      deny := sets_of_replacing hdeny fun _ => listsPatterns_of_patterns
      risk := sets_of_replacing hrisk eq_text_of_parse
      conditions := sets_conditions row.filter_conditions hconditions }

theorem makes_of_replacing {c : RoleChange} {row new : RoleRow} {policyKeys tags : List String}
    {risk : RiskLevel}
    (hkeys : Argument.Sets c.policyKeys (ListsKeys c.policyKeys) row.role.policyKeys policyKeys)
    (hrisk : replacing c.risk row.role.risk (RiskLevel.parse · .low) = .ok risk)
    (htags : replacing c.tags row.role.tags Administration.tags = .ok tags) {actor : Given}
    {now : Instant}
    (hnew : row.updated?
      { key := some row.role.key, policyKeys, risk
        displayName := some (c.displayName.getD row.role.displayName)
        description := c.description.getD row.role.description, tags
        isSystem := row.role.isSystem } actor now = some new) : c.Makes row.role new.role := by
  cases hnew
  exact
    { id := rfl
      key := rfl
      isSystem := rfl
      displayName := rfl
      description := rfl
      policyKeys := hkeys
      risk := sets_of_replacing hrisk eq_text_of_parse
      tags := sets_of_replacing htags fun _ => members?_of_tags }

end Administration

/-! ### The row -/

namespace Store

/-- Does a policy take the place of another, with all else that rights are read from as it was? The
row is changed where it stands, and its document reads back as the conditions of the record. -/
structure UpdatesPolicy (s s' : Store) (tenant key : Given) (before after : Policy) : Prop where
  inPlace : ∃ old new : PolicyRow, s.policyRow? tenant key = some old ∧ old.record = before ∧
    s'.policyRow? tenant key = some new ∧ new.record = after ∧
    Conditions.ReadsBack new.conditionsDocument after.conditions ∧
    s'.policies = s.policies.map fun q => if q = old then new else q
  others : ∀ t k, t ≠ tenant ∨ k ≠ key → s'.policyRow? t k = s.policyRow? t k
  roles : s'.roles = s.roles
  assignments : s'.assignments = s.assignments

structure UpdatesRole (s s' : Store) (tenant key : Given) (before after : Role) : Prop where
  inPlace : ∃ old new : RoleRow, s.roleRow? tenant key = some old ∧ old.role = before ∧
    s'.roleRow? tenant key = some new ∧ new.role = after ∧
    s'.roles = s.roles.map fun q => if q = old then new else q
  others : ∀ t k, t ≠ tenant ∨ k ≠ key → s'.roleRow? t k = s.roleRow? t k
  policies : s'.policies = s.policies
  assignments : s'.assignments = s.assignments

variable {s s' : Store} {tenant key actor : Given} {now : Instant}

theorem UpdatesPolicy.policy? {before after : Policy}
    (h : s.UpdatesPolicy s' tenant key before after) : s'.policy? tenant key = some after := by
  obtain ⟨_, new, -, -, hnew, rfl, -⟩ := h.inPlace
  rw [Store.policy?, hnew]
  rfl

theorem UpdatesRole.role? {before after : Role}
    (h : s.UpdatesRole s' tenant key before after) : s'.role? tenant key = some after := by
  obtain ⟨_, new, -, -, hnew, rfl, -⟩ := h.inPlace
  rw [Store.role?, hnew]
  rfl

/-- Policies, roles and assignments are no part of the margin. -/
theorem UpdatesPolicy.withMargin {before after : Policy} (m : Margin)
    (h : s.UpdatesPolicy s' tenant key before after) :
    s.UpdatesPolicy (s'.withMargin m) tenant key before after :=
  ⟨h.inPlace, h.others, h.roles, h.assignments⟩

theorem UpdatesRole.withMargin {before after : Role} (m : Margin)
    (h : s.UpdatesRole s' tenant key before after) :
    s.UpdatesRole (s'.withMargin m) tenant key before after :=
  ⟨h.inPlace, h.others, h.policies, h.assignments⟩

theorem updatesPolicy_of_updated? {old new : PolicyRow} {d : PolicyDraft}
    (hold : s.policyRow? tenant key = some old) (hnew : old.updated? d actor now = some new) :
    s.UpdatesPolicy { s with policies := s.policies.map fun q => if q = old then new else q }
      tenant key old.record new.record := by
  obtain ⟨-, rfl, rfl⟩ := of_policyRow? hold
  obtain ⟨htenant, hkey, -, -⟩ := of_policyUpdated? hnew
  refine ⟨⟨old, new, hold, rfl, ?_, rfl, new.readsBack_conditionsDocument, rfl⟩, fun t k h => ?_,
    rfl, rfl⟩
  · exact find?_replace_of_find? hold (by simp [htenant, hkey])
  · have hother : (some old.tenant == t && some old.policy.key == k) = false := by
      rcases h with h | h <;> simp [Ne.symm h]
    exact find?_replace_of_not hother (by rw [htenant, hkey, hother])

theorem updatesRole_of_updated? {old new : RoleRow} {d : RoleDraft}
    (hold : s.roleRow? tenant key = some old) (hnew : old.updated? d actor now = some new) :
    s.UpdatesRole { s with roles := s.roles.map fun q => if q = old then new else q }
      tenant key old.role new.role := by
  obtain ⟨-, rfl, rfl⟩ := of_roleRow? hold
  obtain ⟨htenant, hkey, -, -⟩ := of_roleUpdated? hnew
  refine ⟨⟨old, new, hold, rfl, ?_, rfl, rfl⟩, fun t k h => ?_, rfl, rfl⟩
  · exact find?_replace_of_find? hold (by simp [htenant, hkey])
  · have hother : (some old.tenant == t && some old.role.key == k) = false := by
      rcases h with h | h <;> simp [Ne.symm h]
    exact find?_replace_of_not hother (by rw [htenant, hkey, hother])

end Store

/-! ### Saving under a key that is there -/

namespace AccessStore

variable {env : Environment} {e e' : Engine} {tenant actor : Given}

theorem of_savePolicy {d : PolicyDraft} {row : PolicyRow} {after : Policy}
    (hrow : e.store.policyRow? tenant d.key = some row)
    (h : (savePolicy tenant d actor).outcome env e = (.ok after, e')) :
    ∃ new, row.updated? d actor e.clock = some new ∧ new.record = after ∧
      e.store.UpdatesPolicy e'.store tenant d.key row.record new.record := by
  obtain ⟨_, -, h⟩ := ok_of_look (outcome_requireTenant env e tenant) h
  obtain ⟨_, hstore, h⟩ := ok_of_look (outcome_store env e) h
  cases hstore
  obtain ⟨_, hnow, h⟩ := ok_of_look (outcome_now env e) h
  cases hnow
  simp only [hrow] at h
  obtain ⟨⟨s, p⟩, hsaved, h⟩ := ok_of_look (outcome_orFail env e _ _) h
  have hupd := eq_some_of_elim hsaved
  simp only [Store.updatePolicy?, Option.bind_eq_bind, Option.bind_eq_some_iff] at hupd
  obtain ⟨new, hnew, hupd⟩ := hupd
  cases hupd
  cases h
  exact ⟨new, hnew, rfl, Store.updatesPolicy_of_updated? hrow hnew⟩

theorem of_saveRole {d : RoleDraft} {row : RoleRow} {after : Role}
    (hrow : e.store.roleRow? tenant d.key = some row)
    (h : (saveRole tenant d actor).outcome env e = (.ok after, e')) :
    ∃ new, row.updated? d actor e.clock = some new ∧ new.role = after ∧
      e.store.UpdatesRole e'.store tenant d.key row.role new.role := by
  obtain ⟨_, -, h⟩ := ok_of_look (outcome_requireTenant env e tenant) h
  obtain ⟨_, hstore, h⟩ := ok_of_look (outcome_store env e) h
  cases hstore
  obtain ⟨_, hnow, h⟩ := ok_of_look (outcome_now env e) h
  cases hnow
  simp only [hrow] at h
  obtain ⟨⟨s, r⟩, hsaved, h⟩ := ok_of_look (outcome_orFail env e _ _) h
  have hupd := eq_some_of_elim hsaved
  simp only [Store.updateRole?, Option.bind_eq_bind, Option.bind_eq_some_iff] at hupd
  obtain ⟨new, hnew, hupd⟩ := hupd
  cases hupd
  cases h
  exact ⟨new, hnew, rfl, Store.updatesRole_of_updated? hrow hnew⟩

end AccessStore

/-! ### Updates -/

namespace Administration

variable {env : Environment} {e e' : Engine} {tenant key actor : Given}

theorem updatesPolicy_of_updatePolicy {c : PolicyChange} {after : Policy}
    (h : (updatePolicy tenant key c actor).outcome env e = (.ok after, e')) :
    ∃ before, (policy tenant key).outcome env e = (.ok before, e) ∧
      (policy tenant key).outcome env e' = (.ok after, e') ∧ c.Makes before after ∧
      e.store.UpdatesPolicy e'.store tenant key before after := by
  obtain ⟨current, hlooked, h⟩ := ok_of_look (outcome_policy tenant key env e) h
  obtain ⟨htenant, hfound⟩ := of_lookedUp hlooked
  obtain ⟨row, hrow, rfl⟩ := Option.map_eq_some_iff.1 hfound
  obtain ⟨-, h⟩ := ok_of_guard h
  obtain ⟨draft, hdraft, h⟩ := ok_of_look (outcome_ofExcept env e _) h
  obtain ⟨e₂, m, hsave, rfl⟩ := of_followedUp h
  have hkey : draft.key = key := by rw [key_of_changedPolicyDraft hdraft, key_of_policy? hfound]
  rw [← hkey] at hrow
  obtain ⟨new, hnew, rfl, hupdates⟩ := AccessStore.of_savePolicy hrow hsave
  rw [hkey] at hupdates
  have hafter := hupdates.withMargin m
  have hread : (e₂.withMargin m).store.policy? tenant key = some new.record := hafter.policy?
  refine ⟨row.record, ?_, ?_, makes_of_changedPolicyDraft hdraft hnew, hafter⟩
  · rw [outcome_policy, hlooked]
  · rw [outcome_policy, lookedUp, htenant, hread]
    rfl

/-- A choice between two first steps. -/
theorem of_choice {p : Prop} [Decidable p] {x y : Call α} {f : α → Call β} {b : β}
    (h : (if p then x >>= f else y >>= f).outcome env e = (.ok b, e')) :
    ((if p then x else y) >>= f).outcome env e = (.ok b, e') := by
  have hsame : ((if p then x else y) >>= f) = if p then x >>= f else y >>= f :=
    apply_ite (· >>= f) p x y
  rw [hsame, h]

/-- The keys that a role keeps, or else those that are looked up. -/
theorem outcome_keepOrRequire (tenant : Given) (env : Environment) (e : Engine) (given : Json)
    (current : List String) :
    (if given = .null then pure current else requirePolicies tenant given).outcome env e =
      (replacing given current fun keys => do
        let keys ← do (← membersOf keys).mapM keyOf
        (distinct keys).mapM fun key =>
          (·.key) <$> lookedUp env tenant (.policyNotFound key) (e.store.policy? tenant key),
        e) := by
  unfold replacing
  split
  · rfl
  · exact outcome_requirePolicies tenant env e given

theorem updatesRole_of_updateRole {c : RoleChange} {after : Role}
    (h : (updateRole tenant key c actor).outcome env e = (.ok after, e')) :
    ∃ before, (role tenant key).outcome env e = (.ok before, e) ∧
      (role tenant key).outcome env e' = (.ok after, e') ∧ c.Makes before after ∧
      e.store.UpdatesRole e'.store tenant key before after := by
  obtain ⟨current, hlooked, h⟩ := ok_of_look (outcome_role tenant key env e) h
  obtain ⟨htenant, hfound⟩ := of_lookedUp hlooked
  obtain ⟨row, hrow, rfl⟩ := Option.map_eq_some_iff.1 hfound
  obtain ⟨-, h⟩ := ok_of_guard h
  obtain ⟨policyKeys, hkeys, h⟩ := ok_of_look (outcome_keepOrRequire tenant env e _ _) (of_choice h)
  obtain ⟨risk, hrisk, h⟩ := ok_of_look (outcome_ofExcept env e _) h
  obtain ⟨tags, htags, h⟩ := ok_of_look (outcome_ofExcept env e _) h
  obtain ⟨e₂, m, hsave, rfl⟩ := of_followedUp h
  have hkey : some row.role.key = key := key_of_role? hfound
  rw [← hkey] at hrow
  obtain ⟨new, hnew, rfl, hupdates⟩ := AccessStore.of_saveRole hrow hsave
  have hsets : Argument.Sets c.policyKeys (ListsKeys c.policyKeys) row.role.policyKeys policyKeys :=
    sets_of_replacing hkeys fun _ => listsKeys_of_requirePolicies
  have hafter := hupdates.withMargin m
  dsimp only at hafter
  rw [hkey] at hafter
  have hread : (e₂.withMargin m).store.role? tenant key = some new.role := hafter.role?
  refine ⟨row.role, ?_, ?_, makes_of_replacing hsets hrisk htags hnew, hafter⟩
  · rw [outcome_role, hlooked]
  · rw [outcome_role, lookedUp, htenant, hread]
    rfl

/-- Whatever an update answers is what the key finds from then on, and it is what the key found
before with the fields replaced that were given. Any other policy, any other role and every
assignment stays as it was. -/
theorem updates_write_what_is_given (env : Environment) (e e' : Engine)
    (tenant key actor : Given) :
    (∀ (c : PolicyChange) (after : Policy),
      (updatePolicy tenant key c actor).outcome env e = (.ok after, e') →
        ∃ before, (policy tenant key).outcome env e = (.ok before, e) ∧
          (policy tenant key).outcome env e' = (.ok after, e') ∧ c.Makes before after ∧
          e.store.UpdatesPolicy e'.store tenant key before after) ∧
    ∀ (c : RoleChange) (after : Role),
      (updateRole tenant key c actor).outcome env e = (.ok after, e') →
        ∃ before, (role tenant key).outcome env e = (.ok before, e) ∧
          (role tenant key).outcome env e' = (.ok after, e') ∧ c.Makes before after ∧
          e.store.UpdatesRole e'.store tenant key before after :=
  ⟨fun _ _ => updatesPolicy_of_updatePolicy, fun _ _ => updatesRole_of_updateRole⟩

/-- A change that clears the allow list and sets conditions to what might pass for nothing. -/
def fansWithheld : PolicyChange :=
  { displayName := none, description := some "", allow := .arr [], deny := .null
    risk := .str "high"
    conditions := .obj [("requiresMFA", .bool false), ("ip_allowlist", .arr []),
      ("maxSessionDuration", .int 0)] }

/-- A change that lists one policy twice. -/
def fansTwice : RoleChange :=
  { displayName := some "Fans", description := none, policyKeys := .ofTexts ["fans", "fans"]
    risk := .null, tags := .arr [] }

/-- The policy comes to allow nothing, under the conditions that were given, and the role lists it
once. The assignment of the role is untouched by either. -/
theorem fans_withheld :
    ∃ p r e₁ e₂,
      (updatePolicy (some "acme") (some "fans") fansWithheld (some "admin")).outcome
        Environment.plain Engine.fansAllowed = (.ok p, e₁) ∧
      p.allow = [] ∧ p.risk = .high ∧
      p.conditions = some ⟨some false, none, none, some [], some 0⟩ ∧
      (policy (some "acme") (some "fans")).outcome Environment.plain e₁ = (.ok p, e₁) ∧
      (updateRole (some "acme") (some "operator") fansTwice (some "admin")).outcome
        Environment.plain e₁ = (.ok r, e₂) ∧
      r.policyKeys = ["fans"] ∧
      (role (some "acme") (some "operator")).outcome Environment.plain e₂ = (.ok r, e₂) ∧
      e₂.store.assignments = Engine.fansAllowed.store.assignments := by
  obtain ⟨p, e₁, hp, hallow, hrisk, hconditions, r, e₂, hr, hkeys⟩ : ∃ p e₁,
      (updatePolicy (some "acme") (some "fans") fansWithheld (some "admin")).outcome
        Environment.plain Engine.fansAllowed = (.ok p, e₁) ∧ p.allow = [] ∧ p.risk = .high ∧
      p.conditions = some ⟨some false, none, none, some [], some 0⟩ ∧ ∃ r e₂,
      (updateRole (some "acme") (some "operator") fansTwice (some "admin")).outcome
        Environment.plain e₁ = (.ok r, e₂) ∧ r.policyKeys = ["fans"] :=
    ⟨_, _, rfl, rfl, rfl, rfl, _, _, rfl, rfl⟩
  obtain ⟨_, -, hread, -, hpolicy⟩ := (updates_write_what_is_given _ _ _ _ _ _).1 _ _ hp
  obtain ⟨_, -, hreadRole, -, hrole⟩ := (updates_write_what_is_given _ _ _ _ _ _).2 _ _ hr
  exact ⟨p, r, e₁, e₂, hp, hallow, hrisk, hconditions, hread, hr, hkeys, hreadRole,
    hrole.assignments.trans hpolicy.assignments⟩

end Administration

end Entitlements
