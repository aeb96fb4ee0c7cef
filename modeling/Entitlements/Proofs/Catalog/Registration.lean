import Entitlements.Proofs.Audit.Bookkeeping
import Entitlements.Proofs.Permission.DomainSpelling

/-!
Registering permissions. A registration is refused for what it asks, or finds the permission there
already, or adds one row with the fields it was given. A batch goes through its items in order, and
what it has added itself is there when it comes to the next item, so of each key that the owner did
not have it adds the first item and skips the others. An item that is refused undoes all of it.

The table keeps two rows of one tenant for one key apart, but not two rows of the platform. There
the check before the write is all there is, so nobody may come in between.
-/

namespace Entitlements

open Time Call

/-! ### Items in the light of those before them -/

/-- The members of a list that are chosen, each by what stands before it. -/
def picks (choose : List α → α → Bool) (items : List α) : List α :=
  (items.zipIdx.filter fun q => choose (items.take q.2) q.1).map (·.1)

section

variable {choose : List α → α → Bool}

theorem picks_cons (x : α) (xs : List α) :
    picks choose (x :: xs) =
      (if choose [] x then [x] else []) ++ picks (fun before => choose (x :: before)) xs := by
  have hrest : ((xs.zipIdx 1).filter fun q => choose ((x :: xs).take q.2) q.1).map (·.1) =
      picks (fun before => choose (x :: before)) xs := by
    rw [List.zipIdx_succ, List.filter_map, List.map_map, picks]
    rfl
  have htaken : choose ((x :: xs).take 0) x = choose [] x := rfl
  rw [← hrest, picks, List.zipIdx_cons, List.filter_cons, htaken]
  cases choose [] x <;> rfl

theorem picks_of_all {xs : List α} (h : ∀ before, ∀ x ∈ xs, choose before x = true) :
    picks choose xs = xs := by
  induction xs generalizing choose with
  | nil => rfl
  | cons x xs ih =>
    rw [picks_cons, if_pos (h [] x List.mem_cons_self),
      ih fun before y hy => h (x :: before) y (List.mem_cons_of_mem x hy), List.singleton_append]

theorem picks_of_none {xs : List α} (h : ∀ before, ∀ x ∈ xs, choose before x = false) :
    picks choose xs = [] := by
  rw [picks, List.map_eq_nil_iff, List.filter_eq_nil_iff]
  intro q hq
  rw [h _ q.1 (List.fst_mem_of_mem_zipIdx hq)]
  decide

theorem length_picks_add_not (xs : List α) :
    (picks choose xs).length + (picks (fun before x => !choose before x) xs).length =
      xs.length := by
  have hplaces := List.length_eq_countP_add_countP (fun q => choose (xs.take q.2) q.1)
    (l := xs.zipIdx)
  simpa [picks, List.countP_eq_length_filter] using hplaces.symm

end

/-! ### What is asked for -/

theorem RiskLevel.eq_text_of_ofText? {s : String} {level : RiskLevel} (h : ofText? s = some level) :
    s = level.text := by
  unfold ofText? at h
  split at h <;> cases h <;> rfl

namespace NewPermission

/-- Can a permission be registered, as far as it depends on what is asked for? -/
structure IsValid (p : NewPermission) : Prop where
  key : p.key.IsValid
  risk : p.risk = .null ∨ ∃ level : RiskLevel, p.risk = .str level.text

/-- What is checked before the table is looked at, and the level of risk that comes of it. -/
def check (p : NewPermission) : Except Failure RiskLevel := do
  Catalog.checkKey p.key
  RiskLevel.parse p.risk .low

variable {p : NewPermission}

theorem checkKey_eq_ok_iff {key : DomainKey} :
    Catalog.checkKey key = .ok () ↔ key.IsValid := by
  rw [Catalog.checkKey]
  split
  · next segment hfind =>
    refine iff_of_false nofun fun hall => ?_
    have hbad := List.find?_some hfind
    rw [hall segment (List.mem_of_find?_eq_some hfind)] at hbad
    exact absurd hbad (by decide)
  · next hfind =>
    refine iff_of_true rfl fun segment hmem => ?_
    simpa using List.find?_eq_none.1 hfind segment hmem

theorem parse_eq_ok_iff {given : Json} {level : RiskLevel} :
    RiskLevel.parse given .low = .ok level ↔
      given = .null ∧ level = .low ∨ given = .str level.text := by
  constructor
  · intro h
    unfold RiskLevel.parse at h
    split at h
    · cases h
      exact .inl ⟨rfl, rfl⟩
    · split at h
      · next hlevel =>
        cases h
        rw [RiskLevel.eq_text_of_ofText? hlevel]
        exact .inr rfl
      · cases h
    · cases h
  · rintro (⟨rfl, rfl⟩ | rfl)
    · rfl
    · rw [RiskLevel.parse, RiskLevel.ofText?_text]

theorem check_eq_ok_iff {level : RiskLevel} :
    p.check = .ok level ↔
      p.key.IsValid ∧ (p.risk = .null ∧ level = .low ∨ p.risk = .str level.text) := by
  rw [check, bind_eq_ok_iff, ← parse_eq_ok_iff, ← checkKey_eq_ok_iff]
  exact ⟨fun ⟨_, hkey, hrisk⟩ => ⟨hkey, hrisk⟩, fun ⟨hkey, hrisk⟩ => ⟨(), hkey, hrisk⟩⟩

theorem isValid_iff : p.IsValid ↔ ∃ level, p.check = .ok level := by
  constructor
  · rintro ⟨hkey, hrisk | ⟨level, hrisk⟩⟩
    · exact ⟨.low, check_eq_ok_iff.2 ⟨hkey, .inl ⟨hrisk, rfl⟩⟩⟩
    · exact ⟨level, check_eq_ok_iff.2 ⟨hkey, .inr hrisk⟩⟩
  · rintro ⟨level, hcheck⟩
    obtain ⟨hkey, hrisk⟩ := check_eq_ok_iff.1 hcheck
    exact ⟨hkey, hrisk.imp And.left fun h => ⟨level, h⟩⟩

theorem not_isValid_iff : ¬p.IsValid ↔ ∃ failure, p.check = .error failure := by
  rw [isValid_iff]
  cases p.check <;> simp

theorem exists_first_invalid {items : List NewPermission} (h : ∃ p ∈ items, ¬p.IsValid) :
    ∃ before p following failure, items = before ++ p :: following ∧
      (∀ q ∈ before, q.IsValid) ∧ p.check = .error failure := by
  classical
  have hsome : (items.find? fun p => decide ¬p.IsValid).isSome = true := by
    simpa [List.find?_isSome] using h
  obtain ⟨p, hp⟩ := Option.isSome_iff_exists.1 hsome
  obtain ⟨hbad, before, following, hitems, hbefore⟩ := List.find?_eq_some_iff_append.1 hp
  obtain ⟨failure, hcheck⟩ := not_isValid_iff.1 (of_decide_eq_true hbad)
  exact ⟨before, p, following, failure, hitems, fun q hq => by simpa using hbefore q hq, hcheck⟩

/-- What is asked for is never refused for what is there. -/
theorem ne_permissionExists_of_check {failure : Failure} (h : p.check = .error failure)
    (key : DomainKey) : failure ≠ .permissionExists key := by
  rintro rfl
  unfold check Catalog.checkKey RiskLevel.parse at h
  split at h
  · cases h
  · rw [ok_bind] at h
    split at h
    · cases h
    · split at h <;> cases h
    · cases h

end NewPermission

/-! ### What is there -/

/-- Does a table have a row of an owner for a key? -/
def PermissionTable.holds (rows : List PermissionRow) (owner : Given) (key : DomainKey) : Bool :=
  rows.any fun r => r.tenant == owner && r.key == key

/-- Is a row what was asked for, as registered by an owner at a time? -/
structure PermissionRow.Registers (owner : Given) (now : Instant) (p : NewPermission)
    (row : PermissionRow) : Prop where
  tenant : row.tenant = owner
  key : row.key = p.key
  displayName : row.displayName = p.displayName
  description : row.description = p.description
  risk : p.risk = .null ∧ row.risk = .low ∨ p.risk = .str row.risk.text
  isActive : row.isActive = true
  updatedAt : row.updatedAt = now

namespace PermissionTable

variable {rows : List PermissionRow} {owner : Given} {key : DomainKey}

theorem holds_iff : holds rows owner key = true ↔ ∃ r ∈ rows, r.tenant = owner ∧ r.key = key := by
  simp [holds]

theorem holds_append (others : List PermissionRow) :
    holds (rows ++ others) owner key = (holds rows owner key || holds others owner key) :=
  List.any_append

theorem holds_registered {now : Instant} {p : NewPermission} {row : PermissionRow}
    (h : row.Registers owner now p) : holds [row] owner key = (p.key == key) := by
  simp [holds, h.tenant, h.key]

end PermissionTable

open PermissionTable

namespace Store

variable {s : Store} {owner : Given} {key : DomainKey}

theorem isSome_registered? :
    (s.registered? owner key).isSome = holds s.permissions owner key := by
  rw [Bool.eq_iff_iff, registered?, List.find?_isSome, holds, List.any_eq_true]

end Store

/-! ### One registration -/

/-- With rows registered, entries logged and identifiers spent. -/
def Engine.registered (e : Engine) (rows : List PermissionRow) (entries : List AuditRow)
    (ids : IdSupply) : Engine :=
  { e with
    store := { e.store with
      permissions := e.store.permissions ++ rows, audit := e.store.audit ++ entries }
    ids }

theorem Engine.registered_nil (e : Engine) (ids : IdSupply) :
    e.registered [] [] ids = { e with ids } := by
  rw [registered, List.append_nil, List.append_nil]

theorem Engine.registered_registered (e : Engine) (rows more : List PermissionRow)
    (entries others : List AuditRow) (ids later : IdSupply) :
    (e.registered rows entries ids).registered more others later =
      e.registered (rows ++ more) (entries ++ others) later := by
  simp [registered]

/-- How many entries of the log does it take to tell of so many changes? -/
def Environment.entriesFor (env : Environment) (changes : Nat) : Nat :=
  if env.settings.auditEnabled then changes else 0

theorem Environment.entriesFor_zero (env : Environment) : env.entriesFor 0 = 0 := by
  unfold entriesFor
  split <;> rfl

theorem Environment.entriesFor_add (env : Environment) (m n : Nat) :
    env.entriesFor m + env.entriesFor n = env.entriesFor (m + n) := by
  unfold entriesFor
  split <;> rfl

/-- Is a call for an owner sure to find what there is? For a tenant the table looks again, for the
platform only the call itself does, and somebody may come in between. -/
def Environment.Notices (env : Environment) (owner : Given) : Prop :=
  env.isOvertaken = true → owner.isSome = true

namespace Catalog

/-- The ways in which registering a permission ends. -/
inductive Insertion (env : Environment) (e : Engine) (owner : Given) (p : NewPermission) :
    Except Failure PermissionRow × Engine → Prop
  | refused {failure : Failure} (hcheck : p.check = .error failure) :
    Insertion env e owner p (.error failure, e)
  | taken (hvalid : p.IsValid) (hheld : holds e.store.permissions owner p.key = true)
    {ids : IdSupply} (hids : e.ids.Precedes ids) :
    Insertion env e owner p (.error (.permissionExists p.key), { e with ids })
  | added (hvalid : p.IsValid)
    (hnew : env.Notices owner → holds e.store.permissions owner p.key = false)
    {row : PermissionRow} (hid : row.id = e.ids.next .permission)
    (hrow : row.Registers owner e.clock p) {entries : List AuditRow}
    (hentries : entries.length = env.entriesFor 1) :
    Insertion env e owner p (.ok row, e.registered [row] entries (e.ids.advance .permission))

variable (env : Environment) (e : Engine) (owner actor : Given)

/-- Nothing that the catalogue records lacks what an entry needs. -/
theorem outcome_audit (type : EventType) (row : PermissionRow) (more : Json.Fields) :
    ∃ entries, entries.length = env.entriesFor 1 ∧
      (audit owner actor type row more).outcome env e =
        (.ok (), e.registered [] entries e.ids) := by
  by_cases henabled : env.settings.auditEnabled = true
  · obtain ⟨entry, -, -, hlogged⟩ := audit_logs henabled owner actor type row more e
    refine ⟨[entry], by rw [Environment.entriesFor, if_pos henabled, List.length_singleton], ?_⟩
    rw [hlogged, Engine.logged, Engine.registered, List.append_nil]
  · refine ⟨[], by rw [Environment.entriesFor, if_neg henabled, List.length_nil], ?_⟩
    rw [audit, outcome_bind, outcome_read, andThen_ok, if_neg henabled, outcome_pure,
      Engine.registered, List.append_nil, List.append_nil]

variable {p : NewPermission}

theorem outcome_insert_of_error {failure : Failure} (hcheck : p.check = .error failure) :
    (insert owner p actor).outcome env e = (.error failure, e) := by
  rw [NewPermission.check] at hcheck
  rw [insert, outcome_bind, outcome_ofExcept]
  rcases hkey : checkKey p.key with invalid | _
  · rw [hkey, error_bind] at hcheck
    rw [andThen_error, Except.error.inj hcheck]
  · rw [hkey, ok_bind] at hcheck
    rw [andThen_ok, outcome_bind, outcome_ofExcept, hcheck, andThen_error]

/-- For a tenant the key is looked for twice, by the call and by the table. -/
theorem outcome_insert_of_ok {risk : RiskLevel} (hcheck : p.check = .ok risk) :
    Insertion env e owner p ((insert owner p actor).outcome env e) := by
  have hvalid : p.IsValid := NewPermission.isValid_iff.2 ⟨risk, hcheck⟩
  obtain ⟨_, hkey, hrisk⟩ := bind_eq_ok_iff.1 hcheck
  rw [insert, outcome_bind, outcome_ofExcept, hkey, andThen_ok, outcome_bind, outcome_ofExcept,
    hrisk, andThen_ok, outcome_bind, outcome_read, andThen_ok, outcome_bind, outcome_store,
    andThen_ok, Store.isSome_registered?]
  split
  · next hfound => exact .taken hvalid (Bool.and_eq_true_iff.1 hfound).2 (.refl e.ids)
  next hfound =>
  rw [outcome_bind, outcome_freshId, andThen_ok, outcome_bind, outcome_store, andThen_ok,
    outcome_bind, outcome_now, andThen_ok, Store.insertPermission?_eq]
  dsimp only
  split
  · next hclash =>
    exact .taken hvalid (Bool.and_eq_true_iff.1 hclash).2 (e.ids.precedes_advance .permission)
  next hclash =>
  have hfree (hnotices : env.Notices owner) : holds e.store.permissions owner p.key = false := by
    by_cases howner : owner.isSome = true
    · simpa [howner, holds] using hclash
    · have hsees : env.isOvertaken = false := Bool.eq_false_iff.2 fun h => howner (hnotices h)
      simpa [hsees] using hfound
  rw [outcome_bind, outcome_orFail, Option.elim_some, andThen_ok, outcome_bind, outcome_write,
    andThen_ok, outcome_bind]
  generalize hrow : PermissionDraft.row _ _ owner e.clock = row
  have hregisters : row.Registers owner e.clock p := by
    rw [← hrow]
    exact ⟨rfl, rfl, rfl, rfl, (NewPermission.check_eq_ok_iff.1 hcheck).2, rfl, rfl⟩
  obtain ⟨entries, hentries, hlogged⟩ := outcome_audit env
    { e with
      store := { e.store with permissions := e.store.permissions ++ [row] }
      ids := e.ids.advance .permission } owner actor .domainPermissionCreated row []
  have hadded := Insertion.added hvalid hfree (hrow ▸ rfl) hregisters hentries
  rw [hlogged, andThen_ok, outcome_pure, Engine.registered, List.append_nil]
  exact hadded

theorem outcome_insert (p : NewPermission) :
    Insertion env e owner p ((insert owner p actor).outcome env e) := by
  rcases hcheck : p.check with failure | risk
  · rw [outcome_insert_of_error env e owner actor hcheck]
    exact .refused hcheck
  · exact outcome_insert_of_ok env e owner actor hcheck

/-! ### Batches -/

/-- Is an item of a batch the first with its key, and the key new to the owner? -/
def isNew (rows : List PermissionRow) (owner : Given) (before : List NewPermission)
    (p : NewPermission) : Bool :=
  !holds rows owner p.key && before.all (·.key != p.key)

def newItems (rows : List PermissionRow) (owner : Given) (items : List NewPermission) :
    List NewPermission :=
  picks (isNew rows owner) items

def otherItems (rows : List PermissionRow) (owner : Given) (items : List NewPermission) :
    List NewPermission :=
  picks (fun before p => !isNew rows owner before p) items

section

variable {rows rows' : List PermissionRow} {owner : Given} {p : NewPermission}
  {items : List NewPermission}

/-- What has been asked for is there when it comes to what follows. -/
theorem isNew_cons (h : ∀ key, holds rows' owner key = (holds rows owner key || p.key == key)) :
    (fun before => isNew rows owner (p :: before)) = isNew rows' owner := by
  funext before q
  rw [isNew, isNew, h, List.all_cons, Bool.not_or, Bool.and_assoc]
  rfl

theorem newItems_cons (h : ∀ key, holds rows' owner key = (holds rows owner key || p.key == key)) :
    newItems rows owner (p :: items) =
      (if holds rows owner p.key then [] else [p]) ++ newItems rows' owner items := by
  rw [newItems, picks_cons, isNew_cons h, newItems, isNew, List.all_nil, Bool.and_true]
  cases holds rows owner p.key <;> rfl

theorem otherItems_cons
    (h : ∀ key, holds rows' owner key = (holds rows owner key || p.key == key)) :
    otherItems rows owner (p :: items) =
      (if holds rows owner p.key then [p] else []) ++ otherItems rows' owner items := by
  have hlater : (fun before q => !isNew rows owner (p :: before) q) =
      fun before q => !isNew rows' owner before q := by
    rw [← isNew_cons h]
  rw [otherItems, picks_cons, hlater, otherItems, isNew, List.all_nil, Bool.and_true]
  cases holds rows owner p.key <;> rfl

theorem newItems_of_held (h : ∀ p ∈ items, holds rows owner p.key = true) :
    newItems rows owner items = [] :=
  picks_of_none fun before p hp => by rw [isNew, h p hp]; rfl

theorem otherItems_of_held (h : ∀ p ∈ items, holds rows owner p.key = true) :
    otherItems rows owner items = items :=
  picks_of_all fun before p hp => by rw [isNew, h p hp]; rfl

end

/-- Is what a batch creates and skips what its items ask for, given a table at a time? And is
everything there afterwards? -/
structure Batch (rows : List PermissionRow) (owner : Given) (now : Instant)
    (items : List NewPermission) (created : List PermissionRow) (skipped : List DomainKey) :
    Prop where
  registers : (newItems rows owner items).Forall₂ (PermissionRow.Registers owner now) created
  skips : skipped = (otherItems rows owner items).map (·.key)
  held : ∀ p ∈ items, holds (rows ++ created) owner p.key = true

namespace Batch

variable {rows created : List PermissionRow} {owner : Given} {now : Instant} {p : NewPermission}
  {items : List NewPermission} {skipped : List DomainKey}

theorem nil : Batch rows owner now [] [] [] := ⟨.nil, rfl, List.forall_mem_nil _⟩

theorem skip (h : Batch rows owner now items created skipped)
    (hheld : holds rows owner p.key = true) :
    Batch rows owner now (p :: items) created (p.key :: skipped) := by
  have hsame (key : DomainKey) : holds rows owner key = (holds rows owner key || p.key == key) := by
    cases hkey : p.key == key with
    | false => rw [Bool.or_false]
    | true => rw [← beq_iff_eq.1 hkey, hheld, Bool.or_true]
  refine ⟨?_, ?_, List.forall_mem_cons.2 ⟨?_, h.held⟩⟩
  · rw [newItems_cons hsame, if_pos hheld, List.nil_append]
    exact h.registers
  · rw [otherItems_cons hsame, if_pos hheld, List.singleton_append, List.map_cons, h.skips]
  · rw [holds_append, hheld, Bool.true_or]

theorem add {row : PermissionRow} (h : Batch (rows ++ [row]) owner now items created skipped)
    (hrow : row.Registers owner now p) (hnew : holds rows owner p.key = false) :
    Batch rows owner now (p :: items) (row :: created) skipped := by
  have hmore (key : DomainKey) :
      holds (rows ++ [row]) owner key = (holds rows owner key || p.key == key) := by
    rw [holds_append, holds_registered hrow]
  have hwhole : rows ++ row :: created = rows ++ [row] ++ created := by simp
  refine ⟨?_, ?_, List.forall_mem_cons.2 ⟨?_, ?_⟩⟩
  · rw [newItems_cons hmore, hnew]
    exact .cons hrow h.registers
  · rw [otherItems_cons hmore, hnew]
    exact h.skips
  · rw [hwhole, holds_append, hmore, beq_self_eq_true, Bool.or_true, Bool.true_or]
  · rw [hwhole]
    exact h.held

theorem length_add (h : Batch rows owner now items created skipped) :
    created.length + skipped.length = items.length := by
  rw [← h.registers.length_eq, h.skips, List.length_map, newItems, otherItems]
  exact length_picks_add_not items

/-- A batch that is taken again finds everything there. -/
theorem again (h : Batch rows owner now items created skipped) {later : Instant}
    {created' : List PermissionRow} {skipped' : List DomainKey}
    (h' : Batch (rows ++ created) owner later items created' skipped') :
    created' = [] ∧ skipped' = items.map (·.key) := by
  have hnone := h'.registers
  rw [newItems_of_held h.held] at hnone
  rw [h'.skips, otherItems_of_held h.held]
  exact ⟨List.forall₂_nil_left_iff.1 hnone, rfl⟩

end Batch

/-- The loop over a batch. -/
def insertEach (owner : Given) (items : List NewPermission) (actor : Given) :
    Call (List (DomainKey × Option PermissionRow)) :=
  items.mapM fun p => do return (p.key, ← insertUnlessThere owner p actor)

theorem outcome_insertEach_cons {env : Environment} {e e' : Engine} {owner actor : Given}
    {p : NewPermission} {row? : Option PermissionRow} (items : List NewPermission)
    (hp : (insertUnlessThere owner p actor).outcome env e = (.ok row?, e')) :
    (insertEach owner (p :: items) actor).outcome env e =
      andThen ((insertEach owner items actor).outcome env e') fun answers e =>
        (.ok ((p.key, row?) :: answers), e) := by
  rw [insertEach, List.mapM_cons, outcome_bind, outcome_bind, hp, andThen_ok, outcome_pure,
    andThen_ok, outcome_bind]
  rfl

theorem outcome_insertUnlessThere_of_error {failure : Failure} (hcheck : p.check = .error failure) :
    (insertUnlessThere owner p actor).outcome env e = (.error failure, e) := by
  rw [insertUnlessThere, outcome_tryCatch, outcome_map,
    outcome_insert_of_error env e owner actor hcheck, andThen_error]
  dsimp only
  split
  · next key => exact (NewPermission.ne_permissionExists_of_check hcheck key rfl).elim
  · rfl

section

variable {env : Environment} {owner : Given} (hnotices : env.Notices owner) (actor : Given)

include hnotices

/-- An item is skipped or added, according to what is there. -/
theorem outcome_insertUnlessThere {p : NewPermission} (hvalid : p.IsValid) (e : Engine) :
    (holds e.store.permissions owner p.key = true ∧ ∃ ids,
      (insertUnlessThere owner p actor).outcome env e = (.ok none, { e with ids })) ∨
    (holds e.store.permissions owner p.key = false ∧ ∃ row entries ids,
      row.Registers owner e.clock p ∧ entries.length = env.entriesFor 1 ∧
      (insertUnlessThere owner p actor).outcome env e =
        (.ok (some row), e.registered [row] entries ids)) := by
  have hends := outcome_insert env e owner actor p
  rw [insertUnlessThere, outcome_tryCatch, outcome_map]
  generalize (insert owner p actor).outcome env e = r at hends
  cases hends with
  | refused hcheck => exact absurd hvalid (NewPermission.not_isValid_iff.2 ⟨_, hcheck⟩)
  | taken _ hheld _ => exact .inl ⟨hheld, _, rfl⟩
  | added _ hnew _ hrow hentries =>
    exact .inr ⟨hnew hnotices, _, _, _, hrow, hentries, rfl⟩

/-- The loop over a batch of valid items. By induction on the items, for any engine, since each of
them meets the table that the ones before it have left. -/
theorem outcome_insertEach {items : List NewPermission} (hvalid : ∀ p ∈ items, p.IsValid)
    (e : Engine) :
    ∃ answers entries ids,
      (insertEach owner items actor).outcome env e =
        (.ok answers, e.registered (answers.filterMap (·.2)) entries ids) ∧
      entries.length = env.entriesFor (answers.filterMap (·.2)).length ∧
      Batch e.store.permissions owner e.clock items (answers.filterMap (·.2))
        ((answers.filter (·.2.isNone)).map (·.1)) := by
  induction items generalizing e with
  | nil =>
    refine ⟨[], [], e.ids, ?_, ?_, .nil⟩
    · rw [insertEach, List.mapM_nil, outcome_pure, List.filterMap_nil, Engine.registered_nil]
    · simp [Environment.entriesFor]
  | cons p items ih =>
    obtain ⟨hp, hitems⟩ := List.forall_mem_cons.1 hvalid
    rcases outcome_insertUnlessThere hnotices actor hp e with
      ⟨hheld, ids, hskip⟩ | ⟨hnew, row, entries, ids, hrow, hentries, hadd⟩
    · obtain ⟨answers, entries, later, hrest, hentries, hbatch⟩ := ih hitems { e with ids }
      refine ⟨(p.key, none) :: answers, entries, later, ?_, hentries, hbatch.skip hheld⟩
      rw [outcome_insertEach_cons items hskip, hrest]
      rfl
    · obtain ⟨answers, more, later, hrest, hmore, hbatch⟩ :=
        ih hitems (e.registered [row] entries ids)
      refine ⟨(p.key, some row) :: answers, entries ++ more, later, ?_, ?_, hbatch.add hrow hnew⟩
      · rw [outcome_insertEach_cons items hadd, hrest, Engine.registered_registered]
        rfl
      · rw [List.length_append, hentries, hmore, Environment.entriesFor_add, Nat.add_comm]
        rfl

/-- A batch of valid items, all together. -/
theorem outcome_createAll {items : List NewPermission} (hvalid : ∀ p ∈ items, p.IsValid)
    (e : Engine) :
    ∃ b entries ids,
      (createAll owner items actor).outcome env e = (.ok b, e.registered b.created entries ids) ∧
      entries.length = env.entriesFor b.created.length ∧
      Batch e.store.permissions owner e.clock items b.created b.skipped := by
  obtain ⟨answers, entries, ids, hloop, hentries, hbatch⟩ :=
    outcome_insertEach hnotices actor hvalid e
  rw [insertEach] at hloop
  refine ⟨⟨answers.filterMap (·.2), (answers.filter (·.2.isNone)).map (·.1)⟩, entries, ids, ?_,
    hentries, hbatch⟩
  rw [createAll, outcome_transaction, outcome_bind, hloop, andThen_ok, outcome_pure]

/-- An invalid item behind valid ones. -/
theorem outcome_createAll_of_error {before : List NewPermission}
    (hbefore : ∀ q ∈ before, q.IsValid) {p : NewPermission} {failure : Failure}
    (hcheck : p.check = .error failure) (following : List NewPermission) (e : Engine) :
    ∃ ids, (createAll owner (before ++ p :: following) actor).outcome env e =
      (.error failure, { e with ids }) := by
  obtain ⟨answers, entries, ids, hloop, -⟩ := outcome_insertEach hnotices actor hbefore e
  rw [insertEach] at hloop
  refine ⟨ids, ?_⟩
  rw [createAll, outcome_transaction, List.mapM_append, outcome_bind, outcome_bind, hloop,
    andThen_ok, outcome_bind, List.mapM_cons, outcome_bind, outcome_bind,
    outcome_insertUnlessThere_of_error env _ owner actor hcheck, andThen_error]
  rfl

/-- A batch keeps the first of each. If all its items are valid, it creates a row, active and with
the fields asked for, for the first item of each key that the owner did not have, in the order of
the items, and adds these rows to the table; the keys of all other items it skips, and taken again
at any time after, it skips everything. If some item is invalid, the first such item fails it, and
the store is as it was. -/
theorem batch_registers_first_new (e : Engine) (items : List NewPermission) :
    ((∀ p ∈ items, p.IsValid) → ∃ b entries ids,
      (createAll owner items actor).outcome env e = (.ok b, e.registered b.created entries ids) ∧
      (newItems e.store.permissions owner items).Forall₂
        (PermissionRow.Registers owner e.clock) b.created ∧
      b.skipped = (otherItems e.store.permissions owner items).map (·.key) ∧
      b.created.length + b.skipped.length = items.length ∧
      entries.length = env.entriesFor b.created.length ∧
      ∀ env' e' actor', env'.Notices owner →
        e'.store.permissions = e.store.permissions ++ b.created →
        ∃ ids', (createAll owner items actor').outcome env' e' =
          (.ok ⟨[], items.map (·.key)⟩, { e' with ids := ids' })) ∧
    ((∃ p ∈ items, ¬p.IsValid) → ∃ before p following failure ids,
      items = before ++ p :: following ∧ (∀ q ∈ before, q.IsValid) ∧ p.check = .error failure ∧
      (createAll owner items actor).outcome env e = (.error failure, { e with ids })) := by
  refine ⟨fun hvalid => ?_, fun hinvalid => ?_⟩
  · obtain ⟨b, entries, ids, houtcome, hentries, hbatch⟩ :=
      outcome_createAll hnotices actor hvalid e
    refine ⟨b, entries, ids, houtcome, hbatch.registers, hbatch.skips, hbatch.length_add, hentries,
      fun env' e' actor' hnotices' htable => ?_⟩
    obtain ⟨⟨created, skipped⟩, none', ids', hagain, hnone, hbatch'⟩ :=
      outcome_createAll hnotices' actor' hvalid e'
    rw [htable] at hbatch'
    obtain ⟨rfl, rfl⟩ := hbatch.again hbatch'
    obtain rfl := List.eq_nil_of_length_eq_zero (hnone.trans env'.entriesFor_zero)
    exact ⟨ids', by rw [hagain, Engine.registered_nil]⟩
  · obtain ⟨before, p, following, failure, rfl, hbefore, hcheck⟩ :=
      NewPermission.exists_first_invalid hinvalid
    obtain ⟨ids, houtcome⟩ :=
      outcome_createAll_of_error hnotices actor hbefore hcheck following e
    exact ⟨before, p, following, failure, ids, rfl, hbefore, hcheck, houtcome⟩

end

/-- Whoever asks for the fan twice gets one row for it, and a second time none; with a key that is
no key behind it, none at all. -/
theorem fan_is_registered_once :
    let fan : NewPermission := ⟨⟨"hvac", "fan", "roof", "start"⟩, some "Fan", none, .str "high"⟩
    let gate : NewPermission := ⟨⟨"doors", "gate", "yard", "open"⟩, none, none, .null⟩
    let bad : NewPermission := ⟨⟨"doors", "", "yard", "open"⟩, none, none, .null⟩
    let env := Environment.plain
    let e := Engine.start ⟨0⟩ false
    env.Notices none ∧
      (∃ b e', (createAll none [fan, gate, fan] none).outcome env e = (.ok b, e') ∧
        b.created.map (fun r => (r.key, r.displayName)) =
          [(fan.key, some "Fan"), (gate.key, none)] ∧
        b.skipped = [fan.key] ∧ e'.store.permissions = b.created ∧
        ((createAll none [fan, gate, fan] none).outcome env e').1 =
          .ok ⟨[], [fan.key, gate.key, fan.key]⟩) ∧
      ∃ failure, ((createAll none [fan, bad] none).outcome env e).1 = .error failure ∧
        ((createAll none [fan, bad] none).after env e).store = e.store := by
  intro fan gate bad env e
  have hnotices : env.Notices none := nofun
  have hfan : fan.IsValid := ⟨by decide, .inr ⟨.high, rfl⟩⟩
  have hgate : gate.IsValid := ⟨by decide, .inl rfl⟩
  have hvalid : ∀ p ∈ [fan, gate, fan], p.IsValid := by simp [hfan, hgate]
  have hbad : ∃ p ∈ [fan, bad], ¬p.IsValid :=
    ⟨bad, by simp, fun h => absurd h.key (by decide)⟩
  refine ⟨hnotices, ?_, ?_⟩
  · obtain ⟨b, entries, ids, houtcome, hcreated, hskipped, -, -, hagain⟩ :=
      (batch_registers_first_new hnotices none e [fan, gate, fan]).1 hvalid
    have hnew : newItems e.store.permissions none [fan, gate, fan] = [fan, gate] := rfl
    have hother : otherItems e.store.permissions none [fan, gate, fan] = [fan] := rfl
    rw [hnew] at hcreated
    rw [hother] at hskipped
    obtain ⟨ids', htwice⟩ := hagain env (e.registered b.created entries ids) none hnotices rfl
    rcases b with ⟨created, skipped⟩
    rcases hcreated with _ | @⟨_, first, _, _, hfirst, _ | @⟨_, second, _, _, hsecond, _ | _⟩⟩
    refine ⟨_, _, houtcome, ?_, hskipped, rfl, congrArg Prod.fst htwice⟩
    simp [hfirst.key, hsecond.key, hfirst.displayName, hsecond.displayName, fan, gate]
  · obtain ⟨before, p, following, failure, ids, -, -, -, houtcome⟩ :=
      (batch_registers_first_new hnotices none e [fan, bad]).2 hbad
    exact ⟨failure, congrArg Prod.fst houtcome, by rw [after_eq_of_outcome houtcome]⟩

end Catalog

end Entitlements
