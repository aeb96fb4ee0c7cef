import Entitlements.Catalog
import Entitlements.Proofs.Engine.Outcome
import Entitlements.Proofs.Tenancy.Agreement
import Mathlib.Tactic.MkIffOfInductiveProp

/-!
Listings of the catalogue. A caller sees its own rows and the global ones, and a filter says which
of them it asks for; the listing holds these in one order, in which no two rows of different
identifiers share a place. Pages are cut from it one after another, each with one row more looked up
than it shows, so the pages put together are the listing, and a page knows whether it is the last.
The values to choose from, part by part of the keys, are those that the listing of active rows
shows.
-/

namespace Entitlements

open Time Call

/-! ### What is listed -/

/-- Does a row meet everything that a filter asks for? -/
@[mk_iff] structure CatalogFilter.Admits (f : CatalogFilter) (r : PermissionRow) : Prop where
  domain : ∀ text, f.domain = some text → text ≠ "" → r.key.domain = text
  equipment : ∀ text, f.equipment = some text → text ≠ "" → r.key.equipment = text
  location : ∀ text, f.location = some text → text ≠ "" → r.key.location = text
  action : ∀ text, f.action = some text → text ≠ "" → r.key.action = text
  isActive : ∀ b, f.isActive = some b → r.isActive = b

theorem Given.all_nonempty?_iff {given : Given} {actual : String} :
    given.nonempty?.all (· == actual) = true ↔
      ∀ text, given = some text → text ≠ "" → actual = text := by
  rcases given with _ | text
  · simp [nonempty?]
  · by_cases h : text = ""
    · simp [nonempty?, h]
    · simp [nonempty?, h, eq_comm (a := text)]

theorem CatalogFilter.accepts_iff {f : CatalogFilter} {r : PermissionRow} :
    f.accepts r = true ↔ f.Admits r := by
  have hactive : f.isActive.all (· == r.isActive) = true ↔
      ∀ b, f.isActive = some b → r.isActive = b := by
    cases f.isActive <;> simp [eq_comm (a := r.isActive)]
  rw [admits_iff, accepts, Bool.and_eq_true, Bool.and_eq_true, Bool.and_eq_true,
    Bool.and_eq_true, Given.all_nonempty?_iff, Given.all_nonempty?_iff, Given.all_nonempty?_iff,
    Given.all_nonempty?_iff, hactive, and_assoc, and_assoc, and_assoc]

theorem PermissionRow.isVisibleTo_iff {tenant : Given} {r : PermissionRow} :
    r.isVisibleTo tenant = true ↔ r.tenant = none ∨ r.tenant = tenant := by
  simp [isVisibleTo]

/-- Where a row stands: by the parts of its key, own rows before global ones, then by identifier. -/
def PermissionRow.place (r : PermissionRow) :
    String ×ₗ String ×ₗ String ×ₗ String ×ₗ Bool ×ₗ String :=
  toLex (r.key.domain, toLex (r.key.equipment, toLex (r.key.location, toLex (r.key.action,
    toLex (r.tenant.isNone, r.id)))))

/-- Are the rows of a listing those that a caller sees and asks for, each as often as the table has
it, and in their places? -/
structure CatalogFilter.Lists (f : CatalogFilter) (tenant : Given)
    (table rows : List PermissionRow) : Prop where
  only : ∀ r ∈ rows, (r.tenant = none ∨ r.tenant = tenant) ∧ f.Admits r
  once : ∀ r, (r.tenant = none ∨ r.tenant = tenant) → f.Admits r → rows.count r = table.count r
  order : rows.Pairwise fun a b => a.place ≤ b.place

theorem Store.lists_catalog (s : Store) (tenant : Given) (f : CatalogFilter) :
    f.Lists tenant s.permissions (s.catalog tenant f) where
  only r hr := by
    have hlisted := (List.mem_filter.1 (List.mem_mergeSort.1 hr)).2
    rwa [Bool.and_eq_true, PermissionRow.isVisibleTo_iff, CatalogFilter.accepts_iff] at hlisted
  once r hvisible hadmitted := by
    rw [catalog, (List.mergeSort_perm _ _).count_eq, List.count_filter]
    rw [Bool.and_eq_true, PermissionRow.isVisibleTo_iff, CatalogFilter.accepts_iff]
    exact ⟨hvisible, hadmitted⟩
  order := pairwise_mergeSort_of_key PermissionRow.le_iff _

/-! ### Pages -/

/-- Pieces of one length, cut off one after another, make up what they were cut from. -/
theorem flatMap_range_take_drop (rows : List α) (limit count : Nat) :
    (List.range count).flatMap (fun k => (rows.drop (k * limit)).take limit) =
      rows.take (count * limit) := by
  induction count with
  | zero => simp
  | succ count ih =>
    rw [List.range_succ, List.flatMap_append, ih, List.flatMap_singleton, Nat.succ_mul,
      List.take_add]

/-- A number that is not larger than one that the table can take. -/
theorem isTableInteger_of_le {m n : Nat} (h : m ≤ n) (hn : isTableInteger n = true) :
    isTableInteger m = true := by
  simp only [isTableInteger, Decimal.isWordSized, Bool.and_eq_true, decide_eq_true_eq] at hn ⊢
  generalize (Decimal.twoTo 63 : Int) = bound at hn ⊢
  omega

namespace Catalog

variable (env : Environment) (e : Engine) (tenant : Given) (f : CatalogFilter)

/-- The row that is looked up beyond a page is there exactly if some row follows. -/
theorem outcome_list {offset limit : Nat} (hoffset : isTableInteger offset = true)
    (hlimit : isTableInteger (limit + 1) = true) :
    (list tenant f (some offset) limit).outcome env e =
      (.ok
        { items := ((e.store.catalog tenant f).drop offset).take limit
          offset := some offset, limit
          hasMore := decide (offset + limit < (e.store.catalog tenant f).length) }, e) := by
  have hcount : (0 : Int) ≤ (limit : Int) + 1 := by omega
  have hnat : ((limit : Int) + 1).toNat = limit + 1 := by omega
  have hrange : ([(offset : Int)] ++ [(limit : Int) + 1]).all isTableInteger = true := by
    rw [List.all_append, List.all_cons, List.all_cons, hoffset, hlimit]
    rfl
  have hwindow : (window (some (offset : Int)) (some ((limit : Int) + 1))
      (e.store.catalog tenant f)).outcome env e =
      (.ok (((e.store.catalog tenant f).drop offset).take (limit + 1)), e) := by
    rw [window, Option.toList_some, Option.toList_some, if_pos hrange, outcome_pure, page,
      Option.getD_some, Int.toNat_natCast, if_pos hcount, hnat]
  have hitems : upTo (some (limit : Int))
      (((e.store.catalog tenant f).drop offset).take (limit + 1)) =
        ((e.store.catalog tenant f).drop offset).take limit := by
    rw [upTo, if_pos (Int.natCast_nonneg limit), Int.toNat_natCast, List.take_take,
      Nat.min_eq_left (Nat.le_succ limit)]
  have hmore : decide ((limit : Int) <
      (((e.store.catalog tenant f).drop offset).take (limit + 1)).length) =
        decide (offset + limit < (e.store.catalog tenant f).length) := by
    rw [decide_eq_decide, List.length_take, List.length_drop]
    omega
  rw [list, outcome_bind, outcome_store, andThen_ok, outcome_bind, hwindow, andThen_ok,
    outcome_pure, hitems, hmore]

theorem outcome_list_outOfRange {offset limit : Int}
    (h : (isTableInteger offset && isTableInteger (limit + 1)) = false) :
    (list tenant f (some offset) limit).outcome env e = (.error .outOfRange, e) := by
  have hwindow : (window (some offset) (some (limit + 1)) (e.store.catalog tenant f)).outcome
      env e = (.error .outOfRange, e) := by
    simp [window, h]
  simp [list, hwindow]

/-! ### Values to choose from -/

/-- Are texts, in strictly ascending order, the values of one part of the keys in some rows? -/
structure ShowsValues (rows : List PermissionRow) (part : DomainKey → String)
    (values : List String) : Prop where
  ascending : values.Pairwise (· < ·)
  mem_iff : ∀ v, v ∈ values ↔ ∃ r ∈ rows, part r.key = v

theorem showsValues_catalogValues (s : Store) (part : DomainKey → String) :
    ShowsValues (s.catalog tenant f) part (s.catalogValues tenant f part) where
  ascending := pairwise_lt_sortTexts (nodup_distinct _)
  mem_iff v := by simp [Store.catalogValues]

theorem ShowsValues.congr {rows others : List PermissionRow} {part : DomainKey → String}
    {values : List String} (h : ShowsValues rows part values) (hmem : ∀ r, r ∈ others ↔ r ∈ rows) :
    ShowsValues others part values where
  ascending := h.ascending
  mem_iff v := by simp only [h.mem_iff, hmem]

/-- A filter that asks for more restricts the listing further. -/
theorem mem_catalog_restricted {s : Store} {g : CatalogFilter} {p : PermissionRow → Bool}
    (hp : ∀ r, g.Admits r ↔ f.Admits r ∧ p r = true) (r : PermissionRow) :
    r ∈ (s.catalog tenant f).filter p ↔ r ∈ s.catalog tenant g := by
  simp only [Store.catalog, List.mem_filter, List.mem_mergeSort, Bool.and_eq_true,
    CatalogFilter.accepts_iff, hp, and_assoc]

theorem admits_domain {d : String} (hd : d ≠ "") (r : PermissionRow) :
    { activeFilter with domain := some d }.Admits r ↔
      activeFilter.Admits r ∧ (r.key.domain == d) = true := by
  simp [CatalogFilter.admits_iff, activeFilter, CatalogFilter.all, hd, and_comm]

theorem admits_equipment {d unit : String} (hd : d ≠ "") (hunit : unit ≠ "") (r : PermissionRow) :
    { activeFilter with domain := some d, equipment := some unit }.Admits r ↔
      activeFilter.Admits r ∧ (r.key.domain == d && r.key.equipment == unit) = true := by
  simp [CatalogFilter.admits_iff, activeFilter, CatalogFilter.all, hd, hunit, and_comm,
    and_left_comm]

/-! ### Listings, pages and values -/

/-- What a filter asks for is listed in order, each row of it once. The pages of a size make up the
listing, and each says whether something follows it; only numbers beyond the range of the table are
refused. A page asks the table for one row more than its limit, so the range ends for a limit one
below the largest integer of the table. And the values to choose from are those in the listing of
active rows, restricted to what has been chosen before. -/
theorem pages_make_up_listing :
    f.Lists tenant e.store.permissions (e.store.catalog tenant f) ∧
      (∀ limit : Nat, 1 ≤ limit → isTableInteger (limit + 1) = true →
        ∃ pages : Nat → PermissionPage,
          (∀ k, isTableInteger (k * limit : Nat) = true →
            (list tenant f (some (k * limit : Nat)) limit).outcome env e = (.ok (pages k), e)) ∧
          (∀ k, ∃ following,
            e.store.catalog tenant f =
              (e.store.catalog tenant f).take (k * limit) ++ (pages k).items ++ following ∧
            (pages k).items.length ≤ limit ∧ ((pages k).hasMore = true ↔ following ≠ [])) ∧
          (∀ count, (e.store.catalog tenant f).length ≤ count * limit →
            (List.range count).flatMap (fun k => (pages k).items) = e.store.catalog tenant f) ∧
          (isTableInteger (e.store.catalog tenant f).length = true →
            ∃ count, (e.store.catalog tenant f).length ≤ count * limit ∧
              ∀ k < count, isTableInteger (k * limit : Nat) = true)) ∧
      (∀ offset limit : Int, (isTableInteger offset && isTableInteger (limit + 1)) = false →
        (list tenant f (some offset) limit).outcome env e = (.error .outOfRange, e)) ∧
      ∃ actives, (active tenant).outcome env e = (.ok actives, e) ∧
        activeFilter.Lists tenant e.store.permissions actives ∧
        (∃ names, (domains tenant).outcome env e = (.ok names, e) ∧
          ShowsValues actives (·.domain) names) ∧
        (∀ d, d ≠ "" → ∃ names, (equipment tenant (some d)).outcome env e = (.ok names, e) ∧
          ShowsValues (actives.filter (·.key.domain == d)) (·.equipment) names) ∧
        ∀ d unit, d ≠ "" → unit ≠ "" →
          ∃ names, (locations tenant (some d) (some unit)).outcome env e = (.ok names, e) ∧
            ShowsValues (actives.filter fun r => r.key.domain == d && r.key.equipment == unit)
              (·.location) names := by
  refine ⟨e.store.lists_catalog tenant f, fun limit hpos hlimit => ?_,
    fun offset limit h => outcome_list_outOfRange env e tenant f h,
    e.store.catalog tenant activeFilter, rfl, e.store.lists_catalog tenant activeFilter,
    ⟨_, rfl, showsValues_catalogValues tenant _ _ _⟩, fun d hd => ⟨_, rfl, ?_⟩,
    fun d unit hd hunit => ⟨_, rfl, ?_⟩⟩
  · generalize hrows : e.store.catalog tenant f = rows
    refine ⟨fun k =>
      { items := (rows.drop (k * limit)).take limit, offset := some (k * limit : Nat), limit
        hasMore := decide (k * limit + limit < rows.length) }, ?_, ?_, ?_, ?_⟩
    · intro k hk
      rw [outcome_list env e tenant f hk hlimit, hrows]
    · intro k
      refine ⟨(rows.drop (k * limit)).drop limit, ?_, List.length_take_le _ _, ?_⟩
      · rw [List.append_assoc, List.take_append_drop, List.take_append_drop]
      · rw [decide_eq_true_eq, List.drop_drop, Ne, List.drop_eq_nil_iff, Nat.not_le]
    · intro count hcount
      rw [flatMap_range_take_drop, List.take_of_length_le hcount]
    · -- As many pages as fit into the listing, and one more for what is left.
      intro hlength
      refine ⟨rows.length / limit + 1, Nat.le_of_lt ?_, fun k hk => ?_⟩
      · exact Nat.lt_mul_of_div_lt (Nat.lt_succ_self _) hpos
      · exact isTableInteger_of_le
          ((Nat.le_div_iff_mul_le hpos).1 (Nat.le_of_lt_succ hk)) hlength
  · exact (showsValues_catalogValues tenant _ _ _).congr
      (mem_catalog_restricted tenant _ (admits_domain hd))
  · exact (showsValues_catalogValues tenant _ _ _).congr
      (mem_catalog_restricted tenant _ (admits_equipment hd hunit))

end Catalog

/-- A registered permission of low risk. -/
def PermissionRow.plain (id : String) (tenant : Given) (key : DomainKey) : PermissionRow :=
  { id, tenant, key, displayName := none, description := none, risk := .low, isActive := true
    updatedAt := ⟨0⟩ }

/-- One key of a tenant that the platform has too, one of the tenant alone, and one of another
tenant. -/
def Engine.catalogued : Engine :=
  { Engine.start ⟨0⟩ false with store := { Store.empty with permissions := [
    .plain "dp-0001" none ⟨"hvac", "fan", "roof", "start"⟩,
    .plain "dp-0002" (some "acme") ⟨"hvac", "fan", "roof", "start"⟩,
    .plain "dp-0003" (some "globex") ⟨"doors", "gate", "yard", "open"⟩,
    .plain "dp-0004" (some "acme") ⟨"alarms", "panel", "lobby", "read"⟩] } }

theorem Store.catalog_catalogued : Engine.catalogued.store.catalog (some "acme") .all =
    [.plain "dp-0004" (some "acme") ⟨"alarms", "panel", "lobby", "read"⟩,
      .plain "dp-0002" (some "acme") ⟨"hvac", "fan", "roof", "start"⟩,
      .plain "dp-0001" none ⟨"hvac", "fan", "roof", "start"⟩] := by
  have hperm : (Engine.catalogued.store.permissions.filter fun r =>
      r.isVisibleTo (some "acme") && CatalogFilter.all.accepts r).Perm
      [.plain "dp-0004" (some "acme") ⟨"alarms", "panel", "lobby", "read"⟩,
        .plain "dp-0002" (some "acme") ⟨"hvac", "fan", "roof", "start"⟩,
        .plain "dp-0001" none ⟨"hvac", "fan", "roof", "start"⟩] := by decide
  rw [catalog, mergeSort_eq_of_perm PermissionRow.place PermissionRow.le_iff (by decide) hperm]
  exact List.mergeSort_of_pairwise (by decide)

/-- Two pages of at most two rows, the tenant's own row of the shared key on the first of them, and
where there are fans. -/
theorem Catalog.own_row_comes_first :
    isTableInteger (2 + 1) = true ∧ "hvac" ≠ "" ∧ "fan" ≠ "" ∧
      (∃ first second : PermissionPage,
        (list (some "acme") .all (some 0) 2).outcome Environment.plain Engine.catalogued =
          (.ok first, Engine.catalogued) ∧
        (list (some "acme") .all (some 2) 2).outcome Environment.plain Engine.catalogued =
          (.ok second, Engine.catalogued) ∧
        (first.items ++ second.items).map (·.id) = ["dp-0004", "dp-0002", "dp-0001"] ∧
        first.hasMore = true) ∧
      ∃ names, (locations (some "acme") (some "hvac") (some "fan")).outcome Environment.plain
          Engine.catalogued = (.ok names, Engine.catalogued) ∧ "roof" ∈ names := by
  have hlimit : isTableInteger (2 + 1) = true := by decide
  have hdomain : "hvac" ≠ "" := by decide
  have hunit : "fan" ≠ "" := by decide
  obtain ⟨-, hpages, -, actives, -, hactives, -, -, hlocations⟩ := pages_make_up_listing
    Environment.plain Engine.catalogued (some "acme") .all
  obtain ⟨pages, hlist, hcut, hall, -⟩ := hpages 2 (by decide) hlimit
  obtain ⟨names, hnames, hvalues⟩ := hlocations "hvac" "fan" hdomain hunit
  refine ⟨hlimit, hdomain, hunit, ⟨pages 0, pages 1, hlist 0 (by decide), hlist 1 (by decide),
    ?_, ?_⟩, names, hnames, ?_⟩
  · have hboth := hall 2 (by rw [Store.catalog_catalogued]; decide)
    rw [Store.catalog_catalogued] at hboth
    simpa [List.range_succ, PermissionRow.plain] using congrArg (List.map (·.id)) hboth
  · obtain ⟨following, hrows, hshort, hmore⟩ := hcut 0
    refine hmore.2 ?_
    rintro rfl
    rw [Store.catalog_catalogued] at hrows
    have hlength := congrArg List.length hrows
    simp only [List.length_append, List.length_cons, List.length_nil, List.length_take] at hlength
    omega
  · -- The tenant's fan is active, so the listing has it.
    have hcount := hactives.once (.plain "dp-0002" (some "acme") ⟨"hvac", "fan", "roof", "start"⟩)
      (.inr rfl) ⟨nofun, nofun, nofun, nofun, fun b hb => Option.some.inj hb⟩
    have hlisted := List.count_pos_iff.1 (Nat.lt_of_lt_of_eq (by decide) hcount.symm)
    exact (hvalues.mem_iff "roof").2 ⟨_, List.mem_filter.2 ⟨hlisted, rfl⟩, rfl⟩

end Entitlements
