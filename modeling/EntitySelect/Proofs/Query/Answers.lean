import EntitySelect.Proofs.Query.Matching
import Mathlib.Data.List.Perm.Basic

/-! The rows that a statement for a query gives, told by the rows of the base table. Each row of the
base table that fulfils the conditions is there, and where the number of rows matters it is there
once. -/
namespace EntitySelect

namespace Layout

/-- Where the base table has all entity properties, whatever is joined is a table of field
values. -/
theorem addsFieldTable_eq {layout : Layout} {rs : List Request} {j : Joining}
    (hentity : ∀ r ∈ rs, r.place.source = .entityTable → layout.atBase r.place = true) :
    layout.addsFieldTable rs j = rs.any fun r =>
      !layout.atBase r.place && (j.registry.get? r.place.table r.langcode).isNone := by
  induction rs generalizing j with
  | nil => rfl
  | cons r rs ih =>
    have hrest := ih (j := j) fun r' hr' => hentity r' (List.mem_cons_of_mem _ hr')
    rw [addsFieldTable, List.any_cons]
    rcases layout.enter_cases r j with ⟨hbase, he⟩ | ⟨hbase, _, hget, he⟩ | ⟨hbase, hget, he⟩
    · simp only [he, hbase, hrest, Bool.not_true, Bool.false_and]
    · simp only [he, hbase, hget, hrest, Option.isNone_some, Bool.and_false]
    · -- a new table is not for an entity property, since that would be at the base table
      cases hsource : r.place.source with
      | entityTable =>
        rw [hentity r List.mem_cons_self hsource] at hbase
        cases hbase
      | fieldTable => simp [he, hbase, hget, hsource]

/-- Nothing is joined for properties of the base table. -/
theorem enterAll_eq_self {layout : Layout} {rs : List Request} {j : Joining}
    (h : ∀ r ∈ rs, layout.atBase r.place = true) : layout.enterAll rs j = j := by
  induction rs generalizing j with
  | nil => rfl
  | cons r rs ih =>
    obtain ⟨hr, hrs⟩ := List.forall_mem_cons.1 h
    rw [enterAll_cons]
    rcases layout.enter_cases r j with ⟨-, he⟩ | ⟨hbase, -⟩ | ⟨hbase, -⟩
    · rw [he]
      exact ih hrs
    · rw [hr] at hbase
      cases hbase
    · rw [hr] at hbase
      cases hbase

end Layout

open Classical in
/-- The keys and ids of the rows of the base table that fulfil the conditions, in the order of the
table. -/
noncomputable def Query.matching (q : Query) (t : EntityType) (base : String) (catalog : Catalog)
    (d : Dataset) : List (UInt64 × UInt64) :=
  ((d.tableRows base).filter fun b => q.Matches t base catalog d b).map t.keys.pair

theorem Query.keys_matching_sublist (q : Query) (t : EntityType) (base : String)
    (catalog : Catalog) (d : Dataset) : ((q.matching t base catalog d).map (·.1)).Sublist
      ((d.tableRows base).map fun b => (t.keys.pair b).1) := by
  have hsub : (q.matching t base catalog d).Sublist ((d.tableRows base).map t.keys.pair) :=
    List.filter_sublist.map t.keys.pair
  have hkeys := hsub.map (·.1)
  rwa [List.map_map] at hkeys

/-- How often a row of the base table is in the result. -/
def Compiled.times (c : Compiled) (d : Dataset) (b : Record) : Nat :=
  if c.simple then (d.block c.statement b).length else min 1 (d.block c.statement b).length

theorem Compiled.times_ne_zero_iff {c : Compiled} {d : Dataset} {b : Record} :
    c.times d b ≠ 0 ↔ d.block c.statement b ≠ [] := by
  rw [times, ← List.length_pos_iff]
  split <;> omega

/-- The columns that tell the rows of a result apart, which grouping goes by. -/
def EntityKeys.grouping (k : EntityKeys) : List Column :=
  ⟨baseLabel, k.row⟩ :: k.revision.toList.map fun _ => ⟨baseLabel, k.id⟩

theorem EntityKeys.table_of_mem_grouping {k : EntityKeys} {column : Column}
    (h : column ∈ k.grouping) : column.table = baseLabel := by
  rcases List.mem_cons.1 h with rfl | h
  · rfl
  · obtain ⟨-, -, rfl⟩ := List.mem_map.1 h
    rfl

namespace Query
variable {q : Query} {t : EntityType} {base : String} {catalog : Catalog}

/-- Without a data table the base table has all entity properties. -/
theorem atBase_of_untranslatable (h : t.isTranslatable = false) : ∀ r ∈ q.requests t base catalog,
    r.place.source = .entityTable → (q.placement t base catalog).atBase r.place = true := by
  intro r hr hsource
  have htables : (q.placement t base catalog).entityTables = [base] := by
    have hdata : t.dataTable = none := by
      rwa [EntityType.isTranslatable, Option.isSome_eq_false_iff, Option.isNone_iff_eq_none] at h
    simp [EntityType.layout, hdata]
  obtain ⟨field, hplace⟩ := locate_of_mem_requests hr
  have htable := (Layout.holds_of_locate hplace).table_mem hsource
  rw [htables, List.mem_singleton] at htable
  exact atBase_iff.2 ⟨hsource, htable⟩

end Query

namespace CompiledAs
variable {q : Query} {t : EntityType} {base : String} {catalog : Catalog} {c : Compiled}
  {d : Dataset}

/-- Rows are not grouped if nothing has to be joined, or if their number does not matter. -/
theorem simple_eq (h : CompiledAs q t base catalog c) : c.simple =
    (!t.isTranslatable && (q.requests t base catalog).all
      (fun r => (q.placement t base catalog).atBase r.place) || !q.needsExactRows) := by
  rw [h.simple]
  cases htranslatable : t.isTranslatable with
  | true => rfl
  | false =>
    rw [Layout.addsFieldTable_eq (Query.atBase_of_untranslatable htranslatable)]
    have hnone (r : Request) :
        ({ statement := (q.start t base).2 } : Joining).registry.get? r.place.table r.langcode =
          none := rfl
    simp only [hnone, Option.isNone_none, Bool.and_true, List.not_any_eq_all_not, Bool.not_not]

/-- Where the number of rows matters, a statement that does not group has no joins. -/
theorem joins_eq_nil (h : CompiledAs q t base catalog c) (hsimple : c.simple = true)
    (hexact : q.needsExactRows = true) : c.statement.joins = [] := by
  have hbase := h.simple_eq
  rw [hsimple, hexact, Bool.not_true, Bool.or_false, eq_comm, Bool.and_eq_true,
    List.all_eq_true] at hbase
  rw [h.joins, Query.joined, Layout.enterAll_eq_self hbase.2]
  rfl

theorem times_le_one (h : CompiledAs q t base catalog c) (hexact : q.needsExactRows = true)
    (b : Record) : c.times d b ≤ 1 := by
  unfold Compiled.times
  split
  · next hsimple =>
    rw [Dataset.block, h.joins_eq_nil hsimple hexact, Dataset.expand]
    exact List.length_filter_le ..
  · omega

/-- The columns that a statement groups by are those of the key. -/
theorem groupColumns_eq (h : CompiledAs q t base catalog c) (hsimple : c.simple = false) :
    Dataset.groupColumns c.statement = .ok t.keys.grouping := by
  obtain ⟨key, value, hne, hfields, hgroup⟩ := h.keys
  rw [hsimple, if_neg Bool.false_ne_true] at hgroup
  have hkey : c.statement.field? key = some ⟨⟨baseLabel, t.keys.row⟩, key⟩ := by
    simp [Select.field?, hfields]
  have hvalue : c.statement.field? value = some ⟨⟨baseLabel, t.keys.id⟩, value⟩ := by
    simp [Select.field?, hfields, hne]
  rw [Dataset.groupColumns, hgroup, EntityKeys.grouping]
  cases t.keys.revision with
  | none => simp [hkey, pure, Except.pure, bind, Except.bind]
  | some revision => simp [hkey, hvalue, pure, Except.pure, bind, Except.bind]

/-- All that is joined to a row of the base table has the key of that row. -/
theorem map_read_grouping (h : CompiledAs q t base catalog c) {b : Record} {s : Scope}
    (hs : s ∈ d.block c.statement b) :
    t.keys.grouping.map s.read = t.keys.grouping.map fun column => Record.value b column.name := by
  apply List.map_congr_left
  intro column hcolumn
  rw [Scope.read, EntityKeys.table_of_mem_grouping hcolumn, h.lookup_base hs]
  rfl

/-- A statement that does not group makes a row of everything that is joined. -/
theorem group_of_simple (h : CompiledAs q t base catalog c) (hsimple : c.simple = true)
    (scopes : List Scope) :
    Dataset.group c.statement scopes = .ok (scopes.map fun s => ⟨s, []⟩) := by
  obtain ⟨key, value, -, -, hgroup⟩ := h.keys
  rw [hsimple, if_pos rfl] at hgroup
  unfold Dataset.group
  rw [hgroup, h.expressions hsimple]
  rfl

theorem group_of_complex (h : CompiledAs q t base catalog c) (hsimple : c.simple = false)
    (scopes : List Scope) :
    Dataset.group c.statement scopes = .ok (Dataset.groupBy t.keys.grouping scopes) := by
  obtain ⟨key, value, -, -, hgroup⟩ := h.keys
  rw [hsimple, if_neg Bool.false_ne_true] at hgroup
  unfold Dataset.group
  rw [hgroup, h.groupColumns_eq hsimple]
  rfl

/-- Each row of the base table with a block is a group of its own in a statement that groups. -/
theorem group_eq (h : CompiledAs q t base catalog c) {rows : List Record}
    (hkeyed : Keyed t.keys rows) :
    Dataset.group c.statement (rows.flatMap (d.block c.statement)) =
      .ok (if c.simple then (rows.flatMap (d.block c.statement)).map fun s => ⟨s, []⟩
        else rows.filterMap fun b => Group.ofScopes? (d.block c.statement b)) := by
  cases hsimple : c.simple with
  | true => exact h.group_of_simple hsimple _
  | false =>
    have hapart : (rows.map fun b => t.keys.grouping.map fun column =>
        Record.value b column.name).Nodup := by
      apply List.Nodup.of_map (·.headD .null)
      rw [List.map_map]
      exact hkeyed.values_apart
    rw [h.group_of_complex hsimple]
    exact congrArg Except.ok (Dataset.groupBy_flatMap hapart fun b _ s hs => h.map_read_grouping hs)

/-- All that is joined to a row of the base table gives the key and the id of that row. -/
theorem pair?_of_mem_block (h : CompiledAs q t base catalog c) {b : Record} {g : Group}
    (hg : g.first ∈ d.block c.statement b) :
    Row.pair? (g.values c.statement) = t.keys.pair? b := by
  obtain ⟨key, value, -, hfields, -⟩ := h.keys
  have hread (column : String) : g.first.read ⟨baseLabel, column⟩ = Record.value b column := by
    rw [Scope.read, h.lookup_base hg]
    rfl
  rw [Group.values, hfields, List.map_cons, List.map_cons, hread, hread]
  rfl

theorem pair?_values (h : CompiledAs q t base catalog c) {rows : List Record}
    (hkeyed : Keyed t.keys rows) {b : Record} (hb : b ∈ rows) {g : Group}
    (hg : g.first ∈ d.block c.statement b) :
    Row.pair? (g.values c.statement) = some (t.keys.pair b) :=
  (h.pair?_of_mem_block hg).trans (hkeyed.pair?_eq hb)

/-- The keys and ids of the result before ordering, row by row of the base table. -/
theorem pairs_of_group (h : CompiledAs q t base catalog c) {rows : List Record}
    (hkeyed : Keyed t.keys rows) {groups : List Group}
    (hgroup : Dataset.group c.statement (rows.flatMap (d.block c.statement)) = .ok groups) :
    groups.map (fun g => Row.pair? (g.values c.statement)) =
      (rows.flatMap fun b => List.replicate (c.times d b) (t.keys.pair b)).map some := by
  rw [h.group_eq hkeyed] at hgroup
  obtain rfl := Except.ok.inj hgroup
  cases hsimple : c.simple with
  | true =>
    rw [if_pos rfl, List.map_map, List.map_flatMap, List.map_flatMap]
    apply List.flatMap_congr
    intro b hb
    have hall : ∀ s ∈ d.block c.statement b,
        Row.pair? (Group.values ⟨s, []⟩ c.statement) = some (t.keys.pair b) :=
      fun s hs => h.pair?_values hkeyed hb hs
    rw [Compiled.times, hsimple, if_pos rfl, List.map_replicate]
    exact List.map_eq_replicate_iff.2 hall
  | false =>
    rw [if_neg Bool.false_ne_true, List.map_filterMap, List.map_flatMap,
      List.filterMap_eq_flatMap_toList]
    apply List.flatMap_congr
    intro b hb
    rw [Compiled.times, hsimple, if_neg Bool.false_ne_true]
    cases hblock : d.block c.statement b with
    | nil => rfl
    | cons first rest =>
      have hfirst : first ∈ d.block c.statement b := hblock ▸ List.mem_cons_self
      have hvalues := h.pair?_values hkeyed hb (show Group.first ⟨first, rest⟩ ∈ _ from hfirst)
      rw [Group.ofScopes?, Option.map_some, hvalues, List.length_cons,
        Nat.min_eq_left (Nat.le_add_left 1 rest.length)]
      rfl

open Classical in
/-- The rows that are in the result at all are those that fulfil the conditions. -/
theorem map_filter_times (h : CompiledAs q t base catalog c) :
    ((d.tableRows base).filter (c.times d · != 0)).map t.keys.pair =
      q.matching t base catalog d := by
  rw [Query.matching]
  refine congrArg (List.map t.keys.pair) (List.filter_congr ?_)
  intro b _
  rw [Bool.eq_iff_iff, bne_iff_ne, decide_eq_true_iff, Compiled.times_ne_zero_iff,
    h.block_ne_nil_iff]

/-- Where the number of rows matters, each of them is there once. -/
theorem blocks_eq_matching (h : CompiledAs q t base catalog c) (hexact : q.needsExactRows = true) :
    (d.tableRows base).flatMap (fun b => List.replicate (c.times d b) (t.keys.pair b)) =
      q.matching t base catalog d := by
  rw [KeyedIds.flatMap_replicate_of_le_one (h.times_le_one hexact), h.map_filter_times]

/-- Without orderings the rows are counted as they are given. -/
theorem fetchCount_eq (h : CompiledAs q t base catalog c) (hunsorted : q.activeSorts = []) :
    d.fetchCount c.statement.countQuery = (d.fetchAll c.statement).map List.length := by
  have hinner : c.statement.countQuery.inner = c.statement := by
    change { c.statement with orders := [] } = c.statement
    rw [← (h.unsorted hunsorted).2]
  rw [Dataset.fetchCount, hinner]

/-- A statement that gives rows gives them in some order, and its window cuts that. -/
theorem pairs_of_fetchAll (h : CompiledAs q t base catalog c)
    (hkeyed : Keyed t.keys (d.tableRows base)) {out : List Row}
    (hout : d.fetchAll c.statement = .ok out) :
    ∃ (sorted : List Row) (ps : List (UInt64 × UInt64)), sorted.map Row.pair? = ps.map some ∧
      ps.Perm ((d.tableRows base).flatMap fun b =>
        List.replicate (c.times d b) (t.keys.pair b)) ∧
      ∀ w?, d.fetchAll { c.statement with window := w? } = .ok (Window.cut w? sorted) := by
  obtain ⟨hlabels, scopes, groups, rows, hscopes, hgroup, hrows, -⟩ :=
    Dataset.fetchAll_eq_ok_iff.1 hout
  have hblocks := (Dataset.scopes_eq_ok_iff.1 hscopes).2
  rw [h.table] at hblocks
  rw [hblocks] at hgroup
  have hvalues : rows.map (fun r => Row.pair? r.values) =
      groups.map fun g => Row.pair? (g.values c.statement) := by
    have hmap := congrArg (List.map Row.pair?) (Group.map_values_of_mapM_row hrows)
    rwa [List.map_map, List.map_map] at hmap
  have hperm : (((sortRows (c.statement.orders.map (·.direction)) rows).map (·.values)).map
      Row.pair?).Perm (((d.tableRows base).flatMap fun b =>
        List.replicate (c.times d b) (t.keys.pair b)).map some) := by
    rw [List.map_map, ← h.pairs_of_group hkeyed hgroup, ← hvalues]
    exact (sortRows_perm _ rows).map _
  obtain ⟨ps, hps, hpsperm⟩ :=
    (iff_of_eq (congrFun (congrFun (List.eq_map_comp_perm some) _) _)).2 hperm
  refine ⟨_, ps, hps, hpsperm, ?_⟩
  intro w?
  rw [← hblocks] at hgroup
  exact Dataset.fetchAll_eq_ok_iff.2 ⟨hlabels, scopes, groups, rows, hscopes, hgroup, hrows, rfl⟩

/-- The rows that its own window shows. -/
theorem pairs_of_cut (h : CompiledAs q t base catalog c)
    (hkeyed : Keyed t.keys (d.tableRows base)) {rows : List Row}
    (hrows : d.fetchAll c.statement = .ok rows) :
    ∃ ps : List (UInt64 × UInt64),
      rows.map Row.pair? = (Window.cut q.effectiveWindow ps).map some ∧
      ps.Perm ((d.tableRows base).flatMap fun b =>
        List.replicate (c.times d b) (t.keys.pair b)) := by
  obtain ⟨sorted, ps, hps, hperm, hcut⟩ := h.pairs_of_fetchAll hkeyed hrows
  have hsame : ({ c.statement with window := q.effectiveWindow } : Select) = c.statement := by
    rw [← h.window]
  have hshown := hcut q.effectiveWindow
  rw [hsame, hrows] at hshown
  obtain rfl := Except.ok.inj hshown
  exact ⟨ps, by rw [Window.map_cut, hps, ← Window.map_cut], hperm⟩

/-- Without a window they are given as they are. -/
theorem pairs_of_uncut (h : CompiledAs q t base catalog c)
    (hkeyed : Keyed t.keys (d.tableRows base)) (hwindow : q.effectiveWindow = none)
    {rows : List Row} (hrows : d.fetchAll c.statement = .ok rows) :
    ∃ ps : List (UInt64 × UInt64), rows.map Row.pair? = ps.map some ∧
      ps.Perm ((d.tableRows base).flatMap fun b =>
        List.replicate (c.times d b) (t.keys.pair b)) := by
  have hcut := h.pairs_of_cut hkeyed hrows
  rwa [hwindow] at hcut

end CompiledAs
end EntitySelect
