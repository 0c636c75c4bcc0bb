import EntitySelect.Proofs.Condition.Truth
import EntitySelect.Proofs.Query.KeyedRows
import EntitySelect.Query.Compiled

/-! The statement that a query compiles to, clause by clause. -/
namespace EntitySelect

/-- What an ordering asks for; an ordering by a key column asks for nothing. -/
def Sorting.request? (layout : Layout) (catalog : Catalog) (keys : KeyColumns) (s : Sorting) :
    Option Request :=
  match keys.label? s.field, layout.locate catalog s.field with
  | none, .ok (some place) => some ⟨place, .left, s.langcode⟩
  | _, _ => none

namespace Select

def ungrouped (s : Select) : Select := { s with groupBy := [] }

/-- A statement without the clauses that group and order its rows. -/
def body (s : Select) : Select := { s.ungrouped with expressions := [], orders := [] }

theorem ungrouped_foldl_addGroupBy (labels : List String) (s : Select) :
    (labels.foldl addGroupBy s).ungrouped = s.ungrouped := by
  induction labels generalizing s with
  | nil => rfl
  | cons label rest ih =>
    rw [List.foldl_cons, ih, addGroupBy]
    split <;> rfl

/-- Labels that differ are grouped by one after the other. -/
theorem groupBy_foldl_addGroupBy {labels : List String} {s : Select}
    (h : (s.groupBy ++ labels).Nodup) :
    (labels.foldl addGroupBy s).groupBy = s.groupBy ++ labels := by
  induction labels generalizing s with
  | nil => simp
  | cons label rest ih =>
    have hnew : label ∉ s.groupBy := by
      intro hmem
      exact (List.nodup_append.1 h).2.2 label hmem label List.mem_cons_self rfl
    have hadd : (s.addGroupBy label).groupBy = s.groupBy ++ [label] := by
      rw [addGroupBy, if_neg hnew]
    rw [List.foldl_cons, ih, hadd, List.append_assoc, List.singleton_append]
    rwa [hadd, List.append_assoc, List.singleton_append]

end Select

namespace ResolvedSort

@[simp] theorem body_orderBy (simple : Bool) (s : Select) (r : ResolvedSort) :
    (orderBy simple s r).body = s.body := by
  unfold orderBy
  split
  · rfl
  · split <;> rfl

@[simp] theorem groupBy_orderBy (simple : Bool) (s : Select) (r : ResolvedSort) :
    (orderBy simple s r).groupBy = s.groupBy := by
  unfold orderBy
  split
  · rfl
  · split <;> rfl

@[simp] theorem expressions_orderBy_of_simple (s : Select) (r : ResolvedSort) :
    (orderBy true s r).expressions = s.expressions := by
  unfold orderBy
  split <;> rfl

theorem body_foldl_orderBy (simple : Bool) (sorts : List ResolvedSort) (s : Select) :
    (sorts.foldl (orderBy simple) s).body = s.body := by
  induction sorts generalizing s with
  | nil => rfl
  | cons r rest ih => rw [List.foldl_cons, ih, body_orderBy]

theorem groupBy_foldl_orderBy (simple : Bool) (sorts : List ResolvedSort) (s : Select) :
    (sorts.foldl (orderBy simple) s).groupBy = s.groupBy := by
  induction sorts generalizing s with
  | nil => rfl
  | cons r rest ih => rw [List.foldl_cons, ih, groupBy_orderBy]

theorem expressions_foldl_orderBy_of_simple (sorts : List ResolvedSort) (s : Select) :
    (sorts.foldl (orderBy true) s).expressions = s.expressions := by
  induction sorts generalizing s with
  | nil => rfl
  | cons r rest ih => rw [List.foldl_cons, ih, expressions_orderBy_of_simple]

end ResolvedSort

namespace Query
variable (q : Query) (t : EntityType) (base : String) (catalog : Catalog)

/-- Where the properties of the query's entities are. -/
abbrev placement : Layout := t.layout q.entityType base catalog q.age

def conditionRequests : List Request :=
  q.conditions.toCondition.requests (q.placement t base catalog) catalog false

def sortRequests : List Request :=
  q.activeSorts.filterMap
    (Sorting.request? (q.placement t base catalog) catalog (q.start t base).1)

def requests : List Request := q.conditionRequests t base catalog ++ q.sortRequests t base catalog

/-- The joins that the query asks for, and nothing else. -/
def joined : Joining :=
  (q.placement t base catalog).enterAll (q.requests t base catalog)
    { statement := (q.start t base).2 }

end Query

/-- The statement of a compiled query. -/
structure CompiledAs (q : Query) (t : EntityType) (base : String) (catalog : Catalog)
    (c : Compiled) : Prop where
  ready : ∀ l ∈ q.conditions.leaves, l.Ready (q.placement t base catalog) catalog
  table : c.statement.table = base
  label : c.statement.label = baseLabel
  joins : c.statement.joins = (q.joined t base catalog).statement.joins
  condition : c.statement.condition = q.conditions.toCondition.clause fun l =>
    l.clause (l.column (q.placement t base catalog) catalog (q.joined t base catalog))
  window : c.statement.window = q.effectiveWindow
  /-- The row key and the id are selected, and complex statements are grouped by them. -/
  keys : ∃ key value, key ≠ value ∧
    c.statement.fields = [⟨⟨baseLabel, t.keys.row⟩, key⟩, ⟨⟨baseLabel, t.keys.id⟩, value⟩] ∧
    c.statement.groupBy =
      if c.simple then [] else key :: t.keys.revision.toList.map fun _ => value
  expressions : c.simple = true → c.statement.expressions = []
  unsorted : q.activeSorts = [] → c.statement.expressions = [] ∧ c.statement.orders = []
  count : c.count = q.count
  pager : c.pager = q.activePager
  simple : c.simple = (!t.isTranslatable && !(q.placement t base catalog).addsFieldTable
    (q.requests t base catalog) { statement := (q.start t base).2 } || !q.needsExactRows)

namespace Query
variable {q : Query} {t : EntityType} {base : String} {catalog : Catalog} {c : Compiled}

/-- Requests are for places that have been found. -/
theorem locate_of_mem_requests {r : Request} (h : r ∈ q.requests t base catalog) :
    ∃ field, (q.placement t base catalog).locate catalog field = .ok (some r.place) := by
  rcases List.mem_append.1 h with h | h
  · obtain ⟨⟨underOr, l⟩, -, hr⟩ := List.mem_filterMap.1 h
    unfold Leaf.request? at hr
    split at hr
    · next place hplace =>
      cases hr
      exact ⟨l.field, hplace⟩
    · cases hr
  · obtain ⟨s, -, hr⟩ := List.mem_filterMap.1 h
    unfold Sorting.request? at hr
    split at hr
    · next place _ hplace =>
      cases hr
      exact ⟨s.field, hplace⟩
    · cases hr

theorem gives_resolveSort {layout : Layout} {keys : KeyColumns} {s : Sorting} {r : ResolvedSort}
    {j k : Joining} (h : Gives (resolveSort layout catalog keys s) j r k) :
    k = layout.enterAll (s.request? layout catalog keys).toList j ∧
      r.source.addsFieldTable =
        layout.addsFieldTable (s.request? layout catalog keys).toList j := by
  unfold resolveSort at h
  cases hkey : keys.label? s.field with
  | some label =>
    rw [hkey] at h
    obtain ⟨rfl, rfl⟩ := gives_pure_iff.1 h
    simp [Sorting.request?, hkey, SortSource.addsFieldTable, Layout.addsFieldTable]
  | none =>
    rw [hkey] at h
    obtain ⟨p, i, hp, h⟩ := gives_bind_iff.1 h
    obtain ⟨rfl, rfl⟩ := gives_pure_iff.1 h
    obtain ⟨place, hplace, rfl, rfl⟩ := Layout.gives_resolve_iff.1 hp
    simp [Sorting.request?, hkey, hplace, SortSource.addsFieldTable, Layout.addsFieldTable]

theorem gives_resolveSorts {layout : Layout} {keys : KeyColumns} {sorts : List Sorting}
    {rs : List ResolvedSort} {j k : Joining}
    (h : Gives (sorts.mapM (resolveSort layout catalog keys)) j rs k) :
    k = layout.enterAll (sorts.filterMap (Sorting.request? layout catalog keys)) j ∧
      rs.any (·.source.addsFieldTable) =
        layout.addsFieldTable (sorts.filterMap (Sorting.request? layout catalog keys)) j := by
  induction sorts generalizing j rs with
  | nil =>
    obtain ⟨rfl, rfl⟩ := gives_pure_iff.1 h
    exact ⟨rfl, rfl⟩
  | cons s sorts ih =>
    obtain ⟨r, i, rest, hr, hrest, rfl⟩ := gives_mapM_cons_iff.1 h
    obtain ⟨hjoins, hadds⟩ := gives_resolveSort hr
    obtain ⟨hjoins', hadds'⟩ := ih hrest
    have hcons : (s :: sorts).filterMap (Sorting.request? layout catalog keys) =
        (s.request? layout catalog keys).toList ++
          sorts.filterMap (Sorting.request? layout catalog keys) := by
      cases hs : s.request? layout catalog keys <;> simp [hs]
    rw [hcons, Layout.enterAll_append, Layout.addsFieldTable_append, ← hjoins, ← hadds, ← hjoins',
      ← hadds']
    exact ⟨rfl, rfl⟩

/-- Nothing is compiled but over a described entity type with a base table. -/
theorem compile_eq_ok_iff : q.compile catalog = .ok c ↔ ∃ t base,
    catalog.describe q.entityType = some t ∧ t.baseTable = some base ∧
      q.compileOver catalog t base = .ok c := by
  unfold compile
  cases ht : catalog.describe q.entityType with
  | none => simp
  | some t =>
    cases hbase : t.baseTable with
    | none => simp [hbase]
    | some base => simp [hbase]

/-- The statement with the clauses that orderings do not touch. -/
def filled (q : Query) (layout : Layout) (simple : Bool) (parts : List Where) (s : Select) :
    Select :=
  { s with
    conditions := parts
    tags := q.statementTags
    metadata := q.statementMetadata layout simple }

/-- The statement before it is ordered. -/
def grouped (q : Query) (layout : Layout) (keys : KeyColumns) (simple : Bool) (parts : List Where)
    (s : Select) : Select :=
  if simple then q.filled layout simple parts s
  else keys.labels.foldl Select.addGroupBy (q.filled layout simple parts s)

theorem finish_eq (q : Query) (layout : Layout) (keys : KeyColumns) (simple : Bool)
    (parts : List Where) (sorts : List ResolvedSort) (s : Select) :
    q.finish layout keys simple parts sorts s =
      { sorts.foldl (ResolvedSort.orderBy simple) (q.grouped layout keys simple parts s) with
        window := q.effectiveWindow } := rfl

theorem ungrouped_grouped (q : Query) (layout : Layout) (keys : KeyColumns) (simple : Bool)
    (parts : List Where) (s : Select) :
    (q.grouped layout keys simple parts s).ungrouped =
      (q.filled layout simple parts s).ungrouped := by
  unfold grouped
  split
  · rfl
  · exact Select.ungrouped_foldl_addGroupBy ..

theorem body_finish (q : Query) (layout : Layout) (keys : KeyColumns) (simple : Bool)
    (parts : List Where) (sorts : List ResolvedSort) (s : Select) :
    (q.finish layout keys simple parts sorts s).body =
      { (q.filled layout simple parts s).body with window := q.effectiveWindow } := by
  have h : (sorts.foldl (ResolvedSort.orderBy simple) (q.grouped layout keys simple parts s)).body =
      (q.filled layout simple parts s).body := by
    rw [ResolvedSort.body_foldl_orderBy]
    exact congrArg (fun s : Select => { s with expressions := [], orders := [] })
      (q.ungrouped_grouped ..)
  exact congrArg (fun s : Select => { s with window := q.effectiveWindow }) h

theorem groupBy_finish (q : Query) (layout : Layout) (keys : KeyColumns) (simple : Bool)
    (parts : List Where) (sorts : List ResolvedSort) (s : Select) :
    (q.finish layout keys simple parts sorts s).groupBy =
      (q.grouped layout keys simple parts s).groupBy :=
  ResolvedSort.groupBy_foldl_orderBy ..

theorem start_joins (q : Query) (t : EntityType) (base : String) : (q.start t base).2.joins = [] :=
  rfl

/-- The joins of a query come from requests only. -/
theorem joined_spec (q : Query) (t : EntityType) (base : String) (catalog : Catalog) :
    Layout.Joined (q.placement t base catalog) (q.start t base).2 (q.requests t base catalog)
      (q.joined t base catalog) := by
  have h := (Layout.Joined.nil (q.placement t base catalog) (q.start_joins t base)).enterAll
    (q.requests t base catalog)
  rwa [List.nil_append] at h

theorem joined_label (q : Query) (t : EntityType) (base : String) (catalog : Catalog) :
    (q.joined t base catalog).statement.label = baseLabel := (q.joined_spec t base catalog).label

/-- The base table is where its entity properties are read from. -/
theorem atBase_iff {place : Location} : (q.placement t base catalog).atBase place = true ↔
    place.source = .entityTable ∧ place.table = base := by
  rw [Layout.atBase, Bool.and_eq_true, beq_iff_eq, beq_iff_eq]
  rfl

/-- The key columns are selected under two labels, the row key first; with revisions a row of the
result is a revision of an entity, else it is an entity. -/
theorem start_spec (q : Query) (t : EntityType) (base : String) : ∃ key value, key ≠ value ∧
    (q.start t base).2 = {
      table := base
      label := baseLabel
      conjunction := q.conditions.conjunction
      fields := [⟨⟨baseLabel, t.keys.row⟩, key⟩, ⟨⟨baseLabel, t.keys.id⟩, value⟩] } ∧
    (q.start t base).1.labels = key :: t.keys.revision.toList.map fun _ => value := by
  let bare : Select :=
    { table := base, label := baseLabel, conjunction := q.conditions.conjunction }
  let keyed := bare.addField ⟨baseLabel, t.keys.row⟩
  refine ⟨keyed.1, (keyed.2.addField ⟨baseLabel, t.keys.id⟩).1, ?_, rfl, ?_⟩
  · intro heq
    apply Select.addField_label_not_mem keyed.2 ⟨baseLabel, t.keys.id⟩
    rw [← heq]
    exact List.mem_singleton_self _
  · simp only [start, KeyColumns.select, KeyColumns.labels]
    cases hrevision : t.keys.revision <;> simp [keyed, bare, EntityKeys.row, hrevision]

section Finish
variable {s : Select} {layout : Layout} {simple : Bool} {parts : List Where}
  {sorts : List ResolvedSort}

/-- A finished statement selects the key columns, and groups by them unless it is simple. -/
theorem finish_keys (hs : s = { (q.start t base).2 with joins := s.joins }) :
    ∃ key value, key ≠ value ∧
      (q.finish layout (q.start t base).1 simple parts sorts s).fields =
        [⟨⟨baseLabel, t.keys.row⟩, key⟩, ⟨⟨baseLabel, t.keys.id⟩, value⟩] ∧
      (q.finish layout (q.start t base).1 simple parts sorts s).groupBy =
        if simple then [] else key :: t.keys.revision.toList.map fun _ => value := by
  obtain ⟨key, value, hne, hstart, hlabels⟩ := q.start_spec t base
  refine ⟨key, value, hne, ?_, ?_⟩
  · apply (congrArg Select.fields (q.body_finish ..)).trans
    rw [hs, hstart]
    rfl
  · have hnil : (q.filled layout simple parts s).groupBy = [] := by
      rw [filled, hs, hstart]
    rw [groupBy_finish, grouped]
    split
    · exact hnil
    · rw [Select.groupBy_foldl_addGroupBy, hnil, hlabels, List.nil_append]
      rw [hnil, hlabels, List.nil_append]
      cases t.keys.revision <;> simp [hne]

theorem finish_condition (hs : s = { (q.start t base).2 with joins := s.joins }) :
    (q.finish layout (q.start t base).1 simple parts sorts s).condition =
      .group q.conditions.conjunction parts := by
  have hbody := q.body_finish layout (q.start t base).1 simple parts sorts s
  have hconditions := congrArg Select.conditions hbody
  have hconjunction := congrArg Select.conjunction hbody
  simp only [Select.body, Select.ungrouped, filled] at hconditions hconjunction
  obtain ⟨key, value, -, hstart, -⟩ := q.start_spec t base
  rw [Select.condition, hconditions, hconjunction, hs, hstart]

theorem finish_expressions (hs : s = { (q.start t base).2 with joins := s.joins }) :
    (q.finish layout (q.start t base).1 true parts sorts s).expressions = [] := by
  obtain ⟨key, value, -, hstart, -⟩ := q.start_spec t base
  rw [finish_eq]
  apply (ResolvedSort.expressions_foldl_orderBy_of_simple ..).trans
  rw [grouped, if_pos rfl, filled, hs, hstart]

theorem finish_unsorted (hs : s = { (q.start t base).2 with joins := s.joins }) :
    (q.finish layout (q.start t base).1 simple parts [] s).expressions = [] ∧
      (q.finish layout (q.start t base).1 simple parts [] s).orders = [] := by
  have hun := q.ungrouped_grouped layout (q.start t base).1 simple parts s
  obtain ⟨key, value, -, hstart, -⟩ := q.start_spec t base
  have hbare : (q.filled layout simple parts s).ungrouped.expressions = [] ∧
      (q.filled layout simple parts s).ungrouped.orders = [] := by
    simp only [Select.ungrouped, filled]
    rw [hs, hstart]
    exact ⟨rfl, rfl⟩
  rw [finish_eq]
  exact ⟨(congrArg Select.expressions hun).trans hbare.1,
    (congrArg Select.orders hun).trans hbare.2⟩

end Finish

/-- Compiling is making the joins that the query asks for, and finishing the statement. -/
theorem compiledAs (h : q.compileOver catalog t base = .ok c) : CompiledAs q t base catalog c := by
  unfold compileOver at h
  simp only at h
  split at h
  · cases h
  · next condition sorts joining hrun =>
    obtain ⟨condition', i, hcondition, hrest⟩ := gives_bind_iff.1 (show Gives _ _ _ _ from hrun)
    obtain ⟨sorts', k, hsorts, hpure⟩ := gives_bind_iff.1 hrest
    obtain ⟨hout, rfl⟩ := gives_pure_iff.1 hpure
    obtain ⟨rfl, rfl⟩ := Prod.mk.inj hout
    obtain ⟨hcompiles, hclause⟩ := Condition.gives_compile hcondition
    obtain ⟨hjoins, hadds⟩ := gives_resolveSorts hsorts
    have hjoined : joining = q.joined t base catalog := by
      rw [joined, requests, Layout.enterAll_append, hjoins, hcompiles.joins]
      rfl
    have hframe := (q.joined_spec t base catalog).frame
    rw [← hjoined] at hframe
    have hadds' : (condition.addsFieldTable || sorts.any (·.source.addsFieldTable)) =
        (q.placement t base catalog).addsFieldTable (q.requests t base catalog)
          { statement := (q.start t base).2 } := by
      rw [requests, Layout.addsFieldTable_append, hadds, hcompiles.joins, hcompiles.adds]
      rfl
    generalize hsimple : (!t.isTranslatable && !condition.addsFieldTable &&
      !sorts.any (·.source.addsFieldTable) || !q.needsExactRows) = simple at h
    obtain rfl := Except.ok.inj h
    have hbody := q.body_finish (q.placement t base catalog) (q.start t base).1 simple
      (topParts condition.clause) sorts joining.statement
    refine {
      ready := ?_, table := ?_, label := ?_, joins := ?_, condition := ?_
      window := congrArg Select.window hbody, keys := finish_keys hframe, expressions := ?_
      unsorted := ?_, count := rfl, pager := rfl, simple := ?_ }
    · intro l hl
      rw [← Conditions.leaves_toCondition] at hl
      obtain ⟨mark, hm⟩ := Condition.exists_marked_of_mem hl false
      exact hcompiles.ready _ hm
    · apply (congrArg Select.table hbody).trans
      rw [hframe]
      rfl
    · apply (congrArg Select.label hbody).trans
      rw [hframe]
      rfl
    · apply (congrArg Select.joins hbody).trans
      rw [hjoined]
      rfl
    · have hwhole := hclause (q.sortRequests t base catalog)
      rw [sortRequests, ← hjoins, hjoined, Conditions.toCondition, Condition.clause] at hwhole
      apply (finish_condition hframe).trans
      rw [hwhole]
      rfl
    · intro (htrue : simple = true)
      subst htrue
      exact finish_expressions hframe
    · intro hnone
      rw [hnone, List.mapM_nil] at hsorts
      obtain ⟨rfl, -⟩ := gives_pure_iff.1 hsorts
      exact finish_unsorted hframe
    · rw [← hadds', ← hsimple, Bool.not_or, Bool.and_assoc]

theorem compileOver_of_compile (hc : q.compile catalog = .ok c)
    (ht : catalog.describe q.entityType = some t) (hbase : t.baseTable = some base) :
    q.compileOver catalog t base = .ok c := by
  obtain ⟨t', base', ht', hbase', hover⟩ := compile_eq_ok_iff.1 hc
  obtain rfl := Option.some.inj (ht.symm.trans ht')
  obtain rfl := Option.some.inj (hbase.symm.trans hbase')
  exact hover

theorem compiledAs_of_compile (hc : q.compile catalog = .ok c)
    (ht : catalog.describe q.entityType = some t) (hbase : t.baseTable = some base) :
    CompiledAs q t base catalog c := compiledAs (compileOver_of_compile hc ht hbase)

end Query

namespace CompiledAs
variable {q : Query} {t : EntityType} {base : String} {catalog : Catalog} {c : Compiled}

/-- The condition of the statement is the condition tree, over the columns of its properties. -/
theorem condition_holds (h : CompiledAs q t base catalog c) (s : Scope) :
    c.statement.condition.holds s = q.conditions.toCondition.holds fun l =>
      l.accepts (s.read (l.column (q.placement t base catalog) catalog
        (q.joined t base catalog))) := by
  rw [h.condition, Condition.clause_holds]
  · apply Condition.holds_congr
    intro l hl
    rw [Conditions.leaves_toCondition] at hl
    exact Leaf.clause_holds (h.ready l hl) _ s
  · intro l hl
    rw [Conditions.leaves_toCondition] at hl
    exact Leaf.clause_isEmpty (h.ready l hl) _

end CompiledAs
end EntitySelect
