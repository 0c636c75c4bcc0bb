import EntitySelect.Proofs.Join.Asked
import EntitySelect.Proofs.Query.WellFormed

/-! What a statement is ordered by. Each ordering of a query is one order of the statement: by the
label of a key column, by a column of the base table or of a joined one, or by the least or greatest
value of a field, which is selected for this order alone. -/
namespace EntitySelect

/-- The column that a place is read as: one of the base table, or one of the join of the place's
table in the language. -/
inductive Layout.ReadsAs (layout : Layout) (s : Select) (place : Location)
    (langcode : Option String) : Column → Prop
  | base : layout.atBase place = true → ReadsAs layout s place langcode ⟨s.label, place.column⟩
  | joined {k : Join} : layout.atBase place = false → k ∈ s.joins → k.table = place.table →
    k.InLanguage langcode → ReadsAs layout s place langcode ⟨k.label, place.column⟩

/-- What an ordering goes by, and the expression that is there for it: for a field in a statement that
groups its rows the least value in ascending order and the greatest in descending order. -/
inductive Compiled.Target (c : Compiled) (layout : Layout) (catalog : Catalog) (keys : EntityKeys)
    (s : Sorting) : OrderTarget → Option Expression → Prop
  | row : s.field = keys.row → Target c layout catalog keys s (.label c.keyLabel) none
  | id : s.field ≠ keys.row → s.field = keys.id →
    Target c layout catalog keys s (.label c.valueLabel) none
  | column {place : Location} {column : Column} : s.field ≠ keys.row → s.field ≠ keys.id →
    layout.locate catalog s.field = .ok (some place) →
    layout.ReadsAs c.statement place s.langcode column →
    c.simple = true ∨ place.source = .entityTable →
    Target c layout catalog keys s (.column column) none
  | extreme {place : Location} {column : Column} {label : String} : s.field ≠ keys.row →
    s.field ≠ keys.id → layout.locate catalog s.field = .ok (some place) →
    layout.ReadsAs c.statement place s.langcode column →
    c.simple = false → place.source = .fieldTable →
    Target c layout catalog keys s (.label label)
      (some ⟨match s.direction with | .asc => .min | .desc => .max, column, label⟩)

/-- What orderings come to, one after the other: an order each, and no other expressions than
theirs. -/
inductive Compiled.Targets (c : Compiled) (layout : Layout) (catalog : Catalog)
    (keys : EntityKeys) : List Sorting → List Order → List Expression → Prop
  | nil : Targets c layout catalog keys [] [] []
  | cons {s : Sorting} {sorts : List Sorting} {target : OrderTarget} {orders : List Order}
    {expression : Option Expression} {expressions : List Expression} :
    c.Target layout catalog keys s target expression →
    Targets c layout catalog keys sorts orders expressions →
    Targets c layout catalog keys (s :: sorts) (⟨target, s.direction⟩ :: orders)
      (expression.toList ++ expressions)

/-- The select list, the grouping and the orders of a compiled query. -/
structure OrderedAs (q : Query) (t : EntityType) (base : String) (catalog : Catalog)
    (c : Compiled) : Prop where
  /-- The row key and the id are selected. -/
  fields : c.statement.fields =
    [⟨⟨baseLabel, t.keys.row⟩, c.keyLabel⟩, ⟨⟨baseLabel, t.keys.id⟩, c.valueLabel⟩]
  counted : q.count = true → c.statement.orders = [] ∧ c.statement.expressions = []
  sorted : q.count = false → c.Targets (q.placement t base catalog) catalog t.keys q.sorts
    c.statement.orders c.statement.expressions
  /-- No label is given twice, so no two orders go by the same expression. -/
  apart : c.statement.selectLabels.Nodup
  grouped : c.statement.groupBy =
    if c.simple then [] else c.keyLabel :: t.keys.revision.toList.map fun _ => c.valueLabel
  /-- Where rows are grouped, they are ordered by no column of a field. -/
  aggregated : c.simple = false → ∀ o ∈ c.statement.orders, ∀ column, o.target = .column column →
    ∃ s ∈ q.sorts, ∃ place,
      (q.placement t base catalog).locate catalog s.field = .ok (some place) ∧
      place.source = .entityTable ∧
      (q.placement t base catalog).ReadsAs c.statement place s.langcode column
  /-- Where their number matters, joined rows are grouped. -/
  exact : (q.count = true ∨ q.window.isSome = true ∨
      ∃ p, q.pager = some p ∧ p.isActive = true) →
    c.statement.groupBy = [] → c.statement.joins = []

/-- Where rows are grouped, a column that they are ordered by is one of an entity table. -/
theorem Compiled.Targets.exists_of_column {c : Compiled} {layout : Layout} {catalog : Catalog}
    {keys : EntityKeys} {sorts : List Sorting} {orders : List Order}
    {expressions : List Expression} (h : c.Targets layout catalog keys sorts orders expressions)
    (hsimple : c.simple = false) {o : Order} (ho : o ∈ orders) {column : Column}
    (htarget : o.target = .column column) :
    ∃ s ∈ sorts, ∃ place, layout.locate catalog s.field = .ok (some place) ∧
      place.source = .entityTable ∧ layout.ReadsAs c.statement place s.langcode column := by
  induction h with
  | nil => cases ho
  | @cons s _ _ _ _ _ hs _ ih =>
    rcases List.mem_cons.1 ho with rfl | ho
    · subst htarget
      cases hs with
      | column _ _ hplace hreads hplain =>
        rw [hsimple, or_iff_right Bool.false_ne_true] at hplain
        exact ⟨s, List.mem_cons_self, _, hplace, hplain, hreads⟩
    · obtain ⟨s', hs', hrest⟩ := ih ho
      exact ⟨s', List.mem_cons_of_mem _ hs', hrest⟩

namespace Query
variable {q : Query} {t : EntityType} {base : String} {catalog : Catalog} {c : Compiled}

theorem start_fields (q : Query) (t : EntityType) (base : String) : (q.start t base).2.fields =
    [⟨⟨baseLabel, t.keys.row⟩, (q.start t base).1.keyLabel⟩,
      ⟨⟨baseLabel, t.keys.id⟩, (q.start t base).1.valueLabel⟩] := rfl

/-- The label of the row key is that of the id where there are no revisions. -/
theorem start_label?_eq (q : Query) (t : EntityType) (base property : String) :
    (q.start t base).1.label? property =
      if property = t.keys.row then some (q.start t base).1.keyLabel
      else if property = t.keys.id then some (q.start t base).1.valueLabel
      else none := by
  unfold KeyColumns.label? start KeyColumns.select EntityKeys.row
  cases t.keys.revision with
  | none =>
    by_cases hid : property = t.keys.id
    · simp [hid]
    · simp [List.lookup_cons, beq_eq_false_iff_ne.2 hid, hid]
  | some revision =>
    by_cases hrow : property = revision
    · simp [hrow]
    · by_cases hid : property = t.keys.id
      · subst hid
        simp [List.lookup_cons, beq_eq_false_iff_ne.2 hrow, hrow]
      · simp [List.lookup_cons, beq_eq_false_iff_ne.2 hrow, beq_eq_false_iff_ne.2 hid, hrow, hid]

/-- The number of rows matters to a count, a window and a pager. -/
theorem needsExactRows_iff : q.needsExactRows = true ↔
    q.count = true ∨ q.window.isSome = true ∨ ∃ p, q.pager = some p ∧ p.isActive = true := by
  cases hcount : q.count <;> cases hpager : q.pager <;>
    simp [needsExactRows, activePager, hcount, hpager, or_comm]

theorem labels_of_compileOver (h : q.compileOver catalog t base = .ok c) :
    c.keyLabel = (q.start t base).1.keyLabel ∧ c.valueLabel = (q.start t base).1.valueLabel := by
  unfold compileOver at h
  simp only at h
  split at h
  · cases h
  · obtain rfl := Except.ok.inj h
    exact ⟨rfl, rfl⟩

end Query

namespace CompiledAs
variable {q : Query} {t : EntityType} {base : String} {catalog : Catalog} {c : Compiled}

/-- The column of an ordering is read from the base table or from the join for its property. -/
theorem readsAs_column (h : CompiledAs q t base catalog c) {s : Sorting} (hs : s ∈ q.activeSorts)
    (hkey : (q.start t base).1.label? s.field = none) {place : Location}
    (hplace : (q.placement t base catalog).locate catalog s.field = .ok (some place)) :
    (q.placement t base catalog).ReadsAs c.statement place s.langcode
      ((q.placement t base catalog).column (q.joined t base catalog) place s.langcode) := by
  cases hat : (q.placement t base catalog).atBase place with
  | true =>
    rw [Layout.column_of_atBase hat, Query.joined_label, ← h.label]
    exact .base hat
  | false =>
    obtain ⟨first, label, hfirst, hlabel, hjoin⟩ :=
      Query.exists_join_of_request (Query.mem_requests_of_sort hs hkey hplace) hat
    obtain ⟨htable, hlangcode⟩ := Prod.mk.inj (Layout.pair_of_first hfirst)
    rw [← h.joins] at hjoin
    have hlanguage : ((q.placement t base catalog).wanted first baseLabel label).InLanguage
        first.langcode := Layout.inLanguage_terms _ _ _ _ _ _ _
    rw [hlangcode] at hlanguage
    rw [Layout.column_of_get? hat hlabel]
    exact .joined hat hjoin htable hlanguage

end CompiledAs

namespace Query
variable {q : Query} {t : EntityType} {base : String} {catalog : Catalog} {c : Compiled}

/-- An ordering adds its order and, for the values of a field in a group, an expression. -/
theorem exists_target (h : q.compileOver catalog t base = .ok c) {s : Sorting} {r : ResolvedSort}
    (hs : s ∈ q.activeSorts)
    (hr : Resolves (q.placement t base catalog) catalog (q.start t base).1
      (q.joined t base catalog) s r) (statement : Select) :
    ∃ target expression, c.Target (q.placement t base catalog) catalog t.keys s target expression ∧
      (ResolvedSort.orderBy c.simple statement r).orders =
        statement.orders ++ [⟨target, s.direction⟩] ∧
      (ResolvedSort.orderBy c.simple statement r).expressions =
        statement.expressions ++ expression.toList := by
  obtain ⟨rfl, ⟨label, hlabel, hsource⟩ | ⟨hkey, place, p, hplace, hsource, hcolumn, hp⟩⟩ := hr
  · -- a key column goes by its label, the row key before the id
    obtain ⟨hkeyLabel, hvalueLabel⟩ := labels_of_compileOver h
    rw [start_label?_eq, ← hkeyLabel, ← hvalueLabel] at hlabel
    rw [ResolvedSort.orderBy, hsource]
    refine ⟨.label label, none, ?_, rfl, (List.append_nil _).symm⟩
    split at hlabel
    · next hrow =>
      cases hlabel
      exact .row hrow
    · next hrow =>
      split at hlabel
      · next hid =>
        cases hlabel
        exact .id hrow hid
      · cases hlabel
  · have hreads := (compiledAs h).readsAs_column hs hkey hplace
    rw [← hcolumn] at hreads
    obtain ⟨hrow, hid⟩ : r.sorting.field ≠ t.keys.row ∧ r.sorting.field ≠ t.keys.id := by
      rw [start_label?_eq] at hkey
      split at hkey
      · cases hkey
      · next hrow =>
        split at hkey
        · cases hkey
        · next hid => exact ⟨hrow, hid⟩
    rw [ResolvedSort.orderBy, hsource]
    simp only
    split
    · next hplain =>
      rw [Bool.or_eq_true, beq_iff_eq, hp] at hplain
      exact ⟨_, none, .column hrow hid hplace hreads hplain, rfl, (List.append_nil _).symm⟩
    · next hplain =>
      -- several rows may be one here, so the order needs one value for them
      rw [Bool.or_eq_true, beq_iff_eq, not_or, Bool.not_eq_true, hp] at hplain
      have hfield : place.source = .fieldTable := by
        cases hkind : place.source with
        | fieldTable => rfl
        | entityTable => exact absurd hkind hplain.2
      exact ⟨_, _, .extreme hrow hid hplace hreads hplain.1 hfield, rfl, rfl⟩

/-- Orderings add their orders and expressions behind those that are there. -/
theorem exists_targets (h : q.compileOver catalog t base = .ok c) {sorts : List Sorting}
    {rs : List ResolvedSort} (hsorts : ∀ s ∈ sorts, s ∈ q.activeSorts)
    (hrs : List.Forall₂ (Resolves (q.placement t base catalog) catalog (q.start t base).1
      (q.joined t base catalog)) sorts rs) (statement : Select) :
    ∃ orders expressions,
      c.Targets (q.placement t base catalog) catalog t.keys sorts orders expressions ∧
      (rs.foldl (ResolvedSort.orderBy c.simple) statement).orders = statement.orders ++ orders ∧
      (rs.foldl (ResolvedSort.orderBy c.simple) statement).expressions =
        statement.expressions ++ expressions := by
  induction hrs generalizing statement with
  | nil => exact ⟨[], [], .nil, (List.append_nil _).symm, (List.append_nil _).symm⟩
  | @cons s r sorts rs hr _ ih =>
    obtain ⟨hs, hsorts⟩ := List.forall_mem_cons.1 hsorts
    obtain ⟨target, expression, htarget, horders, hexpressions⟩ := exists_target h hs hr statement
    obtain ⟨orders, expressions, htargets, hmore, hmoreExpressions⟩ :=
      ih hsorts (ResolvedSort.orderBy c.simple statement r)
    refine ⟨_, _, .cons htarget htargets, ?_, ?_⟩
    · rw [List.foldl_cons, hmore, horders, List.append_assoc, List.singleton_append]
    · rw [List.foldl_cons, hmoreExpressions, hexpressions, List.append_assoc]

theorem targets_of_compileOver (h : q.compileOver catalog t base = .ok c) :
    c.Targets (q.placement t base catalog) catalog t.keys q.activeSorts c.statement.orders
      c.statement.expressions := by
  obtain ⟨rs, parts, hresolves, hstatement⟩ := exists_resolved h
  obtain ⟨orders, expressions, htargets, horders, hexpressions⟩ :=
    exists_targets h (fun _ hs => hs) hresolves
      (q.grouped (q.placement t base catalog) (q.start t base).1 c.simple parts
        (q.joined t base catalog).statement)
  rw [(q.grouped_joined t base catalog _ c.simple parts).2, List.nil_append] at horders
  rw [expressions_grouped, List.nil_append] at hexpressions
  have hfinal : c.statement.orders = orders ∧ c.statement.expressions = expressions := by
    rw [hstatement]
    exact ⟨horders, hexpressions⟩
  rwa [hfinal.1, hfinal.2]

/-- The first two labels of the select list are those of the row key and of the id, and rows are
grouped by nothing else. -/
theorem keys_of_compileOver (h : q.compileOver catalog t base = .ok c) :
    c.statement.fields =
      [⟨⟨baseLabel, t.keys.row⟩, c.keyLabel⟩, ⟨⟨baseLabel, t.keys.id⟩, c.valueLabel⟩] ∧
    c.statement.groupBy =
      if c.simple then [] else c.keyLabel :: t.keys.revision.toList.map fun _ => c.valueLabel := by
  obtain ⟨rs, parts, -, hstatement⟩ := exists_resolved h
  obtain ⟨hkey, hvalue⟩ := labels_of_compileOver h
  have hstart : c.statement.fields = (q.start t base).2.fields := by
    have hframe := congrArg Select.fields (q.joined_spec t base catalog).frame
    rw [hstatement]
    exact (congrArg Select.fields (q.body_finish ..)).trans hframe
  rw [start_fields, ← hkey, ← hvalue] at hstart
  obtain ⟨key, value, -, hfields, hgroupBy⟩ := (compiledAs h).keys
  rw [hstart] at hfields
  obtain ⟨rfl, rfl⟩ : c.keyLabel = key ∧ c.valueLabel = value := by simpa using hfields
  exact ⟨hstart, hgroupBy⟩

/-- A query that compiles is ordered as its orderings say. -/
theorem compile_orderedAs (h : q.compile catalog = .ok c) : ∃ t base,
    catalog.describe q.entityType = some t ∧ t.baseTable = some base ∧
      OrderedAs q t base catalog c := by
  obtain ⟨t, base, ht, hbase, hover⟩ := compile_eq_ok_iff.1 h
  have hc := compiledAs hover
  have htargets := targets_of_compileOver hover
  obtain ⟨hfields, hgrouped⟩ := keys_of_compileOver hover
  refine ⟨t, base, ht, hbase, {
    fields := hfields, counted := ?_, sorted := ?_
    apart := (wellSelected_of_compileOver hover).labelled
    grouped := hgrouped, aggregated := ?_, exact := ?_ }⟩
  · intro hcount
    obtain ⟨hexpressions, horders⟩ := hc.unsorted (if_pos hcount)
    exact ⟨horders, hexpressions⟩
  · intro hcount
    rwa [activeSorts, hcount, if_neg Bool.false_ne_true] at htargets
  · intro hsimple o ho column htarget
    obtain ⟨s, hs, hplace⟩ := htargets.exists_of_column hsimple ho htarget
    refine ⟨s, ?_, hplace⟩
    rw [activeSorts] at hs
    split at hs
    · cases hs
    · exact hs
  · intro hexact hnone
    have hsimple : c.simple = true := by
      rw [hgrouped] at hnone
      split at hnone
      · assumption
      · cases hnone
    exact hc.joins_eq_nil hsimple (needsExactRows_iff.2 hexact)

/-- Nodes by their tags, in both directions, and by their key. Each direction has an expression of
its own. -/
def sortedTags : Query :=
  { pagedTags with
    sorts := [{ field := "tags" }, { field := "tags", direction := .desc }, { field := "nid" }] }

theorem compile_orderedAs_tagged : ∃ c t base, sortedTags.compile Catalog.tagged = .ok c ∧
    c.statement.orders =
      [⟨.label "order_by_tags_ASC", .asc⟩, ⟨.label "order_by_tags_DESC", .desc⟩,
        ⟨.label "nid", .asc⟩] ∧
    OrderedAs sortedTags t base Catalog.tagged c := by
  have hshape : (sortedTags.compile Catalog.tagged).toOption.map (·.statement.orders) =
      some [⟨.label "order_by_tags_ASC", .asc⟩, ⟨.label "order_by_tags_DESC", .desc⟩,
        ⟨.label "nid", .asc⟩] := by decide +kernel
  obtain ⟨c, hc, horders⟩ := Option.map_eq_some_iff.1 hshape
  have hcompiled := eq_ok_of_toOption hc
  obtain ⟨t, base, -, -, hordered⟩ := compile_orderedAs hcompiled
  exact ⟨c, t, base, hcompiled, horders, hordered⟩

end Query
end EntitySelect
