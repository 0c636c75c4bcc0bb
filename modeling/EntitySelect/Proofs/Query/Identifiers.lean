import EntitySelect.Proofs.Query.Declared
import EntitySelect.Proofs.Select.Spelling

/-! Whatever a query says, the names in its statement are identifiers. Tables and columns are
declared, which they are under identifiers only, and labels are made of them. So the text of a query
gets into SQL neither as a name nor as a value. -/
namespace EntitySelect

namespace Label
variable {base wanted : String}

theorem isIdentifier_numbered (h : Text.isIdentifier base = true) (n : Nat) :
    Text.isIdentifier (numbered base n) = true := by
  have hscore : Text.isIdentifier (base ++ "_") = true := Text.isIdentifier_append h (by decide)
  exact Text.isIdentifier_append hscore (Text.isWord_number n)

theorem isIdentifier_fresh (h : Text.isIdentifier wanted = true) (taken : List String) :
    Text.isIdentifier (fresh taken wanted) = true := by
  unfold fresh
  split
  · obtain ⟨m, -, -, hfree, -⟩ := firstFree_least taken wanted 2
    rw [hfree]
    exact isIdentifier_numbered h m
  · exact h

end Label

theorem Select.isIdentifier_fieldLabel {c : Column} (htable : Text.isIdentifier c.table = true)
    (hname : Text.isIdentifier c.name = true) (s : Select) :
    Text.isIdentifier (s.fieldLabel c) = true := by
  refine Label.isIdentifier_fresh ?_ s.selectLabels
  split
  · have hscore : Text.isIdentifier (c.table ++ "_") = true :=
      Text.isIdentifier_append htable (by decide)
    exact Text.isIdentifier_append hscore (Text.isWord_of_isIdentifier hname)
  · exact hname

namespace Layout

/-- Joined tables and their labels are named by identifiers if the tables of the requests are. -/
theorem isIdentifier_of_mem_joins {layout : Layout} {rs : List Request} {j : Joining}
    (hrs : ∀ r ∈ rs, Text.isIdentifier r.place.table = true)
    (hj : ∀ k ∈ j.statement.joins,
      Text.isIdentifier k.table = true ∧ Text.isIdentifier k.label = true) :
    ∀ k ∈ (layout.enterAll rs j).statement.joins,
      Text.isIdentifier k.table = true ∧ Text.isIdentifier k.label = true := by
  induction rs generalizing j with
  | nil => exact hj
  | cons r rs ih =>
    obtain ⟨hr, hrs⟩ := List.forall_mem_cons.1 hrs
    rw [enterAll_cons]
    refine ih hrs ?_
    rcases layout.enter_cases r j with ⟨-, he⟩ | ⟨-, _, -, he⟩ | ⟨-, -, he⟩
    · rw [he]
      exact hj
    · rw [he]
      exact hj
    · rw [he, adjoin, Select.addJoin_joins]
      refine List.forall_mem_append.2 ⟨hj, List.forall_mem_singleton.2 ⟨hr, ?_⟩⟩
      exact Label.isIdentifier_fresh hr j.statement.tableLabels

end Layout

/-- The labels that rows are selected and ordered by are identifiers. -/
structure Select.WellLabelled (s : Select) : Prop where
  selected : ∀ label ∈ s.selectLabels, Text.isIdentifier label = true
  ordered : ∀ o ∈ s.orders, ∀ label, o.target.label? = some label → Text.isIdentifier label = true

namespace Select.WellLabelled
variable {s : Select} {label : String}

theorem orderBy (h : s.WellLabelled) {target : OrderTarget}
    (htarget : ∀ label, target.label? = some label → Text.isIdentifier label = true)
    (direction : Direction) : (s.orderBy target direction).WellLabelled where
  selected := h.selected
  ordered := List.forall_mem_append.2 ⟨h.ordered, List.forall_mem_singleton.2 htarget⟩

theorem addExpression (h : s.WellLabelled) {wanted : String}
    (hwanted : Text.isIdentifier wanted = true) (function : Aggregate) (argument : Column) :
    (s.addExpression function argument wanted).2.WellLabelled where
  selected := by
    intro label hlabel
    rw [selectLabels, Select.addExpression, List.map_append, ← List.append_assoc] at hlabel
    rcases List.mem_append.1 hlabel with hlabel | hlabel
    · exact h.selected label hlabel
    · rw [List.mem_singleton.1 hlabel]
      exact Label.isIdentifier_fresh hwanted s.selectLabels
  ordered := h.ordered

end Select.WellLabelled

namespace ResolvedSort

/-- The label of an ordering is an identifier, whatever the ordering goes by. -/
theorem isIdentifier_groupLabel (s : Sorting) : Text.isIdentifier (groupLabel s) = true := by
  have hfield : Text.isIdentifier ("order_by_" ++ Text.wordChars s.field) = true :=
    Text.isIdentifier_append (by decide) (Text.isWord_wordChars s.field)
  have hscore : Text.isIdentifier ("order_by_" ++ Text.wordChars s.field ++ "_") = true :=
    Text.isIdentifier_append hfield (by decide)
  have hword : Text.isWord s.direction.word = true := by cases s.direction <;> decide
  exact Text.isIdentifier_append hscore hword

theorem wellLabelled_orderBy {s : Select} {r : ResolvedSort} (h : s.WellLabelled)
    (hkey : ∀ label, r.source = .key label → Text.isIdentifier label = true) (simple : Bool) :
    (orderBy simple s r).WellLabelled := by
  unfold orderBy
  cases hsource : r.source with
  | key label =>
    refine h.orderBy ?_ r.sorting.direction
    rintro _ ⟨⟩
    exact hkey label hsource
  | property p =>
    simp only
    split
    · refine h.orderBy ?_ r.sorting.direction
      rintro _ ⟨⟩
    · have hlabel := isIdentifier_groupLabel r.sorting
      refine (h.addExpression hlabel (extreme r.sorting.direction) p.column).orderBy ?_ _
      rintro _ ⟨⟩
      exact Label.isIdentifier_fresh hlabel s.selectLabels

theorem wellLabelled_foldl_orderBy {rs : List ResolvedSort} {s : Select} (h : s.WellLabelled)
    (hkeys : ∀ r ∈ rs, ∀ label, r.source = .key label → Text.isIdentifier label = true)
    (simple : Bool) : (rs.foldl (orderBy simple) s).WellLabelled := by
  induction rs generalizing s with
  | nil => exact h
  | cons r rs ih =>
    obtain ⟨hr, hrs⟩ := List.forall_mem_cons.1 hkeys
    exact ih (wellLabelled_orderBy h hr simple) hrs

end ResolvedSort

namespace Query
variable {q : Query} {t : EntityType} {base : String} {catalog : Catalog} {c : Compiled}

theorem isIdentifier_key (hchecked : catalog.Checked)
    (ht : catalog.describe q.entityType = some t) (hbase : t.baseTable = some base) :
    ∀ name ∈ t.keys.columns, Text.isIdentifier name = true := fun name hname =>
  (hchecked.identifiers (hchecked.base ht hbase name hname)).2

theorem isIdentifier_place (hchecked : catalog.Checked) {r : Request}
    (hr : r ∈ q.requests t base catalog) :
    Text.isIdentifier r.place.table = true ∧ Text.isIdentifier r.place.column = true := by
  obtain ⟨field, hplace⟩ := locate_of_mem_requests hr
  exact hchecked.identifiers (Layout.holds_of_locate hplace).declared

theorem isIdentifier_joins (hchecked : catalog.Checked) :
    ∀ k ∈ (q.joined t base catalog).statement.joins,
      Text.isIdentifier k.table = true ∧ Text.isIdentifier k.label = true :=
  Layout.isIdentifier_of_mem_joins (fun _ hr => (isIdentifier_place hchecked hr).1) nofun

theorem isIdentifier_tableLabels (hchecked : catalog.Checked) :
    ∀ label ∈ (q.joined t base catalog).statement.tableLabels, Text.isIdentifier label = true := by
  refine List.forall_mem_cons.2 ⟨?_, List.forall_mem_map.2 fun k hk => ?_⟩
  · rw [joined_label]
    decide
  · exact (isIdentifier_joins hchecked k hk).2

theorem isIdentifier_of_mem_joinColumns (hchecked : catalog.Checked)
    (ht : catalog.describe q.entityType = some t) (hbase : t.baseTable = some base)
    {source : Source} {langcode : Option String} {name : String}
    (h : name ∈ (q.placement t base catalog).joinColumns source langcode) :
    Text.isIdentifier name = true := by
  rcases List.mem_append.1 h with h | h
  · cases source with
    | entityTable =>
      rw [List.mem_singleton.1 h]
      exact isIdentifier_key hchecked ht hbase _ (q.entityIdColumn_mem t base catalog)
    | fieldTable =>
      rcases List.mem_pair.1 h with rfl | rfl
      · rcases q.fieldIdColumn_cases t base catalog with hid | ⟨-, hid⟩
        · rw [hid]
          decide
        · rw [hid]
          decide
      · decide
  · obtain ⟨-, -, rfl⟩ := List.mem_map.1 h
    decide

/-- A column that is mentioned has an identifier for a name. -/
theorem Mentioned.isIdentifier_name {column : Column} (h : q.Mentioned t base catalog column)
    (hchecked : catalog.Checked) (ht : catalog.describe q.entityType = some t)
    (hbase : t.baseTable = some base) : Text.isIdentifier column.name = true := by
  have hkey := isIdentifier_key hchecked ht hbase
  cases h with
  | key => exact hkey _ t.keys.row_mem_columns
  | id => exact hkey _ List.mem_cons_self
  | term _ _ hterm hcolumn =>
    rcases Layout.exists_mem_terms_iff.1 ⟨_, hterm, hcolumn⟩ with rfl | ⟨name, hname, rfl⟩
    · exact hkey _ (q.entityIdColumn_mem t base catalog)
    · exact isIdentifier_of_mem_joinColumns hchecked ht hbase hname
  | place hr => exact (isIdentifier_place hchecked hr).2

/-- A statement starts with identifiers for labels. -/
theorem isIdentifier_start (hkeys : ∀ name ∈ t.keys.columns, Text.isIdentifier name = true)
    (q : Query) (base : String) :
    ∀ f ∈ (q.start t base).2.fields, Text.isIdentifier f.label = true := by
  have hbase : Text.isIdentifier baseLabel = true := by decide
  have hrow := hkeys _ t.keys.row_mem_columns
  have hid := hkeys t.keys.id List.mem_cons_self
  simp only [start, KeyColumns.select, Select.addField, List.nil_append, List.cons_append]
  intro f hf
  rcases List.mem_pair.1 hf with rfl | rfl
  · exact Select.isIdentifier_fieldLabel hbase hrow _
  · exact Select.isIdentifier_fieldLabel hbase hid _

/-- The labels of a statement are identifiers. -/
theorem wellLabelled (hkeys : ∀ name ∈ t.keys.columns, Text.isIdentifier name = true)
    (hover : q.compileOver catalog t base = .ok c) : c.statement.WellLabelled := by
  obtain ⟨rs, parts, hresolves, hstatement⟩ := exists_resolved hover
  have hstart := isIdentifier_start hkeys q base
  have hgrouped : (q.grouped (q.placement t base catalog) (q.start t base).1 c.simple parts
      (q.joined t base catalog).statement).WellLabelled := by
    obtain ⟨hfields, horders⟩ :=
      q.grouped_joined t base catalog (q.placement t base catalog) c.simple parts
    constructor
    · rw [Select.selectLabels, hfields, expressions_grouped, List.map_nil, List.append_nil]
      exact List.forall_mem_map.2 hstart
    · intro o ho
      rw [horders] at ho
      cases ho
  have hsources : ∀ r ∈ rs, ∀ label, r.source = .key label →
      Text.isIdentifier label = true := by
    intro r hr label hlabel
    obtain ⟨s, -, hresolve⟩ := exists_of_mem_forall₂ hresolves hr
    rcases hresolve.2 with ⟨label', hkey, hsource⟩ | ⟨-, place, p, -, hsource, -⟩
    · cases hsource.symm.trans hlabel
      rcases q.start_label? t base s.field with ⟨hnone, -⟩ | ⟨other, hsome, -, hfield⟩
      · cases hnone.symm.trans hkey
      · cases hsome.symm.trans hkey
        exact hstart _ hfield
    · cases hsource.symm.trans hlabel
  have hordered := ResolvedSort.wellLabelled_foldl_orderBy hgrouped hsources c.simple
  rw [hstatement, finish_eq]
  exact ⟨hordered.selected, hordered.ordered⟩

/-- The names of a statement are identifiers. -/
theorem isIdentifier_of_mem_names (hchecked : catalog.Checked)
    (ht : catalog.describe q.entityType = some t) (hbase : t.baseTable = some base)
    (hover : q.compileOver catalog t base = .ok c) :
    ∀ name ∈ c.statement.names, Text.isIdentifier name = true := by
  have hcompiled := compiledAs hover
  have hlabelled := wellLabelled (isIdentifier_key hchecked ht hbase) hover
  have htables : ∀ label ∈ (q.joined t base catalog).statement.tableLabels,
      Text.isIdentifier label = true := isIdentifier_tableLabels hchecked
  intro name hname
  rcases Select.mem_names.1 hname with rfl | ⟨j, hj, rfl⟩ | hlabel | hlabel |
    ⟨column, hcolumn, hname⟩ | hlabel | ⟨o, ho, hlabel⟩
  · rw [hcompiled.table]
    exact (hchecked.identifiers (hchecked.base ht hbase _ t.keys.row_mem_columns)).1
  · rw [hcompiled.joins] at hj
    exact (isIdentifier_joins hchecked j hj).1
  · rw [hcompiled.tableLabels_eq] at hlabel
    exact htables name hlabel
  · exact hlabelled.selected name hlabel
  · have hmentioned := mentioned_of_mem hover hcolumn
    rcases List.mem_pair.1 hname with rfl | rfl
    · exact htables _ hmentioned.table_mem
    · exact hmentioned.isIdentifier_name hchecked ht hbase
  · apply hlabelled.selected
    obtain ⟨key, value, -, hfields, hgroup⟩ := hcompiled.keys
    rw [hgroup] at hlabel
    refine List.mem_append_left _ ?_
    rw [hfields, List.map_cons, List.map_singleton]
    split at hlabel
    · cases hlabel
    · rcases List.mem_cons.1 hlabel with rfl | hlabel
      · exact List.mem_cons_self
      · obtain ⟨-, -, rfl⟩ := List.mem_map.1 hlabel
        exact List.mem_cons_of_mem _ List.mem_cons_self
  · exact hlabelled.ordered o ho name hlabel

/-- However a query is written, the names in its statement are identifiers, and the SQL of the
statement and of the question for the number of its rows consists of these names, keywords,
placeholders, numbers and punctuation. -/
theorem compile_spelled {d : CatalogDocument} {source : String}
    (hload : d.load source = .ok catalog) (hc : q.compile catalog = .ok c) :
    (∀ name ∈ c.statement.names, Text.isIdentifier name = true) ∧
      Spelled c.statement.names c.statement.sql.text ∧
      Spelled c.statement.names c.statement.countQuery.sql.text := by
  obtain ⟨t, base, ht, hbase, hover⟩ := compile_eq_ok_iff.1 hc
  have hnames := isIdentifier_of_mem_names (d.checked_of_load hload) ht hbase hover
  exact ⟨hnames, Select.spelled_sql hnames (List.Subset.refl _),
    Select.spelled_countQuery hnames (List.Subset.refl _)⟩

/-- A query with the marks of SQL wherever they are let in. -/
def quoted : Query where
  entityType := "node"
  conditions := { parts := [.leaf
    { field := "tags", value := .string "'; DROP TABLE node", langcode := some "' OR 1 = 1" }] }
  sorts := [{ field := "tags.value", langcode := some "\"" }]
  window := some ⟨0, 10⟩
  tags := NameSet.ofNames ["*/"]

theorem compile_spelled_quoted : ∃ catalog c,
    (CatalogDocument.tags Field.tagColumns Field.tagColumns).load "tags" = .ok catalog ∧
    quoted.compile catalog = .ok c ∧ "order_by_tags_value_ASC" ∈ c.statement.names ∧
    (∀ name ∈ c.statement.names, Text.isIdentifier name = true) ∧
      Spelled c.statement.names c.statement.sql.text ∧
      Spelled c.statement.names c.statement.countQuery.sql.text := by
  have hcompiled : ∃ catalog c,
      (CatalogDocument.tags Field.tagColumns Field.tagColumns).load "tags" = .ok catalog ∧
      quoted.compile catalog = .ok c ∧ "order_by_tags_value_ASC" ∈ c.statement.names :=
    exists_compiled_of_isSome (by decide +kernel)
  obtain ⟨catalog, c, hload, hc, hlabel⟩ := hcompiled
  exact ⟨catalog, c, hload, hc, hlabel, compile_spelled hload hc⟩

end Query
end EntitySelect
