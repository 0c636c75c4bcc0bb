import EntitySelect.Proofs.Query.Mentions

/-! Whether the columns of a statement exist. Columns of the base table, of properties and of the
tables that are checked always do; a table that is joined in a language has to have a column for
it, and the table of the revisions of a field has to have the columns it is joined by. -/
namespace EntitySelect

namespace Select

/-- The table that goes by a label. -/
def tableOf? (s : Select) (label : String) : Option String :=
  ((s.label, s.table) :: s.joins.map fun j => (j.label, j.table)).lookup label

/-- Every column that the statement mentions is declared for the table behind its label. -/
def Declared (s : Select) (catalog : Catalog) : Prop :=
  ∀ column ∈ s.mentions, ∃ table ∈ s.tableOf? column.table, catalog.Declares table column.name

instance (s : Select) (catalog : Catalog) : Decidable (s.Declared catalog) :=
  inferInstanceAs (Decidable (∀ column ∈ s.mentions,
    ∃ table ∈ s.tableOf? column.table, catalog.Declares table column.name))

theorem tableOf?_of_mem {s : Select} (hapart : s.tableLabels.Nodup) {j : Join} (hj : j ∈ s.joins) :
    s.tableOf? j.label = some j.table := by
  refine lookup_of_mem ?_ (List.mem_cons_of_mem _ (List.mem_map_of_mem hj))
  rw [List.map_cons, List.map_map]
  exact hapart

theorem tableOf?_self (s : Select) : s.tableOf? s.label = some s.table := List.lookup_cons_self

end Select

theorem EntityKeys.row_mem_columns (k : EntityKeys) : k.row ∈ k.columns := by
  rw [row, columns]
  cases k.revision <;> simp

/-- The columns of a joined table that a catalog is not checked for. -/
def Layout.unchecked (layout : Layout) (r : Request) : List String :=
  (if r.place.source = .fieldTable ∧ layout.age = .revision
    then [Field.entityIdColumn, Field.entityTypeColumn] else []) ++
  r.langcode.toList.map fun _ => langcodeColumn

namespace Query
variable {q : Query} {t : EntityType} {base : String} {catalog : Catalog} {r : Request}
  {name : String}

theorem entityIdColumn_mem (q : Query) (t : EntityType) (base : String) (catalog : Catalog) :
    (q.placement t base catalog).entityIdColumn ∈ t.keys.columns := by
  simp only [EntityType.layout, EntityKeys.columns]
  split
  · cases t.keys.revision <;> simp
  · exact List.mem_cons_self

/-- Field tables are joined by entity, and by revision only where current values are asked for. -/
theorem fieldIdColumn_cases (q : Query) (t : EntityType) (base : String) (catalog : Catalog) :
    (q.placement t base catalog).fieldIdColumn = Field.entityIdColumn ∨
      q.age = .current ∧ (q.placement t base catalog).fieldIdColumn = Field.revisionIdColumn := by
  simp only [EntityType.layout]
  split
  · next hrevision =>
    rw [EntityType.joinsByRevision, Bool.and_eq_true, beq_iff_eq] at hrevision
    exact .inr ⟨hrevision.2, rfl⟩
  · exact .inl rfl

theorem fieldIdColumn_of_revision (hage : q.age = .revision) :
    (q.placement t base catalog).fieldIdColumn = Field.entityIdColumn := by
  rcases q.fieldIdColumn_cases t base catalog with hid | ⟨hcurrent, -⟩
  · exact hid
  · cases hage.symm.trans hcurrent

/-- The attached fields are those of the catalog that the entity type carries. -/
theorem attached_iff {field : String} :
    (q.placement t base catalog).attached.find? field = some true ↔
      ∃ f, catalog.field field = some f ∧ f.isAttachedTo q.entityType = true := by
  change (catalog.fields.map (Field.isAttachedTo · q.entityType)).find? field = some true ↔ _
  rw [Dict.find?_map, Option.map_eq_some_iff]
  rfl

/-- The current values of a field that the entity type carries are in a table that is checked. -/
theorem declares_of_attached (hchecked : catalog.Checked) {field : String}
    (hattached : (q.placement t base catalog).attached.find? field = some true) :
    ∀ column ∈ [Field.entityTypeColumn, Field.entityIdColumn, Field.revisionIdColumn],
      catalog.Declares (Field.tableName field .current) column := by
  obtain ⟨f, hf, hbundles⟩ := attached_iff.1 hattached
  refine hchecked.current hf ?_
  unfold Field.isAttachedTo at hbundles
  split at hbundles
  · next hfind => exact Dict.isEmpty_of_find? hfind
  · cases hbundles

/-- What a join needs is declared, if it is not left unchecked. -/
theorem declares_of_mem_joinColumns (hchecked : catalog.Checked)
    (ht : catalog.describe q.entityType = some t) (hr : r ∈ q.requests t base catalog)
    (hbase : (q.placement t base catalog).atBase r.place = false)
    (hname : name ∈ (q.placement t base catalog).joinColumns r.place.source r.langcode)
    (hunchecked : ∀ name ∈ (q.placement t base catalog).unchecked r,
      catalog.Declares r.place.table name) : catalog.Declares r.place.table name := by
  obtain ⟨field, hplace⟩ := locate_of_mem_requests hr
  rcases List.mem_append.1 hname with hname | hlangcode
  · rcases (Layout.holds_of_locate hplace).stored with ⟨hsource, htable⟩ | ⟨hsource, f, hf, htable⟩
    · -- an entity table that is joined is the data table
      have hne : r.place.table ≠ base := by
        intro heq
        rw [atBase_iff.2 ⟨hsource, heq⟩] at hbase
        cases hbase
      have hdata : t.dataTable = some r.place.table := by
        rcases List.mem_append.1 htable with htable | htable
        · exact Option.mem_toList.1 htable
        · exact absurd (List.mem_singleton.1 htable) hne
      simp only [hsource, List.mem_singleton] at hname
      rw [hname]
      exact hchecked.data ht hdata _ (q.entityIdColumn_mem t base catalog)
    · simp only [hsource] at hname
      cases hage : q.age with
      | current =>
        have hcurrent : (q.placement t base catalog).age = .current := hage
        rw [htable, hcurrent]
        apply declares_of_attached hchecked hf
        rcases List.mem_pair.1 hname with rfl | rfl
        · rcases q.fieldIdColumn_cases t base catalog with hid | ⟨-, hid⟩
          · simp [hid]
          · simp [hid]
        · exact List.mem_cons_self
      | revision =>
        refine hunchecked name (List.mem_append_left _ ?_)
        rwa [if_pos ⟨hsource, hage⟩, ← fieldIdColumn_of_revision hage]
  · exact hunchecked name (List.mem_append_right _ hlangcode)

/-- A join has equations for all that is left unchecked. -/
theorem mem_joinColumns_of_unchecked
    (h : name ∈ (q.placement t base catalog).unchecked r) :
    name ∈ (q.placement t base catalog).joinColumns r.place.source r.langcode := by
  refine (List.mem_append.1 h).elim (fun h => List.mem_append_left _ ?_) (List.mem_append_right _)
  split at h
  · next hrevision =>
    obtain ⟨hsource, hage⟩ := hrevision
    rwa [hsource, fieldIdColumn_of_revision hage]
  · cases h

end Query

namespace CompiledAs
variable {q : Query} {t : EntityType} {base : String} {catalog : Catalog} {c : Compiled}

theorem tableOf?_base (h : CompiledAs q t base catalog c) :
    c.statement.tableOf? baseLabel = some base := by
  rw [← h.label, ← h.table]
  exact c.statement.tableOf?_self

/-- The table behind the label of a join is the one that was asked for. -/
theorem tableOf?_of_first (h : CompiledAs q t base catalog c) {r : Request} {label : String}
    (hfirst : (q.placement t base catalog).first (q.requests t base catalog) r.pair = some r)
    (hlabel : (q.joined t base catalog).registry.get? r.place.table r.langcode = some label) :
    c.statement.tableOf? label = some r.place.table := by
  have hjoin := (q.joined_spec t base catalog).opened r label hfirst hlabel
  rw [← h.joins] at hjoin
  exact Select.tableOf?_of_mem h.apart hjoin

/-- The column of a property belongs to the table where the property was found. -/
theorem tableOf?_column (h : CompiledAs q t base catalog c) {r : Request}
    (hr : r ∈ q.requests t base catalog) : c.statement.tableOf?
      ((q.placement t base catalog).column (q.joined t base catalog) r.place r.langcode).table =
        some r.place.table := by
  cases hatBase : (q.placement t base catalog).atBase r.place with
  | true =>
    rw [Layout.column_of_atBase hatBase, Query.joined_label, h.tableOf?_base,
      (Query.atBase_iff.1 hatBase).2]
  | false =>
    obtain ⟨first, label, hfirst, hlabel, -⟩ := Query.exists_join_of_request hr hatBase
    obtain ⟨htable, hlangcode⟩ := Prod.mk.inj (Layout.pair_of_first hfirst)
    rw [Layout.column_of_get? hatBase hlabel, ← htable]
    apply h.tableOf?_of_first
    · rwa [Layout.pair_of_first hfirst]
    · rwa [htable, hlangcode]

end CompiledAs

/-- The columns that the statement of a query mentions exist if and only if the tables that it joins
have the columns that the catalog is not checked for: the column for languages where a language is
asked for, and for past revisions of a field those of the entity and its type. -/
theorem Query.declared_iff {q : Query} {t : EntityType} {base source : String} {catalog : Catalog}
    {c : Compiled} {d : CatalogDocument} (hload : d.load source = .ok catalog)
    (ht : catalog.describe q.entityType = some t) (hbase : t.baseTable = some base)
    (hc : q.compile catalog = .ok c) : c.statement.Declared catalog ↔
      ∀ pair r, (q.placement t base catalog).first (q.requests t base catalog) pair = some r →
        ∀ name ∈ (q.placement t base catalog).unchecked r, catalog.Declares r.place.table name := by
  have hchecked := d.checked_of_load hload
  have hover := compileOver_of_compile hc ht hbase
  have hcompiled := compiledAs hover
  constructor
  · intro hdeclared pair r hfirst name hname
    obtain rfl := Layout.pair_of_first hfirst
    obtain ⟨label, hlabel, hjoin⟩ := exists_join hfirst
    have hmentioned : ⟨label, name⟩ ∈ c.statement.mentions := by
      refine Select.mem_mentions.2 (.inr (.inl ⟨_, hcompiled.joins ▸ hjoin, ?_⟩))
      exact Layout.exists_mem_terms_iff.2 (.inr ⟨name, mem_joinColumns_of_unchecked hname, rfl⟩)
    obtain ⟨table, htable, hcolumn⟩ := hdeclared _ hmentioned
    rw [hcompiled.tableOf?_of_first hfirst hlabel] at htable
    cases htable
    exact hcolumn
  · intro hunchecked column hcolumn
    cases mentioned_of_mem hover hcolumn with
    | key =>
      exact ⟨base, hcompiled.tableOf?_base, hchecked.base ht hbase _ t.keys.row_mem_columns⟩
    | id => exact ⟨base, hcompiled.tableOf?_base, hchecked.base ht hbase _ List.mem_cons_self⟩
    | @term r label term _ hfirst hlabel hterm hcolumn =>
      rcases Layout.exists_mem_terms_iff.1 ⟨term, hterm, hcolumn⟩ with rfl | ⟨name, hname, rfl⟩
      · refine ⟨base, hcompiled.tableOf?_base, hchecked.base ht hbase _ ?_⟩
        exact q.entityIdColumn_mem t base catalog
      · refine ⟨r.place.table, hcompiled.tableOf?_of_first hfirst hlabel, ?_⟩
        exact declares_of_mem_joinColumns hchecked ht (Layout.mem_of_first hfirst)
          (Layout.atBase_of_first hfirst) hname (hunchecked r.pair r hfirst)
    | @place r hr =>
      obtain ⟨field, hplace⟩ := locate_of_mem_requests hr
      exact ⟨r.place.table, hcompiled.tableOf?_column hr, (Layout.holds_of_locate hplace).declared⟩

/-- Nodes that carry tags, with the columns of the tables of the current and the past tags. -/
def CatalogDocument.tags (current past : List String) : CatalogDocument where
  entityTypes := [{ name := "node", baseTable := some "node", keys := { id := "nid" } }]
  tables := [⟨"node", NameSet.ofNames ["nid"]⟩, ⟨"field_data_tags", NameSet.ofNames current⟩,
    ⟨"field_revision_tags", NameSet.ofNames past⟩]
  fields := [{ name := "tags", bundles := Dict.ofList [("node", NameSet.ofNames ["page"])] }]

/-- The columns that the table of the current tags has to have. -/
def Field.tagColumns : List String :=
  [Field.entityTypeColumn, Field.entityIdColumn, Field.revisionIdColumn, "tags_value"]

/-- Asks for a tag, by age and language. -/
def Query.byTag (age : Age) (langcode : Option String) : Query where
  entityType := "node"
  age := age
  conditions := { parts := [.leaf { field := "tags", value := .string "a", langcode := langcode }] }

/-- Loading and compiling can be evaluated. -/
theorem Query.exists_compiled_of_isSome {d : CatalogDocument} {source : String} {q : Query}
    {p : Catalog → Compiled → Prop} [∀ catalog c, Decidable (p catalog c)]
    (h : ((d.load source).toOption.bind fun catalog =>
      (q.compile catalog).toOption.filter fun c => decide (p catalog c)).isSome = true) :
    ∃ catalog c, d.load source = .ok catalog ∧ q.compile catalog = .ok c ∧ p catalog c := by
  obtain ⟨c, hsome⟩ := Option.isSome_iff_exists.1 h
  obtain ⟨catalog, hload, hfilter⟩ := Option.bind_eq_some_iff.1 hsome
  obtain ⟨hc, hp⟩ := Option.filter_eq_some_iff.1 hfilter
  exact ⟨catalog, c, eq_ok_of_toOption hload, eq_ok_of_toOption hc, of_decide_eq_true hp⟩

theorem Query.declared_iff_byTag : ∃ catalog t base c,
    (CatalogDocument.tags Field.tagColumns (langcodeColumn :: Field.tagColumns)).load "tags" =
      .ok catalog ∧
    catalog.describe "node" = some t ∧ t.baseTable = some base ∧
    (byTag .revision (some "en")).compile catalog = .ok c ∧
    ∀ pair r, ((byTag .revision (some "en")).placement t base catalog).first
        ((byTag .revision (some "en")).requests t base catalog) pair = some r →
      ∀ name ∈ ((byTag .revision (some "en")).placement t base catalog).unchecked r,
        catalog.Declares r.place.table name := by
  have hcompiled : ∃ catalog c,
      (CatalogDocument.tags Field.tagColumns (langcodeColumn :: Field.tagColumns)).load "tags" =
        .ok catalog ∧
      (byTag .revision (some "en")).compile catalog = .ok c ∧ c.statement.Declared catalog :=
    exists_compiled_of_isSome (by decide +kernel)
  obtain ⟨catalog, c, hload, hc, hdeclared⟩ := hcompiled
  obtain ⟨t, base, ht, hbase, -⟩ := compile_eq_ok_iff.1 hc
  exact ⟨catalog, t, base, c, hload, ht, hbase, hc, (declared_iff hload ht hbase hc).1 hdeclared⟩

/-- A catalog is loaded although the table of past tags has no column for the entity type, or the
table of current tags none for the language, and the statement for a query mentions it. -/
theorem Query.exists_loaded_not_declared :
    (∃ catalog c, (CatalogDocument.tags Field.tagColumns ["entity_id", "tags_value"]).load "tags" =
        .ok catalog ∧
      (byTag .revision none).compile catalog = .ok c ∧ ¬ c.statement.Declared catalog) ∧
    ∃ catalog c, (CatalogDocument.tags Field.tagColumns Field.tagColumns).load "tags" =
        .ok catalog ∧
      (byTag .current (some "en")).compile catalog = .ok c ∧ ¬ c.statement.Declared catalog := by
  constructor
  · exact exists_compiled_of_isSome (by decide +kernel)
  · exact exists_compiled_of_isSome (by decide +kernel)

end EntitySelect
