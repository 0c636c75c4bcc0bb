import EntitySelect.Proofs.Query.Compilable
import EntitySelect.Proofs.Query.Declared

/-! What a catalog that has been loaded can lack for a query: the entity type, its base table, or
the table of the revisions of a field. Every other table that a query needs is declared. -/
namespace EntitySelect

theorem Catalog.table_ne_none {c : Catalog} {table column : String} (h : c.Declares table column) :
    c.table table ≠ none := by
  obtain ⟨t, ht, -⟩ := h
  rw [ht]
  exact Option.some_ne_none t

theorem Leaf.fault?_field {layout : Layout} {catalog : Catalog} {l : Leaf} {e : QueryError}
    (h : l.fault? layout catalog = some e) (he : e.category = .configuration) :
    layout.fault? catalog l.field = some e := by
  unfold fault? at h
  split at h
  · next hfits =>
    -- a value that does not fit is for the caller to mend
    unfold comparison at hfits
    split at hfits
    · cases hfits
    · cases hfits
      cases h
      cases he
  · exact h

theorem Layout.unlocatable_of_fault? {layout : Layout} {catalog : Catalog} {specifier : String}
    {e : QueryError} (h : layout.fault? catalog specifier = some e)
    (he : e.category = .configuration) : layout.Unlocatable catalog specifier e := by
  unfold fault? at h
  split at h
  · next hlocate =>
    cases h
    exact unlocatable_of_locate hlocate
  · cases h
    unfold notFound at he
    simp only at he
    split at he <;> cases he
  · cases h

namespace Query
variable {q : Query} {t : EntityType} {base : String} {catalog : Catalog}

/-- The query names the field, in a condition or in an ordering that is not by a key column. -/
def Names (q : Query) (t : EntityType) (field : String) : Prop :=
  ∃ specifier column, Specifier.parse specifier = .ok ⟨field, column⟩ ∧
    ((∃ l ∈ q.conditions.leaves, l.field = specifier) ∨
      ∃ s ∈ q.activeSorts, s.field = specifier ∧ t.keys.has specifier = false)

/-- The entity type carries a field that the query names, and the table of its revisions is not
declared. -/
structure Misses (q : Query) (t : EntityType) (catalog : Catalog) (field : String) : Prop where
  carried : ∃ f, catalog.field field = some f ∧ f.isAttachedTo q.entityType = true
  named : q.Names t field
  undeclared : catalog.table (Field.tableName field .revision) = none

/-- What the catalog has to be mended for comes up when a property of the query is looked up. -/
theorem exists_unlocatable {e : QueryError} (h : q.fault? t base catalog = some e)
    (he : e.category = .configuration) : ∃ specifier,
      (q.placement t base catalog).Unlocatable catalog specifier e ∧
        ((∃ l ∈ q.conditions.leaves, l.field = specifier) ∨
          ∃ s ∈ q.activeSorts, s.field = specifier ∧ t.keys.has specifier = false) := by
  rw [fault?, Option.or_eq_some_iff] at h
  rcases h with h | ⟨-, h⟩
  · obtain ⟨l, hl, hfault⟩ := List.exists_of_findSome?_eq_some h
    exact ⟨l.field, Layout.unlocatable_of_fault? (Leaf.fault?_field hfault he) he,
      .inl ⟨l, hl, rfl⟩⟩
  · obtain ⟨s, hs, hfault⟩ := List.exists_of_findSome?_eq_some h
    unfold Sorting.fault? at hfault
    split at hfault
    · cases hfault
    · next hlabel =>
      refine ⟨s.field, Layout.unlocatable_of_fault? hfault he, .inr ⟨s, hs, rfl, ?_⟩⟩
      rcases q.start_label? t base s.field with ⟨-, hhas⟩ | ⟨label, hsome, -⟩
      · exact hhas
      · rw [hlabel] at hsome
        cases hsome

/-- The entity tables of a loaded catalog are declared. -/
theorem table_ne_none_of_mem (hchecked : catalog.Checked)
    (ht : catalog.describe q.entityType = some t) (hbase : t.baseTable = some base) {table : String}
    (h : table ∈ (q.placement t base catalog).entityTables) : catalog.table table ≠ none := by
  rcases List.mem_append.1 h with hdata | hmem
  · exact Catalog.table_ne_none
      (hchecked.data ht (Option.mem_toList.1 hdata) t.keys.id List.mem_cons_self)
  · rw [List.mem_singleton.1 hmem]
    exact Catalog.table_ne_none (hchecked.base ht hbase t.keys.id List.mem_cons_self)

/-- The only table that a query can miss is one of the revisions of a field. -/
theorem misses_of_fault? (hchecked : catalog.Checked) (ht : catalog.describe q.entityType = some t)
    (hbase : t.baseTable = some base) {e : QueryError} (h : q.fault? t base catalog = some e)
    (he : e.category = .configuration) : q.age = .revision ∧
      ∃ field, e = .unknownTable (Field.tableName field .revision) ∧ q.Misses t catalog field := by
  obtain ⟨specifier, hunlocatable, hasked⟩ := exists_unlocatable h he
  cases hunlocatable with
  | malformed => cases he
  | entityTable hmem hnone => exact absurd hnone (table_ne_none_of_mem hchecked ht hbase hmem)
  | @fieldTable field column hparse hattached hnone =>
    change catalog.table (Field.tableName field q.age) = none at hnone
    change q.age = _ ∧ ∃ name, QueryError.unknownTable (Field.tableName field q.age) = _ ∧ _
    cases hage : q.age with
    | current =>
      rw [hage] at hnone
      have hdeclared := declares_of_attached hchecked hattached _ List.mem_cons_self
      exact absurd hnone (Catalog.table_ne_none hdeclared)
    | revision =>
      rw [hage] at hnone
      exact ⟨rfl, field, rfl, attached_iff.1 hattached, ⟨specifier, column, hparse, hasked⟩, hnone⟩

/-- What a loaded catalog has to be mended for: the entity type of the query is not described, or it
is without a base table, or past revisions are asked for and the first fault of the query is that
the revisions of a field that it names have no table. -/
theorem compile_eq_configuration_iff {d : CatalogDocument} {source : String}
    (hload : d.load source = .ok catalog) {e : QueryError} :
    q.compile catalog = .error e ∧ e.category = .configuration ↔
      (catalog.describe q.entityType = none ∧ e = .unknownEntityType q.entityType) ∨
      (∃ t, catalog.describe q.entityType = some t ∧ t.baseTable = none ∧
        e = .noBaseTable q.entityType) ∨
      (q.age = .revision ∧ ∃ t base field, catalog.describe q.entityType = some t ∧
        t.baseTable = some base ∧ q.Misses t catalog field ∧
        e = .unknownTable (Field.tableName field .revision) ∧
        q.fault? t base catalog = some e) := by
  have hchecked := d.checked_of_load hload
  rw [compile_eq_error_iff]
  constructor
  · rintro ⟨hundescribed | hbaseless | ⟨t, base, ht, hbase, hfault⟩, hcategory⟩
    · exact .inl hundescribed
    · exact .inr (.inl hbaseless)
    · obtain ⟨hage, field, he, hmisses⟩ := misses_of_fault? hchecked ht hbase hfault hcategory
      exact .inr (.inr ⟨hage, t, base, field, ht, hbase, hmisses, he, hfault⟩)
  · rintro (⟨ht, rfl⟩ | ⟨t, ht, hbase, rfl⟩ | ⟨-, t, base, field, ht, hbase, -, rfl, hfault⟩)
    · exact ⟨.inl ⟨ht, rfl⟩, rfl⟩
    · exact ⟨.inr (.inl ⟨t, ht, hbase, rfl⟩), rfl⟩
    · exact ⟨.inr (.inr ⟨t, base, ht, hbase, hfault⟩), rfl⟩

end Query

/-- Nodes that carry tags, with no table for past ones. -/
def CatalogDocument.currentTags : CatalogDocument :=
  { tags Field.tagColumns [] with
    tables := [⟨"node", NameSet.ofNames ["nid"]⟩,
      ⟨"field_data_tags", NameSet.ofNames Field.tagColumns⟩] }

theorem Query.compile_eq_configuration_iff_currentTags : ∃ catalog t field,
    CatalogDocument.currentTags.load "tags" = .ok catalog ∧
      (byTag .revision none).compile catalog = .error (.unknownTable "field_revision_tags") ∧
      (byTag .revision none).Misses t catalog field ∧
      Field.tableName field .revision = "field_revision_tags" := by
  obtain ⟨catalog, hload⟩ : ∃ catalog, CatalogDocument.currentTags.load "tags" = .ok catalog :=
    ⟨_, rfl⟩
  have hcompile : (byTag .revision none).compile catalog =
      .error (.unknownTable "field_revision_tags") := by
    cases hload
    rfl
  rcases (compile_eq_configuration_iff hload).1 ⟨hcompile, rfl⟩ with
    ⟨-, he⟩ | ⟨_, -, -, he⟩ | ⟨-, t, -, field, -, -, hmisses, he, -⟩
  · cases he
  · cases he
  · exact ⟨catalog, t, field, hload, hcompile, hmisses, (QueryError.unknownTable.inj he).symm⟩

end EntitySelect
