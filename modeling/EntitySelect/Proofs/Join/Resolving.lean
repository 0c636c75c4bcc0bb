import EntitySelect.Join.Resolution
import EntitySelect.Proofs.Catalog.Checked
import EntitySelect.Proofs.Run

/-! A property is made readable by entering the place where it is stored. Such a place is a declared
column, of an entity table or of the table of an attached field. -/
namespace EntitySelect

namespace Layout
variable {layout : Layout} {catalog : Catalog} {place : Location}

/-- What is known of a place that a property can have. -/
structure Holds (layout : Layout) (catalog : Catalog) (place : Location) : Prop where
  declared : catalog.Declares place.table place.column
  stored : place.source = .entityTable ∧ place.table ∈ layout.entityTables ∨
    place.source = .fieldTable ∧ ∃ name, layout.attached.find? name = some true ∧
      place.table = Field.tableName name layout.age

theorem findEntityTable_cases {column : String} {tables : List String}
    (h : findEntityTable catalog column tables = .ok (some place)) :
    place.source = .entityTable ∧ place.table ∈ tables ∧
      catalog.Declares place.table place.column := by
  induction tables with
  | nil => cases h
  | cons table rest ih =>
    unfold findEntityTable at h
    split at h
    · cases h
    · next t ht =>
      split at h
      · next hcolumn =>
        cases h
        exact ⟨rfl, List.mem_cons_self, t, ht, hcolumn⟩
      · obtain ⟨hsource, htable, hdeclared⟩ := ih h
        exact ⟨hsource, List.mem_cons_of_mem _ htable, hdeclared⟩

theorem holds_of_findFieldTable {s : Specifier}
    (h : layout.findFieldTable catalog s = .ok (some place)) : layout.Holds catalog place := by
  unfold findFieldTable at h
  split at h
  · next hattached =>
    simp only at h
    split at h
    · cases h
    · next t ht =>
      split at h
      · next hcolumn =>
        cases h
        exact ⟨⟨t, ht, hcolumn⟩, .inr ⟨rfl, s.name, hattached, rfl⟩⟩
      · cases h
  · cases h

theorem holds_of_locate {specifier : String}
    (h : layout.locate catalog specifier = .ok (some place)) : layout.Holds catalog place := by
  unfold locate at h
  split at h
  · cases h
  · split at h
    · exact holds_of_findFieldTable h
    · split at h
      · exact holds_of_findFieldTable h
      · obtain ⟨hsource, htable, hdeclared⟩ := findEntityTable_cases h
        exact ⟨hdeclared, .inl ⟨hsource, htable⟩⟩

/-- Why a property cannot be looked up: it is not of the right form, or it is looked for in an entity
table, or in the table of an attached field, that is not declared. -/
inductive Unlocatable (layout : Layout) (catalog : Catalog) (specifier : String) :
    QueryError → Prop
  | malformed (flaw : SpecifierFlaw) :
    Unlocatable layout catalog specifier (.invalidSpecifier specifier flaw)
  | entityTable {table : String} : table ∈ layout.entityTables → catalog.table table = none →
    Unlocatable layout catalog specifier (.unknownTable table)
  | fieldTable {name : String} {column : Option String} :
    Specifier.parse specifier = .ok ⟨name, column⟩ → layout.attached.find? name = some true →
    catalog.table (Field.tableName name layout.age) = none →
    Unlocatable layout catalog specifier (.unknownTable (Field.tableName name layout.age))

theorem unlocatable_of_findEntityTable {specifier column : String} {tables : List String}
    {e : QueryError} (htables : tables ⊆ layout.entityTables)
    (h : findEntityTable catalog column tables = .error e) :
    layout.Unlocatable catalog specifier e := by
  induction tables with
  | nil => cases h
  | cons table rest ih =>
    unfold findEntityTable at h
    split at h
    · next hnone =>
      cases h
      exact .entityTable (htables List.mem_cons_self) hnone
    · split at h
      · cases h
      · exact ih (List.subset_of_cons_subset htables) h

theorem unlocatable_of_findFieldTable {specifier : String} {s : Specifier} {e : QueryError}
    (hs : Specifier.parse specifier = .ok s) (h : layout.findFieldTable catalog s = .error e) :
    layout.Unlocatable catalog specifier e := by
  unfold findFieldTable at h
  split at h
  · next hattached =>
    simp only at h
    split at h
    · next hnone =>
      cases h
      exact .fieldTable hs hattached hnone
    · cases h
  · cases h

theorem unlocatable_of_locate {specifier : String} {e : QueryError}
    (h : layout.locate catalog specifier = .error e) : layout.Unlocatable catalog specifier e := by
  unfold locate at h
  split at h
  · cases h
    exact .malformed _
  · next hs =>
    split at h
    · exact unlocatable_of_findFieldTable hs h
    · split at h
      · exact unlocatable_of_findFieldTable hs h
      · exact unlocatable_of_findEntityTable (List.Subset.refl _) h

/-- The entity tables are the only source of entity properties. -/
theorem Holds.table_mem (h : layout.Holds catalog place) (hsource : place.source = .entityTable) :
    place.table ∈ layout.entityTables := by
  rcases h.stored with ⟨-, htable⟩ | ⟨hfield, -⟩
  · exact htable
  · rw [hfield] at hsource
    cases hsource

end Layout

theorem Layout.gives_resolve_iff {layout : Layout} {catalog : Catalog} {specifier : String}
    {kind : JoinKind} {langcode : Option String} {r : Resolution} {j k : Joining} :
    Gives (layout.resolve catalog specifier kind langcode) j r k ↔
      ∃ place, layout.locate catalog specifier = .ok (some place) ∧
        r = (layout.enter place kind langcode j).1 ∧
          k = (layout.enter place kind langcode j).2 := by
  unfold resolve
  rcases layout.locate catalog specifier with e | _ | place
  · simp [not_gives_throw]
  · simp [not_gives_throw]
  · simp [gives_modifyGet_iff]

end EntitySelect
