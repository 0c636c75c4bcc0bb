import EntitySelect.Catalog.Loading
import EntitySelect.Proofs.Dict
import EntitySelect.Proofs.Run

/-! What a catalog that has been loaded guarantees: its entries stand under their own names, its
tables and columns have identifiers for names, and the tables that entity types and the current
values of fields are kept in have their key columns. -/
namespace EntitySelect

/-- The key columns of the tables of an entity type. -/
def EntityKeys.columns (k : EntityKeys) : List String := k.id :: k.revision.toList

namespace Catalog
variable {c c' : Catalog} {source name table column : String}

/-- Every entry stands under its own name. -/
structure Named (c : Catalog) : Prop where
  tables : ∀ {name t}, c.table name = some t → t.name = name
  entityTypes : ∀ {name t}, c.describe name = some t → t.name = name
  fields : ∀ {name f}, c.field name = some f → f.name = name

theorem Named.addTable (h : c.Named) {t : Table} (hadd : c.addTable t = .ok c') : c'.Named := by
  unfold Catalog.addTable at hadd
  split at hadd
  · cases hadd
  · cases hadd
    exact { h with tables := Dict.keeps_insert h.tables rfl }

theorem Named.addEntityType (h : c.Named) {t : EntityType} (hadd : c.addEntityType t = .ok c') :
    c'.Named := by
  unfold Catalog.addEntityType at hadd
  split at hadd
  · cases hadd
  · cases hadd
    exact { h with entityTypes := Dict.keeps_insert h.entityTypes rfl }

theorem Named.addField (h : c.Named) {f : Field} (hadd : c.addField f = .ok c') : c'.Named := by
  unfold Catalog.addField at hadd
  split at hadd
  · cases hadd
  · cases hadd
    exact { h with fields := Dict.keeps_insert h.fields rfl }

/-- The catalog declares a table that has the column. -/
def Declares (c : Catalog) (table column : String) : Prop :=
  ∃ t ∈ c.table table, t.hasColumn column = true

instance (c : Catalog) (table column : String) : Decidable (c.Declares table column) :=
  inferInstanceAs (Decidable (∃ t ∈ c.table table, t.hasColumn column = true))

theorem declares_of_requireTable {owner : String} {columns : List String}
    (h : c.requireTable source table owner columns = .ok ⟨⟩) (hcolumn : column ∈ columns) :
    c.Declares table column := by
  unfold requireTable at h
  split at h
  · cases h
  · next t ht =>
    split at h
    · cases h
    · next hnone =>
      refine ⟨t, ht, ?_⟩
      simpa using List.find?_eq_none.1 hnone column hcolumn

/-- The base table of an entity type is checked before its data table. -/
theorem checkEntityType_eq (c : Catalog) (source : String) (t : EntityType) :
    c.checkEntityType source t =
      (match t.baseTable with
        | some base => c.requireTable source base t.name t.keys.columns
        | none => if t.isTranslatable then .error (.malformed source (.dataWithoutBase t.name))
          else .ok ()) >>= fun _ =>
      match t.dataTable with
        | some data => c.requireTable source data t.name t.keys.columns
        | none => .ok () := by
  unfold checkEntityType
  cases t.baseTable with
  | some base => rfl
  | none =>
    cases t.isTranslatable with
    | true => rfl
    | false => rfl

theorem isIdentifier_of_checkIdentifier {place : NamePlace}
    (h : checkIdentifier name place = .ok ⟨⟩) : Text.isIdentifier name = true := by
  unfold checkIdentifier at h
  split at h
  · assumption
  · cases h

/-- What checking a catalog comes to. -/
structure Checked (c : Catalog) : Prop extends c.Named where
  identifiers : ∀ {table column}, c.Declares table column →
    Text.isIdentifier table = true ∧ Text.isIdentifier column = true
  base : ∀ {name t base}, c.describe name = some t → t.baseTable = some base →
    ∀ column ∈ t.keys.columns, c.Declares base column
  data : ∀ {name t data}, c.describe name = some t → t.dataTable = some data →
    ∀ column ∈ t.keys.columns, c.Declares data column
  /-- The table of the revisions of a field is not checked, nor is the column for languages. -/
  current : ∀ {name f}, c.field name = some f → f.bundles.isEmpty = false →
    ∀ column ∈ [Field.entityTypeColumn, Field.entityIdColumn, Field.revisionIdColumn],
      c.Declares (Field.tableName name .current) column

theorem checked_of_validate (hnamed : c.Named) (h : c.validate source = .ok ⟨⟩) : c.Checked := by
  obtain ⟨_, hidentifiers, h⟩ := bind_eq_ok_iff.1 h
  obtain ⟨_, htypes, hfields⟩ := bind_eq_ok_iff.1 h
  obtain ⟨_, htables, -⟩ := bind_eq_ok_iff.1 hidentifiers
  rw [forM_eq_ok_iff] at htables htypes hfields
  refine { hnamed with identifiers := ?_, base := ?_, data := ?_, current := ?_ }
  · rintro table column ⟨t, ht, hcolumn⟩
    obtain ⟨_, htable, hcolumns⟩ := bind_eq_ok_iff.1 (htables t (Dict.mem_values_of_find? ht))
    rw [forM_eq_ok_iff] at hcolumns
    rw [← hnamed.tables ht]
    exact ⟨isIdentifier_of_checkIdentifier htable,
      isIdentifier_of_checkIdentifier (hcolumns column (NameSet.mem_names_of_has hcolumn))⟩
  · intro name t base ht hbase column hcolumn
    have hcheck := htypes t (Dict.mem_values_of_find? ht)
    rw [checkEntityType_eq, hbase] at hcheck
    obtain ⟨_, hrequire, -⟩ := bind_eq_ok_iff.1 hcheck
    exact declares_of_requireTable hrequire hcolumn
  · intro name t data ht hdata column hcolumn
    have hcheck := htypes t (Dict.mem_values_of_find? ht)
    rw [checkEntityType_eq, hdata] at hcheck
    obtain ⟨_, -, hrequire⟩ := bind_eq_ok_iff.1 hcheck
    exact declares_of_requireTable hrequire hcolumn
  · intro name f hf hattached column hcolumn
    have hcheck := hfields f (Dict.mem_values_of_find? hf)
    obtain ⟨_, -, hrequire⟩ := bind_eq_ok_iff.1 hcheck
    rw [hattached] at hrequire
    rw [← hnamed.fields hf]
    exact declares_of_requireTable hrequire hcolumn

end Catalog

/-- A catalog that has been loaded has been checked. -/
theorem CatalogDocument.checked_of_load {d : CatalogDocument} {source : String} {c : Catalog}
    (h : d.load source = .ok c) : c.Checked := by
  obtain ⟨c', hregister, h⟩ := bind_eq_ok_iff.1 h
  obtain ⟨_, hvalidate, hpure⟩ := bind_eq_ok_iff.1 h
  cases hpure
  refine Catalog.checked_of_validate ?_ hvalidate
  obtain ⟨withTables, htables, h⟩ := bind_eq_ok_iff.1 hregister
  obtain ⟨withTypes, htypes, hfields⟩ := bind_eq_ok_iff.1 h
  have hempty : ({} : Catalog).Named := ⟨nofun, nofun, nofun⟩
  have hnamedTables := foldlM_keeps (fun _ _ _ h => Catalog.Named.addTable h) hempty htables
  have hnamedTypes :=
    foldlM_keeps (fun _ _ _ h => Catalog.Named.addEntityType h) hnamedTables htypes
  exact foldlM_keeps (fun _ _ _ h => Catalog.Named.addField h) hnamedTypes hfields

end EntitySelect
