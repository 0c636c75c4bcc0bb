import EntitySelect.Catalog.Basic
import EntitySelect.Catalog.Error
import EntitySelect.Text.Basic

/-! Building a catalog from its entries, and checking it. A catalog that passes names only tables
and columns that it declares, under names that may stand in a statement. -/
namespace EntitySelect
namespace Catalog

def addTable (c : Catalog) (t : Table) : Except CatalogError Catalog :=
  if c.tables.contains t.name then .error (.duplicate .table t.name)
  else .ok { c with tables := c.tables.insert t.name t }

def addEntityType (c : Catalog) (t : EntityType) : Except CatalogError Catalog :=
  if c.entityTypes.contains t.name then .error (.duplicate .entityType t.name)
  else .ok { c with entityTypes := c.entityTypes.insert t.name t }

def addField (c : Catalog) (f : Field) : Except CatalogError Catalog :=
  if c.fields.contains f.name then .error (.duplicate .field f.name)
  else .ok { c with fields := c.fields.insert f.name f }

def checkIdentifier (name : String) (place : NamePlace) : Except CatalogError Unit :=
  if Text.isIdentifier name then .ok () else .error (.invalidIdentifier name place)

/-- A table and its columns have identifiers for names. -/
def checkTableNames (t : Table) : Except CatalogError Unit := do
  checkIdentifier t.name (.nameOf .table)
  t.columns.names.forM (checkIdentifier · (.columnOf t.name))

/-- Every name that can reach a statement is an identifier. -/
def checkIdentifiers (c : Catalog) : Except CatalogError Unit := do
  c.tables.values.forM checkTableNames
  c.entityTypes.values.forM fun t => checkIdentifier t.name (.nameOf .entityType)
  c.fields.values.forM fun f => checkIdentifier f.name (.nameOf .field)

/-- The table is declared and has the columns. -/
def requireTable (c : Catalog) (source table owner : String) (columns : List String) :
    Except CatalogError Unit :=
  match c.table table with
  | none => .error (.malformed source (.undeclaredTable table owner))
  | some t =>
    match columns.find? (fun column => !t.hasColumn column) with
    | some column => .error (.malformed source (.missingColumn table column))
    | none => .ok ()

/-- The tables of an entity type exist and have its key columns, and a data table comes with a
base table. -/
def checkEntityType (c : Catalog) (source : String) (t : EntityType) : Except CatalogError Unit := do
  let keys := t.keys.id :: t.keys.revision.toList
  match t.baseTable with
  | some base => c.requireTable source base t.name keys
  | none => if t.isTranslatable then throw (.malformed source (.dataWithoutBase t.name))
  match t.dataTable with
  | some data => c.requireTable source data t.name keys
  | none => return ()

/-- A field is attached to known entity types only, and if it is attached at all there is a table
for its current values. The table of its revisions may be absent. -/
def checkField (c : Catalog) (source : String) (f : Field) : Except CatalogError Unit := do
  f.bundles.keys.forM fun t =>
    if (c.describe t).isNone then throw (.malformed source (.unknownEntityType f.name t)) else pure ()
  if !f.bundles.isEmpty then
    c.requireTable source (Field.tableName f.name .current) f.name
      [Field.entityTypeColumn, Field.entityIdColumn, Field.revisionIdColumn]

/-- Checks identifiers, then entity types, then fields, each in the order of names, and stops at
the first flaw. -/
def validate (c : Catalog) (source : String) : Except CatalogError Unit := do
  c.checkIdentifiers
  c.entityTypes.values.forM (c.checkEntityType source)
  c.fields.values.forM (c.checkField source)

end Catalog

/-- The entries of a catalog, in the order in which they are declared. -/
structure CatalogDocument where
  entityTypes : List EntityType := []
  tables : List Table := []
  fields : List Field := []
  deriving DecidableEq, Repr

namespace CatalogDocument

/-- The entries under their names, tables first, then entity types, then fields. -/
def register (d : CatalogDocument) : Except CatalogError Catalog := do
  let c ← d.tables.foldlM Catalog.addTable {}
  let c ← d.entityTypes.foldlM Catalog.addEntityType c
  d.fields.foldlM Catalog.addField c

/-- A checked catalog of the entries. -/
def load (d : CatalogDocument) (source : String) : Except CatalogError Catalog := do
  let c ← d.register
  c.validate source
  return c

end CatalogDocument
end EntitySelect
