import EntitySelect.Dict

/-! The storage catalog: which tables there are, where each entity type is stored, and which
configurable fields its bundles carry. -/
namespace EntitySelect

/-- The key columns of an entity type. -/
structure EntityKeys where
  id : String
  /-- The revision column, if the type keeps revisions. -/
  revision : Option String := none
  /-- The bundle column, if the type has bundles. -/
  bundle : Option String := none
  deriving DecidableEq, Repr

/-- Where one entity type is stored. A type without a base table cannot be queried. -/
structure EntityType where
  name : String
  baseTable : Option String := none
  /-- The table of properties held once per language. -/
  dataTable : Option String := none
  keys : EntityKeys
  deriving DecidableEq, Repr

/-- A table and its columns. -/
structure Table where
  name : String
  columns : NameSet
  deriving DecidableEq, Repr

/-- A configurable field, with the bundles of each entity type that carry it. -/
structure Field where
  name : String
  bundles : Dict NameSet := Dict.empty
  deriving DecidableEq, Repr

/-- Entity types, tables and fields by name. -/
structure Catalog where
  entityTypes : Dict EntityType := Dict.empty
  tables : Dict Table := Dict.empty
  fields : Dict Field := Dict.empty
  deriving DecidableEq, Repr

/-- Which stored revisions a query looks at. -/
inductive Age where
  | current
  | revision
  deriving DecidableEq, Repr

def Age.word : Age → String
  | .current => "current"
  | .revision => "revision"

def Age.ofWord? : String → Option Age
  | "current" => some .current
  | "revision" => some .revision
  | _ => none

namespace EntityType

def isRevisionable (t : EntityType) : Bool := t.keys.revision.isSome

def isTranslatable (t : EntityType) : Bool := t.dataTable.isSome

end EntityType

namespace Table

def hasColumn (t : Table) (column : String) : Bool := t.columns.has column

end Table

namespace Field

/-- Adds one bundle of an entity type. -/
def attach (f : Field) (entityType bundle : String) : Field :=
  let old := (f.bundles.find? entityType).getD Dict.empty
  { f with bundles := f.bundles.insert entityType (old.add bundle) }

/-- Whether some bundle of the entity type carries the field. -/
def isAttachedTo (f : Field) (entityType : String) : Bool :=
  match f.bundles.find? entityType with
  | some bundles => !bundles.isEmpty
  | none => false

/-- Each field keeps its values in a table of its own, one for each age. -/
def tableName (field : String) : Age → String
  | .current => "field_data_" ++ field
  | .revision => "field_revision_" ++ field

/-- The columns of a field's values carry the name of the field. -/
def columnName (field column : String) : String := field ++ "_" ++ column

/-- The column read when none is named. -/
def defaultColumn : String := "value"

/-- The position of a value among those of its field; the name of the field is not put before
it. -/
def deltaColumn : String := "delta"

/-- The entity type, the entity and the revision that a row of values belongs to. -/
def entityTypeColumn : String := "entity_type"

def entityIdColumn : String := "entity_id"

def revisionIdColumn : String := "revision_id"

end Field

/-- The language of a row, in data tables and in field tables. -/
def langcodeColumn : String := "langcode"

namespace Catalog

def describe (c : Catalog) (entityType : String) : Option EntityType :=
  c.entityTypes.find? entityType

def table (c : Catalog) (name : String) : Option Table := c.tables.find? name

def field (c : Catalog) (name : String) : Option Field := c.fields.find? name

/-- For each field, the bundles of each entity type that carry it. -/
def bundleMap (c : Catalog) : Dict (Dict NameSet) := c.fields.map (·.bundles)

end Catalog
end EntitySelect
