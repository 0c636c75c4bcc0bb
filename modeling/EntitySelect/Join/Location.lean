import EntitySelect.Catalog.Basic
import EntitySelect.Query.Error
import EntitySelect.Text.Basic

/-! Where the properties of an entity type are stored. -/
namespace EntitySelect

/-- What a query knows of its entity type when properties are looked up. -/
structure Layout where
  entityType : String
  baseTable : String
  /-- The tables of entity properties, the first to be searched first. -/
  entityTables : List String
  age : Age
  /-- The column of the base table that other tables are joined to. -/
  entityIdColumn : String
  /-- The column of a field table that is joined to it. -/
  fieldIdColumn : String
  /-- Which configurable fields there are, and whether the entity type carries them. -/
  attached : Dict Bool
  deriving DecidableEq, Repr

/-- A property: its name, and a column if one is named. -/
structure Specifier where
  name : String
  column : Option String
  deriving DecidableEq, Repr

namespace Specifier

/-- Reads `name` or `name.column`. -/
def parse (s : String) : Except SpecifierFlaw Specifier :=
  match (Text.pieces '.' s.toList).map String.ofList with
  | [name] => if name = "" then .error .emptyName else .ok ⟨name, none⟩
  | [name, column] =>
    if name = "" ∨ column = "" then .error .emptyName else .ok ⟨name, some column⟩
  | _ => .error .tooManyParts

/-- The part before the first point. -/
def head (s : String) : String := String.ofList (s.toList.takeWhile (· != '.'))

end Specifier

/-- Which kind of table a property is read from. -/
inductive Source where
  | entityTable
  | fieldTable
  deriving DecidableEq, Repr

/-- A place where a property is stored. -/
structure Location where
  source : Source
  table : String
  column : String
  deriving DecidableEq, Repr

namespace Layout

/-- The first entity table that has the column. -/
def findEntityTable (catalog : Catalog) (column : String) :
    List String → Except QueryError (Option Location)
  | [] => .ok none
  | table :: rest =>
    match catalog.table table with
    | none => .error (.unknownTable table)
    | some t =>
      if t.hasColumn column then .ok (some ⟨.entityTable, table, column⟩)
      else findEntityTable catalog column rest

/-- The column of a field's table; positions are not named after the field. -/
def fieldColumn (field : String) (column : Option String) : String :=
  let column := column.getD Field.defaultColumn
  if column = Field.deltaColumn then column else Field.columnName field column

/-- The table of an attached field, if it has the column. -/
def findFieldTable (layout : Layout) (catalog : Catalog) (s : Specifier) :
    Except QueryError (Option Location) :=
  if layout.attached.find? s.name = some true then
    let table := Field.tableName s.name layout.age
    match catalog.table table with
    | none => .error (.unknownTable table)
    | some t =>
      let column := fieldColumn s.name s.column
      .ok (if t.hasColumn column then some ⟨.fieldTable, table, column⟩ else none)
  else .ok none

/-- Where a property is stored: in an entity table if no column is named and one has it, else in
the table of an attached field. -/
def locate (layout : Layout) (catalog : Catalog) (specifier : String) :
    Except QueryError (Option Location) :=
  match Specifier.parse specifier with
  | .error flaw => .error (.invalidSpecifier specifier flaw)
  | .ok s =>
    match s.column with
    | some _ => layout.findFieldTable catalog s
    | none =>
      match findEntityTable catalog s.name layout.entityTables with
      | .ok none => layout.findFieldTable catalog s
      | found => found

/-- Says of a property without a place whether its field is known at least. -/
def notFound (layout : Layout) (specifier : String) : QueryError :=
  let name := Specifier.head specifier
  if layout.attached.find? name = some false then .fieldNotAttached name layout.entityType
  else .unresolvableField specifier layout.entityType

end Layout
end EntitySelect
