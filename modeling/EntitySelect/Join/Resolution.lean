import EntitySelect.Join.Location
import EntitySelect.Select.Basic

/-! Making a property readable in a statement. Each table is joined once for each language, when a
property in it is first asked for; the base table is never joined. -/
namespace EntitySelect

/-- Labels by table and language. No language is not the same as an empty one. -/
structure Registry where
  entries : List ((String × Option String) × String) := []
  deriving DecidableEq, Repr

namespace Registry

def get? (r : Registry) (table : String) (langcode : Option String) : Option String :=
  r.entries.lookup (table, langcode)

/-- Notes a join; the first one for a table and language counts. -/
def register (r : Registry) (table : String) (langcode : Option String) (label : String) :
    Registry :=
  if (r.get? table langcode).isSome then r else ⟨r.entries ++ [((table, langcode), label)]⟩

def size (r : Registry) : Nat := r.entries.length

def isEmpty (r : Registry) : Bool := r.entries.isEmpty

end Registry

/-- A statement, and the joins that properties have brought into it. -/
structure Joining where
  statement : Select
  registry : Registry := {}
  deriving Repr

/-- A property that can be read. -/
structure Resolution where
  column : Column
  source : Source
  /-- A table of field values was joined for it. Such a table can have several rows for one
  entity. -/
  addsFieldTable : Bool
  deriving DecidableEq, Repr

/-- Work on a statement that can fail; joins made before a failure stay. -/
abbrev Resolving := ExceptT QueryError (StateM Joining)

namespace Layout

/-- Joins a table unless that has been done for the language. The label, and whether it is new. -/
def join (table : String) (langcode : Option String) (kind : JoinKind)
    (on : String → List JoinTerm) (j : Joining) : (String × Bool) × Joining :=
  match j.registry.get? table langcode with
  | some label => ((label, false), j)
  | none =>
    let (label, statement) := j.statement.addJoin kind table on
    ((label, true), ⟨statement, j.registry.register table langcode label⟩)

/-- Restricts a joined table to a language, if one is asked for. -/
def languageTerms (langcode : Option String) (label : String) : List JoinTerm :=
  langcode.toList.map fun l => .value ⟨label, langcodeColumn⟩ (.string l)

/-- Rows of a data table belong to the entity or revision of the base table's row. -/
def entityTerms (layout : Layout) (langcode : Option String) (base label : String) :
    List JoinTerm :=
  .columns ⟨label, layout.entityIdColumn⟩ ⟨base, layout.entityIdColumn⟩ ::
    languageTerms langcode label

/-- Rows of a field table do so too, and hold the entity type as well. -/
def fieldTerms (layout : Layout) (langcode : Option String) (base label : String) :
    List JoinTerm :=
  .columns ⟨label, layout.fieldIdColumn⟩ ⟨base, layout.entityIdColumn⟩ ::
    .value ⟨label, Field.entityTypeColumn⟩ (.string layout.entityType) ::
    languageTerms langcode label

/-- Makes a place readable. A table that is joined already keeps its kind of join. -/
def enter (layout : Layout) (place : Location) (kind : JoinKind) (langcode : Option String)
    (j : Joining) : Resolution × Joining :=
  match place.source with
  | .entityTable =>
    if place.table = layout.baseTable then
      (⟨⟨j.statement.label, place.column⟩, .entityTable, false⟩, j)
    else
      let ((label, _), j) :=
        join place.table langcode kind (layout.entityTerms langcode j.statement.label) j
      (⟨⟨label, place.column⟩, .entityTable, false⟩, j)
  | .fieldTable =>
    let ((label, new), j) :=
      join place.table langcode kind (layout.fieldTerms langcode j.statement.label) j
    (⟨⟨label, place.column⟩, .fieldTable, new⟩, j)

/-- Makes a property readable. A failure changes nothing. -/
def resolve (layout : Layout) (catalog : Catalog) (specifier : String) (kind : JoinKind)
    (langcode : Option String) : Resolving Resolution := do
  match layout.locate catalog specifier with
  | .error e => throw e
  | .ok none => throw (layout.notFound specifier)
  | .ok (some place) => modifyGet (layout.enter place kind langcode)

end Layout
end EntitySelect
