import EntitySelect.Condition.Where
import EntitySelect.Query.Basic
import EntitySelect.Text.Basic

/-! The statement for a query.
A statement is simple when no entity can give two rows, or when that does not matter because
neither a window nor a count is asked for. Any other statement groups its rows by the key columns,
and orders by the least or greatest value where a property can have several. -/
namespace EntitySelect

/-- The label of the base table in every statement for a query. -/
def baseLabel : String := "base_table"

/-- A query, compiled. Column zero of the statement is the row key, column one the entity id. -/
structure Compiled where
  statement : Select
  entityType : String
  keyLabel : String
  valueLabel : String
  simple : Bool
  count : Bool
  /-- The pager, if it is active. -/
  pager : Option Pager
  joinCount : Nat
  deriving Repr

/-- The selected key columns: each property with its label. -/
structure KeyColumns where
  entries : List (String × String)
  keyLabel : String
  valueLabel : String
  deriving DecidableEq, Repr

/-- What an ordering orders by. -/
inductive SortSource where
  | key (label : String)
  | property (r : Resolution)
  deriving DecidableEq, Repr

structure ResolvedSort where
  sorting : Sorting
  source : SortSource
  deriving DecidableEq, Repr

namespace KeyColumns

def label? (k : KeyColumns) (property : String) : Option String := k.entries.lookup property

def labels (k : KeyColumns) : List String := k.entries.map (·.2)

/-- Selects the key columns of an entity type. The id is selected in second place even where it is
the key. -/
def select (keys : EntityKeys) (s : Select) : KeyColumns × Select :=
  let (key, s) := s.addField ⟨baseLabel, keys.revision.getD keys.id⟩
  let (value, s) := s.addField ⟨baseLabel, keys.id⟩
  let entries := match keys.revision with
    | none => [(keys.id, key)]
    | some revision => [(revision, key), (keys.id, value)]
  (⟨entries, key, value⟩, s)

end KeyColumns

namespace EntityType

/-- For the current revision, tables are joined by revision where there is one. -/
def joinsByRevision (t : EntityType) (age : Age) : Bool := t.isRevisionable && age == .current

/-- Properties are read from the data table where both tables have them. -/
def layout (t : EntityType) (name base : String) (catalog : Catalog) (age : Age) : Layout where
  entityType := name
  baseTable := base
  entityTables := t.dataTable.toList ++ [base]
  age := age
  entityIdColumn := if t.joinsByRevision age then t.keys.revision.getD t.keys.id else t.keys.id
  fieldIdColumn := if t.joinsByRevision age then Field.revisionIdColumn else Field.entityIdColumn
  attached := catalog.fields.map (Field.isAttachedTo · name)

end EntityType

namespace Query

/-- The tags of the statement. -/
def statementTags (q : Query) : NameSet :=
  let access := if q.checksAccess then [q.entityType ++ "_access"] else []
  NameSet.ofNames (access ++ ["entity_query", "entity_query_" ++ q.entityType] ++ q.tags.names)

/-- The metadata of the statement. Of its own entries, a query can replace the first two only. -/
def statementMetadata (q : Query) (layout : Layout) (simple : Bool) : Dict Json :=
  Dict.ofList ([
    ("configurable_fields", Json.ofDict (layout.attached.map .bool)),
    ("entity_type", .string q.entityType)] ++ q.metadata.entries ++ [
    ("entity_tables", .strings layout.entityTables),
    ("age", .string q.age.word),
    ("entity_id_field", .string layout.entityIdColumn),
    ("field_id_field", .string layout.fieldIdColumn),
    ("simple_query", .bool simple)])

/-- An ordering by a key column needs no property. -/
def resolveSort (layout : Layout) (catalog : Catalog) (keys : KeyColumns) (s : Sorting) :
    Resolving ResolvedSort :=
  match keys.label? s.field with
  | some label => return ⟨s, .key label⟩
  | none => do return ⟨s, .property (← layout.resolve catalog s.field .left s.langcode)⟩

/-- The orderings that count: none where only a number is asked for. -/
def activeSorts (q : Query) : List Sorting := if q.count then [] else q.sorts

/-- Resolves all properties, those of the conditions before those of the orderings. -/
def resolveAll (q : Query) (layout : Layout) (catalog : Catalog) (keys : KeyColumns) :
    Resolving (CompiledCondition × List ResolvedSort) := do
  let condition ← q.conditions.compile layout catalog
  let sorts ← q.activeSorts.mapM (resolveSort layout catalog keys)
  return (condition, sorts)

/-- The pager, where it has a say. -/
def activePager (q : Query) : Option Pager :=
  if q.count then none else q.pager.filter Pager.isActive

/-- The window of a pager goes before that of the query. -/
def effectiveWindow (q : Query) : Option Window :=
  (q.activePager.bind Pager.window?).orElse fun _ => q.window

/-- The number of rows matters. -/
def needsExactRows (q : Query) : Bool := q.count || q.activePager.isSome || q.window.isSome

end Query

namespace SortSource

def addsFieldTable : SortSource → Bool
  | .key _ => false
  | .property r => r.addsFieldTable

end SortSource

namespace ResolvedSort

/-- The label of the value that a group is ordered by. -/
def groupLabel (s : Sorting) : String :=
  "order_by_" ++ Text.wordChars s.field ++ "_" ++ s.direction.word

/-- Ascending order goes by the least value of a group, descending order by the greatest. -/
def extreme : Direction → Aggregate
  | .asc => .min
  | .desc => .max

/-- Adds an ordering to a statement. -/
def orderBy (simple : Bool) (s : Select) (r : ResolvedSort) : Select :=
  let direction := r.sorting.direction
  match r.source with
  | .key label => s.orderBy (.label label) direction
  | .property p =>
    if simple || p.source == .entityTable then s.orderBy (.column p.column) direction
    else
      let (label, s) := s.addExpression (extreme direction) p.column (groupLabel r.sorting)
      s.orderBy (.label label) direction

end ResolvedSort

namespace Query

/-- The statement before any property is resolved: the key columns of the base table. -/
def start (q : Query) (t : EntityType) (base : String) : KeyColumns × Select :=
  KeyColumns.select t.keys
    { table := base, label := baseLabel, conjunction := q.conditions.conjunction }

/-- The statement once all properties are resolved. -/
def finish (q : Query) (layout : Layout) (keys : KeyColumns) (simple : Bool) (parts : List Where)
    (sorts : List ResolvedSort) (s : Select) : Select :=
  let s := { s with
    conditions := parts
    tags := q.statementTags
    metadata := q.statementMetadata layout simple }
  let s := if simple then s else keys.labels.foldl Select.addGroupBy s
  let s := sorts.foldl (ResolvedSort.orderBy simple) s
  { s with window := q.effectiveWindow }

/-- The parts of a group. -/
def topParts : Where → List Where
  | .group _ parts => parts
  | w => [w]

/-- Compiles a query over an entity type with a base table. -/
def compileOver (q : Query) (catalog : Catalog) (t : EntityType) (base : String) :
    Except QueryError Compiled :=
  let layout := t.layout q.entityType base catalog q.age
  let (keys, s) := q.start t base
  match (q.resolveAll layout catalog keys).run.run { statement := s } with
  | (.error e, _) => .error e
  | (.ok (condition, sorts), joining) =>
    let single := !t.isTranslatable && !condition.addsFieldTable &&
      !sorts.any (·.source.addsFieldTable)
    let simple := single || !q.needsExactRows
    .ok {
      statement := q.finish layout keys simple (topParts condition.clause) sorts joining.statement
      entityType := q.entityType
      keyLabel := keys.keyLabel
      valueLabel := keys.valueLabel
      simple := simple
      count := q.count
      pager := q.activePager
      joinCount := joining.registry.size }

/-- Compiles a query. Nothing is built for an unknown entity type or one without a base table. -/
def compile (q : Query) (catalog : Catalog) : Except QueryError Compiled :=
  match catalog.describe q.entityType with
  | none => .error (.unknownEntityType q.entityType)
  | some t =>
    match t.baseTable with
    | none => .error (.noBaseTable q.entityType)
    | some base => q.compileOver catalog t base

end Query
end EntitySelect
