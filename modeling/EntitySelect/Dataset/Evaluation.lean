import EntitySelect.Dataset.Basic
import EntitySelect.Json.Printer
import EntitySelect.Query.Execution
import EntitySelect.Select.Basic

/-! The rows that a statement selects from a dataset. Joins come first, then the condition, then
grouping, then ordering, then the window. A dataset answers statements by evaluating them. -/
namespace EntitySelect

/-- Rows that are selected as one. There is always a first. -/
structure Group where
  first : Scope
  rest : List Scope := []
  deriving DecidableEq, Repr

namespace Group

def scopes (g : Group) : List Scope := g.first :: g.rest

/-- The least value, and among equals the first. -/
def leastOf : Json → List Json → Json
  | least, [] => least
  | least, v :: rest => leastOf (if least.order v = .gt then v else least) rest

/-- The greatest value, and among equals the last. -/
def greatestOf : Json → List Json → Json
  | greatest, [] => greatest
  | greatest, v :: rest => greatestOf (if greatest.order v = .gt then greatest else v) rest

/-- The least or greatest value of a column that is not null, or null if there is none. -/
def aggregate (g : Group) (function : Aggregate) (column : Column) : Json :=
  match (g.scopes.map (·.read column)).filter (!·.isNull) with
  | [] => .null
  | v :: rest =>
    match function with
    | .min => leastOf v rest
    | .max => greatestOf v rest

/-- The values of the select list; plain columns are read from the first row. -/
def values (g : Group) (s : Select) : List Json :=
  s.fields.map (fun f => g.first.read f.column) ++
    s.expressions.map (fun e => g.aggregate e.function e.argument)

/-- The value that an order goes by. -/
def orderKey (g : Group) (s : Select) (o : Order) : Except DatasetError Json :=
  match o.target with
  | .column c => .ok (g.first.read c)
  | .label a =>
    match (s.selectLabels.zip (g.values s)).lookup a with
    | some v => .ok v
    | none => .error (.unknownLabel a)

/-- The result row of a group. -/
def row (g : Group) (s : Select) : Except DatasetError KeyedRow := do
  return ⟨g.values s, ← s.orders.mapM (g.orderKey s)⟩

end Group

namespace Select

/-- Every column that is mentioned belongs to a table of the statement. -/
def checkLabels (s : Select) : Except DatasetError Unit :=
  match s.mentions.find? (fun c => !s.tableLabels.contains c.table) with
  | some c => .error (.unknownLabel c.table)
  | none => .ok ()

end Select

namespace Join

/-- The partners of joined rows in a table. Rows without any stay in a left join. -/
def extend (j : Join) (rows : List Record) (s : Scope) : List Scope :=
  let found := (rows.map fun row => s ++ [(j.label, row)]).filter fun t => j.on.all (·.holds t)
  if found.isEmpty && j.kind == .left then [s] else found

end Join

namespace Dataset

/-- Joins the tables one after the other. -/
def joinAll (d : Dataset) : List Join → List Scope → Except DatasetError (List Scope)
  | [], scopes => .ok scopes
  | j :: rest, scopes =>
    match d.rows j.table with
    | .ok rows => joinAll d rest (scopes.flatMap (j.extend rows))
    | .error e => .error e

/-- Puts a row to the group that has its key, or behind all groups. -/
def addToGroup [DecidableEq α] (key : α) (s : Scope) : List (α × Group) → List (α × Group)
  | [] => [(key, ⟨s, []⟩)]
  | (k, g) :: rest =>
    if k = key then (k, { g with rest := g.rest ++ [s] }) :: rest
    else (k, g) :: addToGroup key s rest

/-- What a row is grouped by: the text of its values. -/
def groupKey (columns : List Column) (s : Scope) : String := (Json.array (columns.map s.read)).text

/-- Groups by the values of columns, in the order in which the values first occur. -/
def groupBy (columns : List Column) (scopes : List Scope) : List Group :=
  (scopes.foldl (fun groups s => addToGroup (groupKey columns s) s groups) []).map (·.2)

/-- The columns that a statement groups by. -/
def groupColumns (s : Select) : Except DatasetError (List Column) :=
  s.groupBy.mapM fun label =>
    match s.field? label with
    | some f => .ok f.column
    | none => .error (.unknownLabel label)

/-- Without grouping every row is a group of its own, unless there are aggregates: then all rows are
one group. -/
def group (s : Select) (scopes : List Scope) : Except DatasetError (List Group) :=
  if s.groupBy.isEmpty then
    if s.expressions.isEmpty then .ok (scopes.map fun t => ⟨t, []⟩)
    else match scopes with
      | [] => .ok []
      | first :: rest => .ok [⟨first, rest⟩]
  else (groupColumns s).map fun columns => groupBy columns scopes

/-- The joined rows that fulfil the condition. -/
def scopes (d : Dataset) (s : Select) : Except DatasetError (List Scope) := do
  let base ← d.rows s.table
  let joined ← d.joinAll s.joins (base.map fun row => [(s.label, row)])
  return joined.filter s.condition.holds

/-- The result rows of a statement. -/
def fetchAll (d : Dataset) (s : Select) : Except DatasetError (List Row) := do
  s.checkLabels
  let groups ← group s (← d.scopes s)
  let rows ← groups.mapM (·.row s)
  let sorted := (sortRows (s.orders.map (·.direction)) rows).map (·.values)
  return match s.window with
    | some w => w.show sorted
    | none => sorted

/-- The number of result rows. -/
def fetchCount (d : Dataset) (q : CountQuery) : Except DatasetError Nat :=
  (d.fetchAll q.inner).map List.length

def connection (d : Dataset) : Connection := ⟨d.fetchAll, d.fetchCount⟩

end Dataset
end EntitySelect
