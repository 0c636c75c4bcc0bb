import EntitySelect.Query.Compiled
import EntitySelect.Query.Document
import EntitySelect.Select.Sql

/-! What a compiled query would do, for a reader: its joins, grouping and ordering, and the SQL that
a relational database would run. -/
namespace EntitySelect

structure Plan where
  entityType : String
  baseTable : String
  keyField : String
  valueField : String
  simple : Bool
  count : Bool
  joins : List String
  groupBy : List String
  orderBy : List String
  window : Option Window
  tags : List String
  /-- For a count, the statement that counts. -/
  sql : Sql
  deriving DecidableEq, Repr

/-- An equation with its value in place. -/
def JoinTerm.plain : JoinTerm → String
  | .columns left right => left.text ++ " = " ++ right.text
  | .value column v => column.text ++ " = " ++ v.text

def Join.plain (j : Join) : String :=
  j.kind.word ++ " " ++ j.table ++ " " ++ j.label ++ " ON " ++
    " AND ".intercalate (j.on.map JoinTerm.plain)

namespace Compiled

/-- The SQL of a compiled query. -/
def sql (c : Compiled) : Sql := if c.count then c.statement.countQuery.sql else c.statement.sql

def plan (c : Compiled) : Plan where
  entityType := c.entityType
  baseTable := c.statement.table
  keyField := c.keyLabel
  valueField := c.valueLabel
  simple := c.simple
  count := c.count
  joins := c.statement.joins.map Join.plain
  groupBy := c.statement.groupBy
  orderBy := c.statement.orders.map Order.text
  window := c.statement.window
  tags := c.statement.tags.names
  sql := c.sql

end Compiled

/-- Compiles a query and says what it would do. -/
def Query.explain (q : Query) (catalog : Catalog) : Except QueryError Plan :=
  (q.compile catalog).map Compiled.plan

namespace Plan

/-- A line for a list, if there is anything in it. -/
def listLine (head : String) : List String → List String
  | [] => []
  | items => [head ++ ", ".intercalate items]

/-- The lines of a plan. Parts that do nothing are left out. -/
def lines (p : Plan) : List String :=
  ["=== EXPLAIN ENTITY QUERY ===", "Entity Type: " ++ p.entityType, "Base Table: " ++ p.baseTable,
    "Key: " ++ p.keyField ++ " -> " ++ p.valueField,
    "Mode: " ++ (if p.simple then "SIMPLE" else "COMPLEX") ++ (if p.count then " (COUNT)" else "")] ++
  (if p.joins.isEmpty then [] else "Joins:" :: p.joins.map ("  - " ++ ·)) ++
  listLine "Group By: " p.groupBy ++
  listLine "Order By: " p.orderBy ++
  (match p.window with
    | some w => ["Range: " ++ toString w.length.toNat ++ " rows from " ++ toString w.start.toNat]
    | none => []) ++
  ["Tags: " ++ ", ".intercalate p.tags, "SQL:"] ++
  (Text.lines p.sql.text).map ("  " ++ ·) ++
  if p.sql.arguments.isEmpty then []
  else "Arguments:" :: p.sql.arguments.entries.map fun e => "  " ++ e.1 ++ " = " ++ e.2.text

/-- Each line is ended. -/
def text (p : Plan) : String := String.join (p.lines.map (· ++ "\n"))

def toJson (p : Plan) : Json :=
  .record [
    ("entity_type", .string p.entityType),
    ("base_table", .string p.baseTable),
    ("key_field", .string p.keyField),
    ("value_field", .string p.valueField),
    ("simple_query", .bool p.simple),
    ("count", .bool p.count),
    ("joins", .strings p.joins),
    ("group_by", .strings p.groupBy),
    ("order_by", .strings p.orderBy),
    ("range", .orNull Window.toJson p.window),
    ("tags", .strings p.tags),
    ("sql", .string p.sql.text),
    ("arguments", .ofDict p.sql.arguments)]

end Plan
end EntitySelect
