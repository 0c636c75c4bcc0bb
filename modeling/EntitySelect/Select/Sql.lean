import EntitySelect.Json.Printer
import EntitySelect.Select.Basic

/-! The SQL text of a statement. No value is ever part of the text: each is bound to a placeholder,
and placeholders are numbered in the order in which they occur. -/
namespace EntitySelect

/-- The name a value is bound to. -/
def placeholder (n : Nat) : String := ":db_condition_placeholder_" ++ toString n

/-- SQL text and the values bound in it. -/
structure Sql where
  text : String
  arguments : Dict Json
  deriving DecidableEq, Repr

/-- What rendering goes by: the number of the next placeholder, and the values bound so far. -/
structure Renderer where
  next : Nat := 0
  arguments : Dict Json := Dict.empty

/-- Rendering, which binds values as it goes from left to right. -/
abbrev Rendering := StateM Renderer

def Renderer.bind (r : Renderer) (v : Json) : Renderer :=
  ⟨r.next + 1, r.arguments.insert (placeholder r.next) v⟩

/-- Binds a value; the next placeholder stands for it in the text. -/
def bindValue (v : Json) : Rendering String := modifyGet fun r => (placeholder r.next, r.bind v)

def JoinTerm.render : JoinTerm → Rendering String
  | .columns left right => return left.text ++ " = " ++ right.text
  | .value column v => return column.text ++ " = " ++ (← bindValue v)

def Join.render (j : Join) : Rendering String := do
  let equations ← j.on.mapM JoinTerm.render
  return j.kind.word ++ " " ++ j.table ++ " " ++ j.label ++ " ON " ++
    " AND ".intercalate equations

def Comparison.render (comparison : Comparison) (column : Column) (v : Json) : Rendering String :=
  let head := column.text ++ " " ++ comparison.word
  match comparison with
  | .isNull | .isNotNull => return head
  | .oneOf | .noneOf => do
    let items ← v.items.mapM bindValue
    return head ++ " (" ++ ", ".intercalate items ++ ")"
  | .between => do
    let low ← bindValue v.bounds.1
    let high ← bindValue v.bounds.2
    return head ++ " " ++ low ++ " AND " ++ high
  | .like => return head ++ " " ++ (← bindValue v) ++ " ESCAPE '\\'"
  | _ => return head ++ " " ++ (← bindValue v)

namespace Where

mutual
/-- Groups stand in parentheses, and parts without any comparison are left out. -/
def render : Where → Rendering String
  | .group c parts => do
    let texts ← renderParts parts
    return "(" ++ (" " ++ c.word ++ " ").intercalate texts ++ ")"
  | .compare column comparison v => comparison.render column v
def renderParts : List Where → Rendering (List String)
  | [] => return []
  | w :: rest =>
    if isEmpty w then renderParts rest
    else do
      let text ← render w
      let texts ← renderParts rest
      return text :: texts
end

end Where

namespace Select

/-- The select list; a statement that selects nothing selects a one. -/
def selectList (s : Select) : String :=
  match s.fields.map (fun f => f.column.text ++ " AS " ++ f.label) ++
      s.expressions.map (fun e => e.text ++ " AS " ++ e.label) with
  | [] => "1"
  | columns => ", ".intercalate columns

/-- The condition, unless it is empty. The outermost group needs no parentheses. -/
def renderWhere (s : Select) : Rendering (List String) :=
  if s.condition.isEmpty then return []
  else do
    let texts ← Where.renderParts s.conditions
    return ["WHERE " ++ (" " ++ s.conjunction.word ++ " ").intercalate texts]

/-- The clauses, one a line; those that do not restrict anything are left out. -/
def render (s : Select) : Rendering (List String) := do
  let joins ← s.joins.mapM Join.render
  let condition ← s.renderWhere
  return ["SELECT " ++ s.selectList, "FROM " ++ s.table ++ " " ++ s.label] ++ joins ++ condition ++
    (if s.groupBy.isEmpty then [] else ["GROUP BY " ++ ", ".intercalate s.groupBy]) ++
    (if s.orders.isEmpty then [] else ["ORDER BY " ++ ", ".intercalate (s.orders.map Order.text)]) ++
    match s.window with
    | some w => ["LIMIT " ++ toString w.length.toNat ++ " OFFSET " ++ toString w.start.toNat]
    | none => []

def clauses (s : Select) : List String := (s.render.run {}).1

/-- The values that rendering binds. -/
def arguments (s : Select) : Dict Json := (s.render.run {}).2.arguments

def sql (s : Select) : Sql := ⟨"\n".intercalate s.clauses, s.arguments⟩

end Select

/-- Counts the rows of the statement in parentheses. -/
def CountQuery.sql (q : CountQuery) : Sql :=
  { q.inner.sql with
    text := "SELECT COUNT(*) AS expression\nFROM (" ++ q.inner.sql.text ++ ") subquery" }

end EntitySelect
