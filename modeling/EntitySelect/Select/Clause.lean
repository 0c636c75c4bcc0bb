import EntitySelect.Json.Basic

/-! The clauses of a SELECT statement, as data that can be written as SQL or evaluated.
Tables and selected columns go by labels, the names that SQL gives them with AS. -/
namespace EntitySelect

/-- How the conditions of a group combine. -/
inductive Conjunction where
  | and
  | or
  deriving DecidableEq, Repr

def Conjunction.word : Conjunction → String
  | .and => "AND"
  | .or => "OR"

def Conjunction.ofWord? : String → Option Conjunction
  | "AND" => some .and
  | "OR" => some .or
  | _ => none

/-- The direction of an ordering. -/
inductive Direction where
  | asc
  | desc
  deriving DecidableEq, Repr

def Direction.word : Direction → String
  | .asc => "ASC"
  | .desc => "DESC"

def Direction.ofWord? : String → Option Direction
  | "ASC" => some .asc
  | "DESC" => some .desc
  | _ => none

/-- A column of the table that goes by a label. -/
structure Column where
  table : String
  name : String
  deriving DecidableEq, Repr

def Column.text (c : Column) : String := c.table ++ "." ++ c.name

inductive JoinKind where
  | inner
  | left
  deriving DecidableEq, Repr

def JoinKind.word : JoinKind → String
  | .inner => "INNER JOIN"
  | .left => "LEFT OUTER JOIN"

/-- One equation of a join. -/
inductive JoinTerm where
  | columns (left right : Column)
  | value (column : Column) (value : Json)
  deriving DecidableEq, Repr

/-- The columns an equation mentions. -/
def JoinTerm.mentions : JoinTerm → List Column
  | .columns left right => [left, right]
  | .value column _ => [column]

/-- A joined table, and the equations that its rows fulfil. -/
structure Join where
  kind : JoinKind
  table : String
  label : String
  on : List JoinTerm
  deriving DecidableEq, Repr

/-- The comparisons of a statement. -/
inductive Comparison where
  | equal | notEqual | greater | atLeast | less | atMost
  | like
  | oneOf | noneOf
  | between
  | isNull | isNotNull
  deriving DecidableEq, Repr

def Comparison.word : Comparison → String
  | .equal => "="
  | .notEqual => "<>"
  | .greater => ">"
  | .atLeast => ">="
  | .less => "<"
  | .atMost => "<="
  | .like => "LIKE"
  | .oneOf => "IN"
  | .noneOf => "NOT IN"
  | .between => "BETWEEN"
  | .isNull => "IS NULL"
  | .isNotNull => "IS NOT NULL"

/-- The items of a list; any other value is its own only item. -/
def Json.items : Json → List Json
  | .array items => items
  | v => [v]

/-- The two bounds of a range; any value but a pair is both. -/
def Json.bounds : Json → Json × Json
  | .array [low, high] => (low, high)
  | v => (v, v)

/-- A condition on joined rows. -/
inductive Where where
  | group (conjunction : Conjunction) (parts : List Where)
  /-- The value is an array for IN, NOT IN and BETWEEN, and plays no part in the null tests. -/
  | compare (column : Column) (comparison : Comparison) (value : Json)
  deriving Repr

instance : Inhabited Where := ⟨.group .and []⟩

namespace Where

mutual
/-- A condition without any comparison in it. -/
def isEmpty : Where → Bool
  | .group _ parts => areEmpty parts
  | .compare .. => false
def areEmpty : List Where → Bool
  | [] => true
  | w :: rest => isEmpty w && areEmpty rest
end

mutual
/-- The columns compared, from left to right. -/
def mentions : Where → List Column
  | .group _ parts => partsMention parts
  | .compare column _ _ => [column]
def partsMention : List Where → List Column
  | [] => []
  | w :: rest => mentions w ++ partsMention rest
end

end Where

/-- A column of the select list. -/
structure SelectedField where
  column : Column
  label : String
  deriving DecidableEq, Repr

inductive Aggregate where
  | min
  | max
  deriving DecidableEq, Repr

def Aggregate.word : Aggregate → String
  | .min => "MIN"
  | .max => "MAX"

/-- A computed column of the select list. -/
structure Expression where
  function : Aggregate
  argument : Column
  label : String
  deriving DecidableEq, Repr

def Expression.text (e : Expression) : String := e.function.word ++ "(" ++ e.argument.text ++ ")"

/-- What rows are ordered by. -/
inductive OrderTarget where
  /-- A column of the select list. -/
  | label (name : String)
  | column (column : Column)
  deriving DecidableEq, Repr

def OrderTarget.text : OrderTarget → String
  | .label name => name
  | .column c => c.text

structure Order where
  target : OrderTarget
  direction : Direction
  deriving DecidableEq, Repr

def Order.text (o : Order) : String := o.target.text ++ " " ++ o.direction.word

/-- A window on the result: how many rows to leave out, and how many to give at most. -/
structure Window where
  start : UInt64
  length : UInt64
  deriving DecidableEq, Repr

/-- The part of a list that a window shows. -/
def Window.show (w : Window) (rows : List α) : List α := (rows.drop w.start.toNat).take w.length.toNat

end EntitySelect
