import EntitySelect.Select.Clause

/-! A SELECT statement over one base table, built up clause by clause. What is added gets a fresh
label: the wanted name if it is free, else that name with the least number from two on that makes it
free. -/
namespace EntitySelect

namespace Label

/-- A name with a number. Numbers have no bound, as they would have in a counter of 32 bits. -/
def numbered (base : String) (n : Nat) : String := base ++ "_" ++ toString n

/-- The first free number from `n` on. A name once seen need not be met again, since no two numbers
give the same name; so the search ends. It takes no more steps than names are taken: a signed counter
of 32 bits would differ from this one only beyond `2 ^ 31` taken names, which is out of reach. -/
def firstFree (taken : List String) (base : String) (n : Nat) : String :=
  if numbered base n ∈ taken then firstFree (taken.erase (numbered base n)) base (n + 1)
  else numbered base n
termination_by taken.length
decreasing_by
  next h => rw [List.length_erase_of_mem h]; have := List.length_pos_of_mem h; omega

/-- A name that is not taken. -/
def fresh (taken : List String) (wanted : String) : String :=
  if wanted ∈ taken then firstFree taken wanted 2 else wanted

theorem fresh_of_not_mem {taken : List String} {wanted : String} (h : wanted ∉ taken) :
    fresh taken wanted = wanted := by simp [fresh, h]

example : fresh ["t", "t_2"] "t" = "t_3" := by cbv
example : fresh ["t_2"] "t" = "t" := by decide

end Label

/-- A statement. Conditions are the parts of one group at the top. -/
structure Select where
  table : String
  label : String
  conjunction : Conjunction
  fields : List SelectedField := []
  expressions : List Expression := []
  joins : List Join := []
  conditions : List Where := []
  groupBy : List String := []
  orders : List Order := []
  window : Option Window := none
  tags : NameSet := Dict.empty
  metadata : Dict Json := Dict.empty
  deriving Repr

namespace Select

/-- The whole condition. -/
def condition (s : Select) : Where := .group s.conjunction s.conditions

/-- The labels of the select list, fields before expressions. -/
def selectLabels (s : Select) : List String :=
  s.fields.map (·.label) ++ s.expressions.map (·.label)

/-- The labels that columns can be read from. -/
def tableLabels (s : Select) : List String := s.label :: s.joins.map (·.label)

/-- The label that a column gets in the select list: its name, or if that is taken the name behind
that of the table. -/
def fieldLabel (s : Select) (c : Column) : String :=
  Label.fresh s.selectLabels (if c.name ∈ s.selectLabels then c.table ++ "_" ++ c.name else c.name)

/-- Selects a column, and says under which label. -/
def addField (s : Select) (c : Column) : String × Select :=
  let label := s.fieldLabel c
  (label, { s with fields := s.fields ++ [⟨c, label⟩] })

/-- Selects a computed column, and says under which label. -/
def addExpression (s : Select) (function : Aggregate) (argument : Column) (wanted : String) :
    String × Select :=
  let label := Label.fresh s.selectLabels wanted
  (label, { s with expressions := s.expressions ++ [⟨function, argument, label⟩] })

/-- Joins a table, and says under which label. The equations are made for that label. -/
def addJoin (s : Select) (kind : JoinKind) (table : String) (on : String → List JoinTerm) :
    String × Select :=
  let label := Label.fresh s.tableLabels table
  (label, { s with joins := s.joins ++ [⟨kind, table, label, on label⟩] })

def addCondition (s : Select) (w : Where) : Select := { s with conditions := s.conditions ++ [w] }

/-- Groups by a column of the select list; twice is once. -/
def addGroupBy (s : Select) (label : String) : Select :=
  if label ∈ s.groupBy then s else { s with groupBy := s.groupBy ++ [label] }

def orderBy (s : Select) (target : OrderTarget) (direction : Direction) : Select :=
  { s with orders := s.orders ++ [⟨target, direction⟩] }

def withWindow (s : Select) (w : Window) : Select := { s with window := some w }

def addTag (s : Select) (tag : String) : Select := { s with tags := s.tags.add tag }

def setMetadata (s : Select) (key : String) (value : Json) : Select :=
  { s with metadata := s.metadata.insert key value }

def field? (s : Select) (label : String) : Option SelectedField :=
  s.fields.find? (·.label == label)

def expression? (s : Select) (label : String) : Option Expression :=
  s.expressions.find? (·.label == label)

/-- Every column that the statement mentions, in the order select list, joins, condition,
orders. -/
def mentions (s : Select) : List Column :=
  s.fields.map (·.column) ++ s.expressions.map (·.argument) ++
    s.joins.flatMap (fun j => j.on.flatMap JoinTerm.mentions) ++ s.condition.mentions ++
    s.orders.filterMap fun o => match o.target with
      | .column c => some c
      | .label _ => none

end Select

/-- A question for the number of rows of a statement. -/
structure CountQuery where
  inner : Select
  deriving Repr

/-- The order of rows does not change their number. -/
def Select.countQuery (s : Select) : CountQuery := ⟨{ s with orders := [] }⟩

end EntitySelect
