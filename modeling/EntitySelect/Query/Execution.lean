import EntitySelect.Query.Compiled
import EntitySelect.Query.KeyedIds
import EntitySelect.Query.Document

/-! Running a query over a connection. Nothing reaches the connection unless the query compiles. -/
namespace EntitySelect

/-- Something that runs statements and answers in any way it likes. -/
structure Connection where
  fetchAll : Select → Except DatasetError (List Row)
  fetchCount : CountQuery → Except DatasetError Nat

/-- What has been asked of a connection. -/
inductive Call where
  | all (s : Select)
  | count (q : CountQuery)
  deriving Repr

/-- What a query gives. -/
inductive Output where
  | count (n : Nat)
  | entities (ids : KeyedIds) (page : Option PageState)
  deriving DecidableEq, Repr

/-- Work over a connection, with the calls made so far in order. -/
abbrev Session := ExceptT QueryError (StateM (List Call))

namespace Connection

/-- Notes a call and passes its answer on; errors of the connection are kept as they are. -/
def ask (call : Call) (answer : Except DatasetError α) : Session α := do
  modify (· ++ [call])
  match answer with
  | .ok a => return a
  | .error e => throw (.backend e)

def askAll (c : Connection) (s : Select) : Session (List Row) := ask (.all s) (c.fetchAll s)

def askCount (c : Connection) (q : CountQuery) : Session Nat := ask (.count q) (c.fetchCount q)

end Connection

namespace Query

/-- A step that needs no connection. -/
def step : Except QueryError α → Session α
  | .ok a => return a
  | .error e => throw e

/-- The state of a pager needs the number of all results. -/
def pageState (q : Query) (catalog : Catalog) (c : Connection) :
    Option Pager → Session (Option PageState)
  | none => return none
  | some pager => do
    let compiled ← step (q.toCount.compile catalog)
    let total ← c.askCount compiled.statement.countQuery
    return some (pager.state total)

/-- Runs a query: a number where only that is asked for, else the ids in the order of the
statement. -/
def run (q : Query) (catalog : Catalog) (c : Connection) : Session Output := do
  let compiled ← step (q.compile catalog)
  if compiled.count then
    return .count (← c.askCount compiled.statement.countQuery)
  else
    let page ← q.pageState catalog c compiled.pager
    let rows ← c.askAll compiled.statement
    let ids ← step (KeyedIds.ofRows rows)
    return .entities ids page

/-- The result of a query, and the calls that were made for it. -/
def execute (q : Query) (catalog : Catalog) (c : Connection) :
    Except QueryError Output × List Call :=
  (q.run catalog c).run.run []

end Query

namespace Output

def count? : Output → Option Nat
  | .count n => some n
  | .entities .. => none

def ids? : Output → Option KeyedIds
  | .count _ => none
  | .entities ids _ => some ids

def page? : Output → Option PageState
  | .count _ => none
  | .entities _ page => page

def toJson : Output → Json
  | .count n => .record [("count", .count n)]
  | .entities ids page =>
    .record [("entities",
      .record ([("ids", ids.toJson)] ++ Json.optionalField "pager" PageState.toJson page))]

end Output
end EntitySelect
