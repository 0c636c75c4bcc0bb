import EntitySelect.Catalog.Basic
import EntitySelect.Condition.Basic
import EntitySelect.Query.Pager

/-! Queries for the ids of entities. -/
namespace EntitySelect

/-- One ordering. -/
structure Sorting where
  field : String
  direction : Direction := .asc
  langcode : Option String := none
  deriving DecidableEq, Repr

/-- A query. Nothing in it says how entities are stored. -/
structure Query where
  entityType : String
  conditions : Conditions := {}
  sorts : List Sorting := []
  window : Option Window := none
  pager : Option Pager := none
  /-- Asks for the number of results. -/
  count : Bool := false
  /-- Whether access is checked, if that has been decided. -/
  accessCheck : Option Bool := none
  age : Age := .current
  tags : NameSet := Dict.empty
  metadata : Dict Json := Dict.empty
  deriving DecidableEq, Repr

namespace Query

def addCondition (q : Query) (c : Condition) : Query :=
  { q with conditions := q.conditions.add c }

/-- Replaces the first ordering by the same field, or adds one at the end. -/
def placeSort (s : Sorting) : List Sorting → List Sorting
  | [] => [s]
  | t :: rest => if t.field = s.field then s :: rest else t :: placeSort s rest

def sortBy (q : Query) (s : Sorting) : Query := { q with sorts := placeSort s q.sorts }

def withWindow (q : Query) (w : Window) : Query := { q with window := some w }

/-- Pages the result, from the first page on. -/
def withPager (q : Query) (limit : UInt64) (element : UInt32) : Query :=
  { q with pager := some { limit, element } }

/-- Turns to a page, if there is a pager. -/
def withPage (q : Query) (page : UInt64) : Query :=
  { q with pager := q.pager.map fun p => { p with page } }

def asCount (q : Query) : Query := { q with count := true }

def withAccessCheck (q : Query) (enabled : Bool) : Query := { q with accessCheck := some enabled }

/-- Decides about access checking unless that has been done. -/
def inheritAccessCheck (q : Query) (enabled : Bool) : Query :=
  { q with accessCheck := some (q.accessCheck.getD enabled) }

/-- Access is checked unless that was turned off. -/
def checksAccess (q : Query) : Bool := q.accessCheck.getD true

def withAge (q : Query) (age : Age) : Query := { q with age }

def addTag (q : Query) (tag : String) : Query := { q with tags := q.tags.add tag }

def hasTag (q : Query) (tag : String) : Bool := q.tags.has tag

def setMetadata (q : Query) (key : String) (value : Json) : Query :=
  { q with metadata := q.metadata.insert key value }

/-- The number of all results, without window and pager. -/
def toCount (q : Query) : Query := { q with pager := none, window := none, count := true }

end Query
end EntitySelect
