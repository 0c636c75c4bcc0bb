import EntitySelect.Condition.Basic
import EntitySelect.Dataset.Error

/-! What can go wrong with a query. -/
namespace EntitySelect

/-- Why a property is not of the form `name` or `field.column`. -/
inductive SpecifierFlaw where
  | tooManyParts
  | emptyName
  deriving DecidableEq, Repr

def SpecifierFlaw.message : SpecifierFlaw → String
  | .tooManyParts => "at most one column may follow the field name"
  | .emptyName => "empty name"

/-- Why a value does not fit its operator. -/
inductive ValueFlaw where
  | notSingle (operator : Operator)
  | null (operator : Operator)
  | notText (operator : Operator)
  | notList (operator : Operator)
  | notPair
  deriving DecidableEq, Repr

def ValueFlaw.message : ValueFlaw → String
  | .notSingle o => "operator " ++ o.word ++ " needs a single value"
  | .null o => "operator " ++ o.word ++ " cannot compare against null"
  | .notText o => "operator " ++ o.word ++ " needs a string"
  | .notList o => "operator " ++ o.word ++ " needs a non-empty array"
  | .notPair => "operator BETWEEN needs exactly two values"

/-- Why a result row does not name an entity. -/
inductive RowFlaw where
  | tooShort (columns : Nat)
  | notAnId (value : Json)
  deriving DecidableEq, Repr

def RowFlaw.message : RowFlaw → String
  | .tooShort n => "expected at least 2 columns, got " ++ toString n
  | .notAnId v => v.text ++ " is not an id"

/-- Who has to mend a failure. -/
inductive ErrorCategory where
  /-- The catalog cannot support the query. -/
  | configuration
  /-- The query names what does not exist, or is malformed. -/
  | caller
  /-- Running the statement failed. -/
  | backend
  deriving DecidableEq, Repr

def ErrorCategory.word : ErrorCategory → String
  | .configuration => "CONFIGURATION"
  | .caller => "CALLER"
  | .backend => "BACKEND"

inductive QueryError where
  | unknownEntityType (entityType : String)
  | noBaseTable (entityType : String)
  | unknownTable (table : String)
  | unresolvableField (field entityType : String)
  | fieldNotAttached (field entityType : String)
  | invalidSpecifier (specifier : String) (flaw : SpecifierFlaw)
  | invalidCondition (field : String) (flaw : ValueFlaw)
  | malformedRow (flaw : RowFlaw)
  | backend (error : DatasetError)
  deriving DecidableEq, Repr

namespace QueryError

def message? : QueryError → Option String
  | .unknownEntityType t => some ("Unknown entity type '" ++ t ++ "'")
  | .noBaseTable t => some ("No base table for entity type '" ++ t ++ "', nothing to query.")
  | .unknownTable t => some ("Table '" ++ t ++ "' is not declared in the catalog")
  | .unresolvableField f t => some ("'" ++ f ++ "' not found on entity type '" ++ t ++ "'")
  | .fieldNotAttached f t =>
    some ("Field '" ++ f ++ "' is not attached to entity type '" ++ t ++ "'")
  | .invalidSpecifier s flaw => some ("Invalid field specifier '" ++ s ++ "': " ++ flaw.message)
  | .invalidCondition f flaw => some ("Invalid condition on '" ++ f ++ "': " ++ flaw.message)
  | .malformedRow flaw => some ("Malformed result row: " ++ flaw.message)
  | .backend error => error.message?

def code : QueryError → String
  | .unknownEntityType _ => "ENTITY_QUERY_UNKNOWN_ENTITY_TYPE"
  | .noBaseTable _ => "ENTITY_QUERY_NO_BASE_TABLE"
  | .unknownTable _ => "ENTITY_QUERY_UNKNOWN_TABLE"
  | .unresolvableField .. => "ENTITY_QUERY_UNRESOLVABLE_FIELD"
  | .fieldNotAttached .. => "ENTITY_QUERY_FIELD_NOT_ATTACHED"
  | .invalidSpecifier .. => "ENTITY_QUERY_INVALID_SPECIFIER"
  | .invalidCondition .. => "ENTITY_QUERY_INVALID_CONDITION"
  | .malformedRow _ => "ENTITY_QUERY_MALFORMED_ROW"
  | .backend _ => "ENTITY_QUERY_BACKEND"

def category : QueryError → ErrorCategory
  | .unknownEntityType _ | .noBaseTable _ | .unknownTable _ => .configuration
  | .unresolvableField .. | .fieldNotAttached .. | .invalidSpecifier .. | .invalidCondition .. =>
    .caller
  | .malformedRow _ | .backend _ => .backend

end QueryError
end EntitySelect
