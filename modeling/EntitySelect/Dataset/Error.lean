import EntitySelect.Catalog.Error
import EntitySelect.Json.Printer

/-! What can go wrong with a dataset, when it is loaded and when a statement is run on it. -/
namespace EntitySelect

/-- A row of a table that is no object. -/
structure BadRow where
  table : String
  index : Nat
  row : Json
  deriving DecidableEq, Repr

/-- Why a dataset document cannot be used. -/
inductive DatasetFlaw where
  | unreadable (fault : FileFault)
  /-- It is not a JSON object of lists. -/
  | notADataset
  | badRow (bad : BadRow)
  deriving DecidableEq, Repr

inductive DatasetError where
  | tableNotFound (table : String)
  | unknownLabel (label : String)
  | badRow (bad : BadRow)
  | inSource (source : String) (flaw : DatasetFlaw)
  deriving DecidableEq, Repr

def BadRow.message (b : BadRow) : String :=
  "Dataset error in '" ++ b.table ++ "': row " ++ toString b.index ++ " is not an object: " ++
    b.row.text

/-- The wording, except for documents that are no dataset at all. -/
def DatasetFlaw.message? : DatasetFlaw → Option String
  | .unreadable fault => some fault.message
  | .notADataset => none
  | .badRow bad => some bad.message

namespace DatasetError

def message? : DatasetError → Option String
  | .tableNotFound table => some ("Table '" ++ table ++ "' does not exist")
  | .unknownLabel label => some ("Unknown alias '" ++ label ++ "' in statement")
  | .badRow bad => some bad.message
  | .inSource source flaw =>
    flaw.message?.map fun reason => "Dataset error in '" ++ source ++ "': " ++ reason

def code : DatasetError → String
  | .tableNotFound _ => "BACKEND_TABLE_NOT_FOUND"
  | .unknownLabel _ => "BACKEND_UNKNOWN_ALIAS"
  | .badRow _ | .inSource .. => "BACKEND_DATASET"

end DatasetError
end EntitySelect
