import EntitySelect.Dataset.Error
import EntitySelect.Dataset.Filter
import EntitySelect.Json.Record

/-! Datasets: the rows of tables, held as JSON objects. -/
namespace EntitySelect

structure Dataset where
  tables : Dict (List Record) := Dict.empty
  deriving DecidableEq, Repr

namespace Dataset

/-- The rows of a table, from its row number `index` on; every row has to be an object. -/
def records (table : String) (index : Nat) : List Json → Except BadRow (List Record)
  | [] => .ok []
  | .object fields :: rest => (records table (index + 1) rest).map (fields :: ·)
  | row :: _ => .error ⟨table, index, row⟩

/-- Sets the rows of a table. -/
def putTable (d : Dataset) (table : String) (rows : List Json) : Except BadRow Dataset :=
  (records table 0 rows).map fun rows => { d with tables := d.tables.insert table rows }

def rowCount (d : Dataset) (table : String) : Option Nat := (d.tables.find? table).map List.length

/-- The rows of a table that a statement names. -/
def rows (d : Dataset) (table : String) : Except DatasetError (List Record) :=
  match d.tables.find? table with
  | some rows => .ok rows
  | none => .error (.tableNotFound table)

/-- The dataset with the given tables, put in order of their names. -/
def ofTables (tables : Dict (List Json)) : Except BadRow Dataset :=
  tables.entries.foldlM (fun d e => d.putTable e.1 e.2) {}

/-- Reads an object of lists. -/
def tablesOfWritten? (w : Written) : Option (Dict (List Json)) :=
  w.dict? (Written.list? Written.value?)

/-- The dataset that a text describes; `source` says in errors where the text is from. -/
def ofText (text source : String) : Except DatasetError Dataset :=
  match (Written.ofBoundedText? text).bind tablesOfWritten? with
  | none => .error (.inSource source .notADataset)
  | some tables =>
    match ofTables tables with
    | .ok d => .ok d
    | .error bad => .error (.inSource source (.badRow bad))

end Dataset
end EntitySelect
