import EntitySelect.Query.Error

/-! Why a command failed. -/
namespace EntitySelect

inductive ConfigFlaw where
  | unreadable (fault : FileFault)
  /-- It is not a JSON configuration at all. -/
  | notAConfig
  | noCatalog
  | emptyDataset
  | datasetRequired
  deriving DecidableEq, Repr

inductive RequestFlaw where
  | unreadable (fault : FileFault)
  | empty
  /-- It is not a JSON query at all. -/
  | notAQuery
  deriving DecidableEq, Repr

inductive CommandError where
  | config (flaw : ConfigFlaw)
  | request (flaw : RequestFlaw)
  | catalog (error : CatalogError)
  | query (error : QueryError)
  | dataset (error : DatasetError)
  deriving DecidableEq, Repr

def ConfigFlaw.message? : ConfigFlaw → Option String
  | .unreadable fault => some ("Failed to read config: " ++ fault.message)
  | .notAConfig => none
  | .noCatalog => some "catalog_path must not be empty"
  | .emptyDataset => some "dataset_path must not be empty when set"
  | .datasetRequired => some "dataset_path is required for query"

def RequestFlaw.message? : RequestFlaw → Option String
  | .unreadable fault => some fault.message
  | .empty => some "Empty input"
  | .notAQuery => none

namespace CommandError

def message? : CommandError → Option String
  | .config flaw => flaw.message?
  | .request flaw => flaw.message?
  | .catalog e => e.message?
  | .query e => e.message?
  | .dataset e => e.message?

def code : CommandError → String
  | .config _ => "CLI_CONFIG_ERROR"
  | .request _ => "CLI_IO_ERROR"
  | .catalog e => e.code
  | .query e => e.code
  | .dataset e => e.code

end CommandError
end EntitySelect
