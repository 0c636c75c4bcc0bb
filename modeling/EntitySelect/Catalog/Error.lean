import EntitySelect.Json.Basic

/-! What can be wrong with a catalog, and with the files that documents come from. -/
namespace EntitySelect

/-- Why a file could not be read. -/
inductive FileFault where
  | missing
  | directory
  /-- A path goes on below something that is no directory. -/
  | notDirectory
  | nameTooLong
  | nulInName
  | denied
  /-- The bytes are no UTF-8 text. -/
  | notText
  deriving DecidableEq, Repr

def FileFault.message : FileFault → String
  | .missing => "No such file or directory (os error 2)"
  | .directory => "Is a directory (os error 21)"
  | .notDirectory => "Not a directory (os error 20)"
  | .nameTooLong => "File name too long (os error 36)"
  | .nulInName => "file name contained an unexpected NUL byte"
  | .denied => "Permission denied (os error 13)"
  | .notText => "stream did not contain valid UTF-8"

/-- What an entry of the catalog describes. -/
inductive EntryKind where
  | entityType
  | table
  | field
  deriving DecidableEq, Repr

def EntryKind.word : EntryKind → String
  | .entityType => "entity type"
  | .table => "table"
  | .field => "field"

/-- Where a name that is no identifier stands. -/
inductive NamePlace where
  | nameOf (kind : EntryKind)
  | columnOf (table : String)
  deriving DecidableEq, Repr

def NamePlace.text : NamePlace → String
  | .nameOf kind => kind.word ++ " name"
  | .columnOf table => "table '" ++ table ++ "'"

/-- Why a catalog document is malformed. -/
inductive CatalogFlaw where
  /-- It is not a JSON catalog at all. -/
  | notACatalog
  | dataWithoutBase (entityType : String)
  | undeclaredTable (table owner : String)
  | missingColumn (table column : String)
  | unknownEntityType (field entityType : String)
  deriving DecidableEq, Repr

/-- Why a catalog could not be loaded. -/
inductive CatalogError where
  | unreadable (path : String) (fault : FileFault)
  | malformed (source : String) (flaw : CatalogFlaw)
  | invalidIdentifier (name : String) (place : NamePlace)
  | duplicate (kind : EntryKind) (name : String)
  deriving DecidableEq, Repr

/-- The wording, except for documents that are no JSON catalog: what is wrong with those is said
by whoever reads JSON. -/
def CatalogFlaw.message? : CatalogFlaw → Option String
  | .notACatalog => none
  | .dataWithoutBase t => some ("entity type '" ++ t ++ "' has a data table but no base table")
  | .undeclaredTable t owner => some ("table '" ++ t ++ "' used by '" ++ owner ++ "' is not declared")
  | .missingColumn t column => some ("table '" ++ t ++ "' has no column '" ++ column ++ "'")
  | .unknownEntityType f t =>
    some ("field '" ++ f ++ "' is attached to unknown entity type '" ++ t ++ "'")

namespace CatalogError

def message? : CatalogError → Option String
  | .unreadable path fault => some ("Failed to read catalog '" ++ path ++ "': " ++ fault.message)
  | .malformed source flaw =>
    flaw.message?.map fun reason => "Malformed catalog '" ++ source ++ "': " ++ reason
  | .invalidIdentifier name place => some ("Invalid identifier '" ++ name ++ "' in " ++ place.text)
  | .duplicate kind name => some ("Duplicate " ++ kind.word ++ " '" ++ name ++ "'")

def code : CatalogError → String
  | .unreadable .. => "CATALOG_UNREADABLE"
  | .malformed .. => "CATALOG_MALFORMED"
  | .invalidIdentifier .. => "CATALOG_INVALID_IDENTIFIER"
  | .duplicate .. => "CATALOG_DUPLICATE"

end CatalogError
end EntitySelect
