import EntitySelect.Catalog.Document
import EntitySelect.Command.Arguments
import EntitySelect.Command.Error
import EntitySelect.Command.Path
import EntitySelect.Dataset.Evaluation
import EntitySelect.Query.Plan
import EntitySelect.Text.Basic

/-! The commands: a configuration and a query in, one JSON object out. -/
namespace EntitySelect

/-- Where the catalog and the data are. -/
structure Config where
  catalogPath : String
  datasetPath : Option String := none
  /-- Decides about access checking where a query does not. -/
  accessCheck : Bool := true
  deriving DecidableEq, Repr

namespace Config
open Written

def ofWritten? (w : Written) : Option Config := do
  let [catalog, dataset, access] ← w.slots? ["catalog_path", "dataset_path", "access_check"] | none
  return {
    catalogPath := ← catalog.required string?
    datasetPath := ← dataset.optional string?
    accessCheck := ← access.default true bool? }

/-- Paths must not be blank. -/
def check (c : Config) : Except ConfigFlaw Config :=
  if Text.isBlankText c.catalogPath then .error .noCatalog
  else if c.datasetPath.any Text.isBlankText then .error .emptyDataset
  else .ok c

def ofText (text : String) : Except ConfigFlaw Config :=
  match (Written.ofText? text).bind ofWritten? with
  | some c => c.check
  | none => .error .notAConfig

end Config

/-- The query of a request. -/
def Query.ofRequest (text : String) : Except RequestFlaw Query :=
  if Text.isBlankText text then .error .empty
  else match Query.ofText? text with
    | some q => .ok q
    | none => .error .notAQuery

namespace Command

/-- Work that reads files and a request in a world of its own. -/
abbrev Work (m : Type → Type) := ExceptT CommandError m

/-- Where files and the request come from. -/
structure World (m : Type → Type) where
  readFile : String → m (Except FileFault String)
  readRequest : m (Except FileFault String)

variable {m : Type → Type} [Monad m]

/-- Passes a result on, with its error as that of the command. -/
def settle (wrap : ε → CommandError) : Except ε α → Work m α
  | .ok a => return a
  | .error e => throw (wrap e)

/-- The text of a file; `fault` says what it means that there is none. -/
def fileText (world : World m) (path : String) (fault : FileFault → CommandError) :
    Work m String := do
  settle fault (← (world.readFile path : m _))

/-- The answer of a query that ran. -/
def answer : Output → Json
  | .count n => .record [("count", .count n)]
  | .entities ids page =>
    .record ([("results", ids.toJson)] ++ Json.optionalField "pager" PageState.toJson page)

/-- The data of a command. The configuration comes before the request, the request before the
catalog, the catalog before the dataset, and the query is looked into last. Paths in a
configuration start at its directory. -/
def perform (world : World m) (action : Action) (configPath : String) : Work m Json := do
  let text ← fileText world configPath (.config ∘ .unreadable)
  let config ← settle .config (Config.ofText text)
  let text ← settle (.request ∘ .unreadable) (← (world.readRequest : m _))
  let q ← settle .request (Query.ofRequest text)
  let q := q.inheritAccessCheck config.accessCheck
  let dir := Path.parent configPath
  let path := Path.join dir config.catalogPath
  let text ← fileText world path (.catalog ∘ .unreadable path)
  let catalog ← settle .catalog (Catalog.ofText text path)
  match action with
  | .explain => return (← settle .query (q.explain catalog)).toJson
  | .query =>
    match config.datasetPath with
    | none => throw (.config .datasetRequired)
    | some datasetPath =>
      let path := Path.join dir datasetPath
      let text ← fileText world path (fun fault => .dataset (.inSource path (.unreadable fault)))
      let dataset ← settle .dataset (Dataset.ofText text path)
      return answer (← settle .query (q.execute catalog dataset.connection).1)

/-- The line that a command prints. -/
def response : Except CommandError Json → Json
  | .ok data => .record [("status", .string "ok"), ("data", data)]
  | .error e =>
    .record ([("status", .string "error"), ("code", .string e.code)] ++
      Json.optionalField "message" .string e.message?)

/-- What a process leaves behind: its exit code and what it printed. -/
structure Outcome where
  exit : UInt8
  output : String
  deriving DecidableEq, Repr

/-- Runs the program. Nothing is printed where the arguments make no sense. -/
def run (world : World m) (args : List String) : m Outcome :=
  match Invocation.parse args with
  | .usage => return ⟨2, ""⟩
  | .version => return ⟨0, versionText ++ "\n"⟩
  | .perform action config => do
    let result ← (perform world action config).run
    return ⟨if result.isOk then 0 else 1, (response result).text ++ "\n"⟩

end Command
end EntitySelect
