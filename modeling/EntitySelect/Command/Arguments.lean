/-! The command line. -/
namespace EntitySelect

/-- What to do with the query. -/
inductive Action where
  | explain
  | query
  deriving DecidableEq, Repr

/-- What the arguments ask for. -/
inductive Invocation where
  | perform (action : Action) (config : String)
  | version
  /-- The arguments make no sense. -/
  | usage
  deriving DecidableEq, Repr

namespace Invocation

def defaultConfig : String := "./entity-query.json"

/-- A word that can be a path. What starts like an option is none, except a lone dash. -/
def isPath (s : String) : Bool := !s.isEmpty && (s == "-" || !s.startsWith "-")

/-- The value given to the option in one word. -/
def attached? (word : String) : Option String :=
  if word.startsWith "--config=" then some (String.ofList (word.toList.drop 9)) else none

/-- The path of the configuration, which may be given once. -/
def configPath (given : Option String) : List String → Option String
  | [] => some (given.getD defaultConfig)
  | ["--"] => some (given.getD defaultConfig)
  | word :: rest =>
    if given.isSome then none
    else if word = "--config" then
      match rest with
      | value :: rest => if isPath value then configPath (some value) rest else none
      | [] => none
    else match attached? word with
      | some value => if value.isEmpty then none else configPath (some value) rest
      | none => none

def perform? (action : Action) (rest : List String) : Invocation :=
  match configPath none rest with
  | some config => .perform action config
  | none => .usage

/-- Reads the arguments, without the name of the program. -/
def parse : List String → Invocation
  | [] => .usage
  | word :: rest =>
    if word = "explain" then perform? .explain rest
    else if word = "query" then perform? .query rest
    else if word = "--version" || word.startsWith "-V" then .version
    else .usage

end Invocation

def versionText : String := "entity-query 0.1.0"

end EntitySelect
