import EntitySelect.Command.Run

/-! The program: explains or runs the query on standard input. -/
namespace EntitySelect

/-- Why reading a file failed. -/
def faultOf : IO.Error → FileFault
  | .inappropriateType _ code _ => if code = 21 then .directory else .notDirectory
  | .invalidArgument _ code _ => if code = 22 then .nulInName else .nameTooLong
  | .permissionDenied .. => .denied
  | .userError _ => .notText
  | _ => .missing

/-- What an action gives, or why it failed. -/
def attempt (action : IO String) : IO (Except FileFault String) := do
  try
    return .ok (← action)
  catch e =>
    return .error (faultOf e)

/-- The files and the standard input of the process. -/
def processWorld : Command.World IO where
  readFile path := attempt (IO.FS.readFile path)
  readRequest := attempt do (← IO.getStdin).readToEnd

end EntitySelect

open EntitySelect in
def main (args : List String) : IO UInt32 := do
  let outcome ← Command.run processWorld args
  let output ← IO.getStdout
  output.putStr outcome.output
  output.flush
  if outcome.exit == 2 then
    (← IO.getStderr).putStrLn "usage: entity-query (explain | query) [--config PATH]"
  return outcome.exit.toUInt32
