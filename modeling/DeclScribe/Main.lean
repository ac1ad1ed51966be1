import DeclScribe.Command.Run
import DeclScribe.Json.Parser
import DeclScribe.Project.Snapshot

/-!
The program. It reads a snapshot of a file system from its input, an object with the `files` and,
unless it is the top, the `directory` in which the program runs.
-/

namespace DeclScribe

/-- The file tree that a snapshot spells. -/
def FileTree.ofSnapshot? (text : String) : Option FileTree := do
  let snapshot ← Json.Value.parse? text
  let files ← (← snapshot.member? "files").asArray?
  let t ← FileTree.ofJson? [] files
  let directory := (snapshot.member? "directory").bind Json.Value.asText?
  return { t with current := Path.names (directory.getD "") }

partial def readToEnd (input : IO.FS.Stream) (front : String) : IO String := do
  let line ← input.getLine
  if line.isEmpty then return front else readToEnd input (front ++ line)

/-- The variables of the environment that may set something. -/
def readEnvironment : IO Environment := do
  let names := Project.userVariables ++ AttributeSettings.variableNames
  let values ← names.mapM fun name => return (name, ← IO.getEnv name)
  return fun name => (values.lookup name).join

end DeclScribe

open DeclScribe

def main (args : List String) : IO UInt32 := do
  match FileTree.ofSnapshot? (← readToEnd (← IO.getStdin) "") with
  | none =>
    (← IO.getStderr).putStrLn "the input is no snapshot of a file system"
    return 2
  | some t =>
    let outcome := Outcome.ofArguments t (← readEnvironment) args
    (← IO.getStdout).putStr outcome.output
    (← IO.getStderr).putStr outcome.errors
    return outcome.status.toUInt32
