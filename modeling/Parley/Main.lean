import Parley.Command.Program

/-! # The command line

    The outermost layer: it reads the files that the arguments name and the lines of the input, and
    writes what the program answers.
-/

namespace Parley.Command

/-- Reads what is at a path. -/
def readPath (path : String) : IO FileState := do
  try
    return .file (← IO.FS.readFile ⟨path⟩)
  catch error =>
    match error with
    | .noFileOrDirectory .. | .noSuchThing .. => return .missing
    | .inappropriateType _ _ "not a directory" => return .notDirectory
    | .inappropriateType .. => return .directory
    | .invalidArgument _ _ "name too long" => return .nameTooLong
    | error => return .unreadable (toString error)

/-- Reads what is at several paths. -/
def readPaths (paths : List String) : IO (String → FileState) := do
  let states ← paths.mapM fun path => do return (path, ← readPath path)
  return fun path => (states.lookup path).getD .missing

/-- Writes a text at once. -/
def write (stream : IO.FS.Stream) (text : String) : IO Unit := do
  stream.putStr text
  stream.flush

/-- Writes what a program leaves behind; returns the code that it ends with. -/
def report (outcome : Outcome) : IO UInt32 := do
  write (← IO.getStdout) outcome.out
  write (← IO.getStderr) outcome.err
  return outcome.exitCode.toUInt32

/-- Chats over the lines of the input until one ends the chat. -/
def chatInteractively (client : Client Scripted) : IO UInt32 := do
  let stdin ← IO.getStdin
  let mut client := client
  repeat
    write (← IO.getStdout) chatPrompt
    let line ← stdin.getLine
    if line.isEmpty then break
    let (reply, next) := answerLine line client
    client := next
    write (← IO.getStderr) reply.err
    write (← IO.getStdout) reply.out
    match reply.next with
    | .proceed => pure ()
    | .quit => break
    | .fail error => return (← report (Outcome.failed error))
  return 0

end Parley.Command

open Parley.Command in
/-- Runs the program with the given arguments. -/
def main (arguments : List String) : IO UInt32 := do
  match readArguments arguments with
  | .error error => report (Outcome.misused error)
  | .ok .help => report { out := usage }
  | .ok .version => report { out := versionLine }
  | .ok (.run options action) =>
    match plan (← readPaths (pathsOf options action)) options action with
    | .finished outcome => report outcome
    | .chat client => chatInteractively client
