import Barline.CommandLine.Session
import Barline.Yaml.Loading

/-!
# The program — a session on real files

The files that the arguments name are read first; everything else is a session on what was read. The program goes
to the standard output and the log to the standard error output.
-/

open Barline Barline.CommandLine

/-- What is printed when the arguments are refused. -/
def usage : String :=
  "usage: barline [-h] [--config CONFIG] [--instrument INSTRUMENT] [--loop-count LOOP_COUNT]" ++
    " [--no-compress] [-v] snapshot"

def readText (name : Text) : IO (Except FileError String) := do
  try
    let text ← IO.FS.readFile name.toString
    return .ok text
  catch failure =>
    match failure with
    | .inappropriateType _ 21 _ => return .error .directory
    | .inappropriateType _ _ _ => return .error .notDirectory
    | .invalidArgument _ 36 _ => return .error .nameTooLong
    | .permissionDenied _ _ _ => return .error (.unopened ("[Errno 13] Permission denied: " ++ Text.quoted name))
    | .userError reason => return .error (.undecodable reason)
    | _ => return .error .missing

/-- The files that a command line names. -/
def namedFiles (arguments : List Text) : IO Files := do
  match Arguments.parse arguments with
  | .error _ => return fun _ => .error .missing
  | .ok request =>
    let config ← match request.config with
      | some name => readText name
      | none => pure (.error .missing)
    let snapshot ← readText request.snapshot
    return fun name => if some name = request.config then config else snapshot

def main (arguments : List String) : IO UInt32 := do
  let arguments := arguments.map Text.ofString
  let files ← namedFiles arguments
  match Session.run files Yaml.loader Console.utf8 arguments with
  | .refused status =>
    IO.eprintln usage
    return status.toUInt32
  | .failed cause =>
    IO.eprintln cause.message.toString
    return 1
  | .finished status output log =>
    for notice in log do
      IO.eprintln notice.record.toString
    IO.print output.toString
    return status.toUInt32
