import Barline.CommandLine.Arguments
import Barline.Snapshot.File

/-!
# Sessions — one run of the command line

A session reads an option file and a snapshot, lets the options of the command line overrule those of the
snapshot and these overrule those of the option file, and prints the program. It ends with a status and a log,
unless the arguments are refused or something fails that it does not expect: an option file that cannot be opened or is
no document, an instrument that is no text, a number that is too long to be written, or a program that cannot be
printed.

Files, the format of documents and the console are parameters, so a session is a function of what it is given.
-/

namespace Barline.CommandLine

/-! ## The console -/

/-- What programs are printed on: why a text cannot be printed, if it cannot. -/
abbrev Console := Text → Option String

namespace Console

/-- A console that takes every text. -/
def any : Console := fun _ => none

/-- A console that prints the bytes of texts. -/
def utf8 : Console := Text.unprintable?

end Console

/-! ## Endings -/

/-- What a session does not expect. -/
inductive Failure where
  /-- The option for the option file has no value. -/
  | noConfigName
  | configFile (file : Text) (cause : FileError)
  | document (cause : DocumentError)
  | build (cause : BuildError)
  /-- A number in what is to be written is too long. -/
  | tooLong
  /-- The console does not take the program. -/
  | unprintable (reason : String)
  deriving DecidableEq

def Failure.message : Failure → Text
  | noConfigName => "stat: path should be string, bytes, os.PathLike or integer, not list"
  | configFile file cause => cause.message file
  | document cause => cause.message
  | build cause => cause.message
  | tooLong => Numeral.tooLongToWrite
  | unprintable reason => reason

/-- A failure to build and write a score. -/
def Failure.ofBuild : WritingError BuildError → Failure
  | .cause e => build e
  | .tooLong => tooLong

inductive Ending where
  /-- The arguments were not acted on. -/
  | refused (status : Nat)
  /-- The session came to its end with a status, an output and a log. -/
  | finished (status : Nat) (output : Text) (log : List Notice)
  | failed (cause : Failure)
  deriving DecidableEq

namespace Session

/-! ## The option file -/

/-- The entries of an option file. A file that is not there, or no mapping, has none. -/
def readConfig (files : Files) (loader : Loader) (file : Text) :
    Except Failure (List Notice × Mapping) :=
  match files file with
  | .error e => if e.isThere then .error (.configFile file e) else .ok ([.missingConfig file], [])
  | .ok text =>
    match loader text with
    | .error e => .error (.document e)
    | .ok document =>
      if document.isVoid then .ok ([], [])
      else
        match document with
        | .mapping entries => .ok ([], entries)
        | _ => .ok ([.configNotMapping file], [])

/-! ## The snapshot -/

/-- What reading a snapshot file comes to. -/
inductive SnapshotFile where
  | entries (noticed : List Notice) (entries : Mapping)
  /-- The file cannot be read, for a reason that is reported. -/
  | unreadable (reason : Text)
  | failed (cause : Failure)

def readSections (files : Files) (loader : Loader) (file : Text) : SnapshotFile :=
  match files file with
  | .error e => .unreadable (e.message file)
  | .ok text =>
    match loader text with
    | .error (.outOfRange reason) => .failed (.document (.outOfRange reason))
    | .error e => .unreadable e.message
    | .ok document =>
      let reading := Snapshot.sections file document
      match reading.outcome with
      | .error e => .unreadable e.message
      | .ok entries => .entries reading.notices entries

/-! ## Options -/

/-- Output options that the command line sets itself. -/
def overrule (request : Arguments) (output : Mapping) : Mapping :=
  let output := match request.instrument with
    | some v => output.put (.text "instrument") v
    | none => output
  let output := match request.loopCount with
    | some v => output.put (.text "loop_count") v
    | none => output
  if request.noCompress then output.put (.text "compress") (.bool false) else output

/-- The output options of an option file, overruled by those of a snapshot, overruled by the command line. -/
def mergeOutput (request : Arguments) (config sections : Mapping) : Except SnapshotError Mapping := do
  let defaults ← Field.mapping (.top "config output") (config.field Spelling.output)
  let chosen ← Field.mapping (.top "output") (sections.field Spelling.output)
  return overrule request (defaults.merge chosen)

/-- The snapshot with its output options merged. -/
def mergedSnapshot (request : Arguments) (config sections : Mapping) : Reading Snapshot := do
  let output ← mergeOutput request config sections
  Snapshot.read (.mapping (Mapping.put sections (.text "output") (.mapping output)))

/-! ## The session -/

/-- The notices that are shown: all of them, or all but those that help to find faults. -/
def shown (verbose : Bool) (log : List Notice) : List Notice :=
  log.filter fun n => verbose || n.level ≠ .debug

/-- Builds what a reading gives and prints it, behind what was noticed before. -/
def conclude (console : Console) (verbose : Bool) (log : List Notice) (reading : Reading Snapshot) : Ending :=
  let log := log ++ reading.writtenNotices
  match reading.written with
  | .error e =>
    .finished 1 [] (shown verbose (log ++ [.invalidSnapshot (e.message SnapshotError.message)]))
  | .ok snapshot =>
    match snapshot.write with
    | .error e => .failed (.ofBuild e)
    | .ok score =>
      let built := Notice.built score.size snapshot.settings.bars
      if built.isWritable then
        match console score.program with
        | some reason => .failed (.unprintable reason)
        | none =>
          .finished 0 (score.program ++ "\n")
            (shown verbose (log ++ score.timeline.notices ++ [built]))
      else .failed .tooLong

/-- Acts on what a command line asks for, with the option file of the given name. -/
def actWith (files : Files) (loader : Loader) (console : Console) (request : Arguments) (config : Text) : Ending :=
  match readConfig files loader config with
  | .error e => .failed e
  | .ok (log, config) =>
    match readSections files loader request.snapshot with
    | .failed e => .failed e
    | .unreadable reason =>
      .finished 1 [] (shown request.verbose (log ++ [.unreadableSnapshot request.snapshot reason]))
    | .entries noticed sections =>
      conclude console request.verbose (log ++ noticed) (mergedSnapshot request config sections)

/-- Acts on what a command line asks for. -/
def act (files : Files) (loader : Loader) (console : Console) (request : Arguments) : Ending :=
  match request.config with
  | none => .failed .noConfigName
  | some config => actWith files loader console request config

/-- Runs a session on the arguments of a command line. -/
def run (files : Files) (loader : Loader) (console : Console) (arguments : List Text) : Ending :=
  match Arguments.parse arguments with
  | .error .help => .refused 0
  | .error .misuse => .refused 2
  | .ok request => act files loader console request

end Session

end Barline.CommandLine
