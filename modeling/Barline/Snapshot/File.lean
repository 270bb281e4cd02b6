import Barline.Document
import Barline.Snapshot.Basic

/-!
# Snapshot files — from the text of a file to a snapshot

A file holds one document. An empty document is an empty snapshot; any other document has to be a mapping.
-/

namespace Barline

namespace Snapshot

/-- The sections of a snapshot that a file holds. -/
def sections (file : Text) : Value → Reading Mapping
  | .null => return []
  | .mapping entries => do
    Reading.notice (.loadedSnapshot file)
    return entries
  | v => Reading.fail (.fileNotSnapshot file v)

/-- Reads the snapshot in the text of a file. -/
def load (loader : Loader) (file : Text) (text : String) : Except DocumentError (Reading Snapshot) := do
  let document ← loader text
  return do
    let entries ← sections file document
    read (.mapping entries)

/-! ## Files by name -/

/-- Why a file gives no snapshot. -/
inductive LoadError where
  | file (cause : FileError)
  | document (cause : DocumentError)
  | content (cause : WritingError SnapshotError)
  deriving DecidableEq

/-- The wording of a failure to load the file with a given name. -/
def LoadError.message (name : Text) : LoadError → Text
  | file cause => cause.message name
  | document cause => cause.message
  | content cause => cause.message SnapshotError.message

/-- Loads the snapshot in the file with the given name. -/
def loadFile (files : Files) (loader : Loader) (file : Text) : Except LoadError Snapshot := do
  let text ← (files file).mapError .file
  let reading ← (load loader file text).mapError .document
  reading.written.mapError .content

end Snapshot

end Barline
