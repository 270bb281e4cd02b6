import Barline.Text.Encoding
import Barline.Value.Basic

/-!
# Documents — what files hold

A file has a text, and a document is a text that holds a value. Where the files are and how documents are written
are both left open: `Files` reads a name and `Loader` reads a text, and either may fail. What uses them works with
any files and any format of documents.
-/

namespace Barline

/-! ## Files -/

/-- Why a file has no text. -/
inductive FileError where
  | missing
  | notDirectory
  | directory
  | nameTooLong
  /-- The name contains a null character. -/
  | nullInName
  /-- The name has surrogates without bytes, from a position on. -/
  | noBytes (position : Nat) (surrogates : Text)
  /-- The name cannot be looked up, for a reason that the system gives. -/
  | unreachable (reason : String)
  /-- The file is there and cannot be opened, for a reason that the system gives. -/
  | unopened (reason : String)
  /-- The file is there and its bytes are no text. -/
  | undecodable (reason : String)
  deriving DecidableEq, Repr

/-- Whether there is something under a name, although it has no text. -/
def FileError.isThere : FileError → Bool
  | directory | unopened _ | undecodable _ => true
  | _ => false

/-- The wording of a failure to read the file with a given name. -/
def FileError.message (name : Text) : FileError → String
  | missing => "[Errno 2] No such file or directory: " ++ Text.quoted name
  | notDirectory => "[Errno 20] Not a directory: " ++ Text.quoted name
  | directory => "[Errno 21] Is a directory: " ++ Text.quoted name
  | nameTooLong => "[Errno 36] File name too long: " ++ Text.quoted name
  | nullInName => "embedded null byte"
  | noBytes position surrogates => Text.withoutBytesMessage position surrogates
  | unreachable reason | unopened reason | undecodable reason => reason

/-- What reading files by name gives. -/
abbrev Files := Text → Except FileError String

/-! ## Documents -/

/-- Why a text holds no value. -/
inductive DocumentError where
  /-- The text is not written in the format of documents. -/
  | malformed (reason : String)
  /-- A part of the text is written as a value and stands for none. -/
  | noValue (reason : String)
  /-- A number in the text, or a step on the way to one, is too large. -/
  | outOfRange (reason : String)
  deriving DecidableEq, Repr

def DocumentError.message : DocumentError → String
  | malformed reason => reason
  | noValue reason => reason
  | outOfRange reason => reason

/-- What turns the text of a document into a value. -/
abbrev Loader := String → Except DocumentError Value

end Barline
