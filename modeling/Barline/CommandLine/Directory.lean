import Barline.Document

/-!
# Directories — files found by name

A directory holds files under their names. A name with slashes leads through directories, which are there when a file
lies in them; `.` stays where it is, `..` goes back, and a file leads nowhere. Names that begin with a slash lead from
the root, where there is only the empty device. What is around the directory of a session is not known, except that it
is a directory.
-/

namespace Barline

/-- Files with their names. -/
abbrev Directory := List (Text × String)

namespace Directory

/-- The parts of a name between slashes. -/
def parts (name : Text) : List Text :=
  name.splitOn (.char '/')

/-- The part of a name that stays where it is. -/
def here : Text := "."

/-- The part of a name that goes back. -/
def back : Text := ".."

/-- Whether a part of a name leads nowhere else; the empty part does not. -/
def isHere (part : Text) : Bool :=
  part.isEmpty || part = here

/-- The greatest number of bytes in a part of a name. -/
def partLimit : Nat := 255

/-- One more than the greatest number of bytes in a name. -/
def nameBound : Nat := 4096

/-- What stands in a place: the text of a file, if the place is one. -/
def file? (files : Directory) (place : List Text) : Option String :=
  files.findSome? fun (name, text) =>
    if (parts name).filter (!isHere ·) = place then some text else none

def isDirectory (files : Directory) (place : List Text) : Bool :=
  place.isEmpty || files.any fun (name, _) => place.isPrefixOf ((parts name).filter (!isHere ·))

/-- Goes back over the given parts from the directory of a session. -/
def followAround : List Text → Except FileError String
  | [] => .error .directory
  | part :: rest => if isHere part || part = back then followAround rest else .error .missing

/-- Follows the parts of a name from a place. -/
def follow (files : Directory) (place : List Text) : List Text → Except FileError String
  | [] => .error .directory
  | part :: rest =>
    if isHere part then follow files place rest
    else if part = back then
      if place.isEmpty then followAround rest else follow files place.dropLast rest
    else if partLimit < part.byteCount then .error .nameTooLong
    else
      let place := place ++ [part]
      match file? files place with
      | some text => if rest.isEmpty then .ok text else .error .notDirectory
      | none => if isDirectory files place then follow files place rest else .error .missing

/-- What is found from the root: the empty device, a file without text. -/
def root : Directory := [("dev/null", "")]

def read (files : Directory) : Files := fun name =>
  match name.withoutBytes? with
  | some (position, surrogates) => .error (.noBytes position surrogates)
  | none =>
    if name.contains (.char '\x00') then .error .nullInName
    else if name.isEmpty then .error .missing
    else if nameBound ≤ name.byteCount then .error .nameTooLong
    else if name.head? = some (.char '/') then follow root [] (parts name)
    else follow files [] (parts name)

end Directory

end Barline
