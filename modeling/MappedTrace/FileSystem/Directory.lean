import MappedTrace.FileSystem.Basic
import MappedTrace.Text.Utf8

/-!
# A directory of files

Files as a process sees them that runs in a directory. A path is walked piece by piece, so every
piece but the last must name a directory that is there, and the bytes of a file need not be a text.
-/

namespace MappedTrace.FileSystem

/-- The files below a directory, each under the names that lead to it. -/
structure Directory where
  files : List (List Text × List UInt8)

namespace Directory

/-- Where a walk has come to: a directory below, the file itself, or somewhere outside. -/
inductive Spot where
  | inside (names : List Text)
  | file (bytes : List UInt8)
  | outside

def namesOf (path : Text) : List Text :=
  (Path.components path).filterMap fun
    | .name text => some text
    | _ => none

def ofFiles (files : List (Text × List UInt8)) : Directory :=
  ⟨files.map fun (path, bytes) => (namesOf path, bytes)⟩

/-- One piece of a path. Outside nothing is known but directories further up. -/
def step (directory : Directory) : Spot → Text → Except ReadFault Spot
  | .file _, _ => .error .notDirectory
  | .outside, piece =>
    if piece = [] || piece = ['.'] || piece = ['.', '.'] then .ok .outside
    else if 255 < Utf8.size piece then .error .nameTooLong
    else .error .notFound
  | .inside names, piece =>
    if piece = [] || piece = ['.'] then .ok (.inside names)
    else if piece = ['.', '.'] then .ok (if names = [] then .outside else .inside names.dropLast)
    else if 255 < Utf8.size piece then .error .nameTooLong
    else
      let names := names ++ [piece]
      match directory.files.lookup names with
      | some bytes => .ok (.file bytes)
      | none =>
        if directory.files.any fun (other, _) => names.isPrefixOf other then .ok (.inside names)
        else .error .notFound

def find (directory : Directory) (path : Text) : Except ReadFault Spot :=
  if path = [] then .error .notFound
  else if 4096 ≤ Utf8.size path then .error .nameTooLong
  else
    (path.splitOn '/').foldlM directory.step
      (if Path.isAbsolute path then .outside else .inside [])

def bytes (directory : Directory) (path : Text) : Except ReadFault (List UInt8) := do
  match ← directory.find path with
  | .file bytes => return bytes
  | _ => throw .isDirectory

def fileSystem (directory : Directory) : FileSystem where
  isFile path := (directory.bytes path).isOk
  read path := do
    match Utf8.decode (← directory.bytes path) with
    | some text => return text
    | none => throw .invalidText

end Directory

end MappedTrace.FileSystem
