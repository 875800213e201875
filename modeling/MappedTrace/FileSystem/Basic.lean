import MappedTrace.Path

/-!
# File systems

The files as they are at one moment, as seen by path: whether a file is there, and what text it
holds. Paths are handed over as they were written. Files in memory are kept under their clean paths,
so that all spellings of a path name the same file.
-/

namespace MappedTrace

inductive ReadFault where
  | noSuchFile (path : Text)
  | notFound
  | isDirectory
  | notDirectory
  | nameTooLong
  | invalidText
  | other (text : Text)
deriving DecidableEq, Repr

def ReadFault.message : ReadFault → Text
  | noSuchFile path => "no such file: ".toList ++ path
  | notFound => "No such file or directory (os error 2)".toList
  | isDirectory => "Is a directory (os error 21)".toList
  | notDirectory => "Not a directory (os error 20)".toList
  | nameTooLong => "File name too long (os error 36)".toList
  | invalidText => "stream did not contain valid UTF-8".toList
  | other text => text

structure FileSystem where
  isFile : Text → Bool
  read : Text → Except ReadFault Text

inductive Fetched where
  | absent
  | unreadable (fault : ReadFault)
  | text (contents : Text)

/-- A file that is not there is not read. -/
def FileSystem.fetch (files : FileSystem) (path : Text) : Fetched :=
  if files.isFile path then
    match files.read path with
    | .ok contents => .text contents
    | .error fault => .unreadable fault
  else .absent

theorem FileSystem.fetch_eq_text_iff {files : FileSystem} {path contents : Text} :
    files.fetch path = .text contents ↔
      files.isFile path = true ∧ files.read path = .ok contents := by
  unfold fetch
  cases files.isFile path with
  | false => simp
  | true => cases files.read path <;> simp

/-- The number of successful reads that fetching takes. -/
def Fetched.reads : Fetched → Nat
  | text _ => 1
  | _ => 0

namespace FileSystem

structure Memory where
  files : List (Text × Text) := []

namespace Memory

/-- Puts a file in place of any other at the same path. -/
def insert (memory : Memory) (path contents : Text) : Memory :=
  ⟨(Path.clean path, contents) :: memory.files⟩

def contents? (memory : Memory) (path : Text) : Option Text :=
  memory.files.lookup (Path.clean path)

def fileSystem (memory : Memory) : FileSystem where
  isFile path := (memory.contents? path).isSome
  read path :=
    match memory.contents? path with
    | some contents => .ok contents
    | none => .error (.noSuchFile path)

theorem fetch_eq (memory : Memory) (path : Text) :
    memory.fileSystem.fetch path =
      match memory.contents? path with
      | some contents => .text contents
      | none => .absent := by
  cases hcontents : memory.contents? path with
  | none => simp [fetch, fileSystem, hcontents]
  | some contents => simp [fetch, fileSystem, hcontents]

end Memory

end FileSystem

end MappedTrace
