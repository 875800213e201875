import MappedTrace.Text.Basic

/-!
# Paths

A path is read as a list of components, in which repeated slashes, trailing slashes and single dots
do not count, except for a dot in front. Cleaning a path is lexical: it asks no file system.
-/

namespace MappedTrace.Path

inductive Component where
  | root
  | here
  | up
  | name (text : Text)
deriving DecidableEq, Repr

/-- What a piece between slashes stands for, if it counts. -/
def Component.ofPiece? (piece : Text) : Option Component :=
  if piece = [] || piece = ['.'] then none
  else if piece = ['.', '.'] then some .up
  else some (.name piece)

def isAbsolute (path : Text) : Bool :=
  path.head? = some '/'

def components (path : Text) : List Component :=
  let pieces := path.splitOn '/'
  let counting := pieces.filterMap Component.ofPiece?
  if isAbsolute path then .root :: counting
  else if pieces.head? = some ['.'] then .here :: counting
  else counting

/-- The components of the directory that a path lies in. The root lies in none. -/
def parent (path : Text) : List Component :=
  let parts := components path
  if parts.getLast? = some .root then [] else parts.dropLast

/-- Adds a component to a clean path, which is given last component first. -/
def push (stack : List Component) : Component → List Component
  | .root => .root :: stack
  | .here => stack
  | .up =>
    match stack with
    | .root :: _ => stack
    | .name _ :: rest => rest
    | _ => .up :: stack
  | .name text => .name text :: stack

/-- Drops dots and lets a name and the `..` after it cancel. Right after the root, `..` is dropped;
in front of a relative path it stays. -/
def normalize (parts : List Component) : List Component :=
  (parts.foldl push []).reverse

def Component.render : Component → Text
  | root => []
  | here => ['.']
  | up => ['.', '.']
  | name text => text

/-- The text of a clean path; one without components is a dot. -/
def render : List Component → Text
  | [] => ['.']
  | [.root] => ['/']
  | parts => ['/'].intercalate (parts.map Component.render)

def clean (path : Text) : Text :=
  render (normalize (components path))

/-- The clean path of a file named relative to the directory that another file lies in. -/
def beside (file relative : Text) : Text :=
  render (normalize (parent file ++ components relative))

end MappedTrace.Path
