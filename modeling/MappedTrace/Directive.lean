import MappedTrace.Path
import MappedTrace.Text.Blank

/-!
# Source map directives

A generated file names its source map in a comment, `//# sourceMappingURL=` or with an at sign, up
to the end of the line. Only the last such comment counts, even when it names nothing.
-/

namespace MappedTrace.Directive

/-- What follows a marker that the text starts with. Blanks and even line breaks may stand between
its sign and its name. -/
def afterMarker? : Text → Option Text
  | '/' :: '/' :: sign :: rest =>
    if sign = '@' || sign = '#' then
      "sourceMappingURL=".toList.isPrefixOf? (Text.trimStart rest)
    else none
  | _ => none

def line (text : Text) : Text :=
  text.takeWhile (· ≠ '\n')

/-- What the markers name, in order, when so many characters are passed over first. A line that
holds a marker is not searched for another one. -/
def urlsFrom : Nat → Text → List Text
  | _, [] => []
  | skip + 1, _ :: rest => urlsFrom skip rest
  | 0, c :: rest =>
    match afterMarker? (c :: rest) with
    | none => urlsFrom 0 rest
    | some after => line after :: urlsFrom (rest.length - (after.length - (line after).length)) rest

def url? (contents : Text) : Option Text := do
  Text.filled? (Text.trim (← (urlsFrom 0 contents).getLast?))

/-- Where a source map is: in the url itself, or in a file. -/
inductive Location where
  | inline (url : Text)
  | file (path : Text)
deriving DecidableEq, Repr

/-- A url that holds no data is a path, relative to the directory of the generated file. -/
def locate (generated url : Text) : Location :=
  if "data:".toList.isPrefixOf url then .inline url
  else if Path.isAbsolute url then .file (Path.clean url)
  else .file (Path.beside generated url)

theorem eq_of_locate_eq_inline {generated url data : Text}
    (h : locate generated url = .inline data) :
    data = url := by
  unfold locate at h
  split at h
  · exact (Location.inline.inj h).symm
  · split at h <;> contradiction

/-- Where a generated file with these contents says that its source map is. -/
def target? (generated contents : Text) : Option Location :=
  (url? contents).map (locate generated)

end MappedTrace.Directive
