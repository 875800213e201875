import MappedTrace.Relocation
import MappedTrace.StackFrame
import MappedTrace.Text.Lines

/-!
# Stack traces

A stack trace is the text of an error followed by its frames, one to a line. It is moved to where
the code came from either frame by frame before it is written, or line by line afterwards.
-/

namespace MappedTrace.StackTrace

def frameMark : Text :=
  "\n    at ".toList

def render (error : Text) (sites : List CallSite) : Text :=
  error ++ sites.flatMap fun site => frameMark ++ site.render

def preparing (files : FileSystem) (error : Text) (sites : List CallSite) : Lookups Text := do
  return render error (← sites.mapM (CallSite.relocate files))

def prepare (files : FileSystem) (error : Text) (sites : List CallSite) : Text :=
  ((preparing files error sites).run {}).1

/-- A column that is not known is the first one. -/
def sameLocation (site other : CallSite) : Bool :=
  site.script = other.script && site.line = other.line &&
    site.column.getD 0 = other.column.getD 0 && site.evalOrigin = other.evalOrigin

/-- A line of a written trace, with its frame moved. A line that is no frame, or whose frame stays
where it is, is left alone; otherwise its blanks in front and its line end are kept. -/
def remappingLine (files : FileSystem) (line : Text) : Lookups Text := do
  let (content, ending) := Text.cutEnds line
  match StackFrame.parse content with
  | .error _ => return line
  | .ok frame =>
    let site := frame.callSite
    let moved ← site.relocate files
    if sameLocation site moved then return line
    else
      let indent := content.takeWhile Text.isBlank
      return indent ++ "at ".toList ++ moved.render ++ ending

def remapping (files : FileSystem) (text : Text) : Lookups Text := do
  return (← (Text.linesWithEnds text).mapM (remappingLine files)).flatten

def remap (files : FileSystem) (text : Text) : Text :=
  ((remapping files text).run {}).1

end MappedTrace.StackTrace
