import MappedTrace.Directive
import MappedTrace.FileSystem.Basic
import MappedTrace.SourceMap.Decode

/-!
# Loading source maps

The source map of a generated file, read afresh: the file is fetched, its directive followed, and
the map decoded. A file that is missing or has no directive has no map, and this is no fault.
-/

namespace MappedTrace.SourceMap

inductive LoadError where
  | unreadable (path : Text) (fault : ReadFault)
  | missingMap (path : Text)
  | invalidMap (cause : DecodeError)
deriving DecidableEq, Repr

def LoadError.message : LoadError → Text
  | unreadable path fault => "failed to read '".toList ++ path ++ "': ".toList ++ fault.message
  | missingMap path => "source map '".toList ++ path ++ "' does not exist".toList
  | invalidMap cause => "invalid source map data: ".toList ++ cause.message

def ofFetched (path : Text) : Fetched → Except LoadError SourceMap
  | .absent => .error (.missingMap path)
  | .unreadable fault => .error (.unreadable path fault)
  | .text contents => (ofBytes (Utf8.encode contents)).mapError .invalidMap

def ofInline (url : Text) : Except LoadError SourceMap :=
  (ofDataUrl url).mapError .invalidMap

def load (files : FileSystem) (source : Text) : Except LoadError (Option SourceMap) :=
  match files.fetch source with
  | .absent => .ok none
  | .unreadable fault => .error (.unreadable source fault)
  | .text contents =>
    match Directive.target? source contents with
    | none => .ok none
    | some (.inline url) => (ofInline url).map some
    | some (.file path) => (ofFetched path (files.fetch path)).map some

/-- The source map of a generated file, if there is a usable one. -/
def ofSource? (files : FileSystem) (source : Text) : Option SourceMap :=
  (load files source).toOption.join

/-- A position of generated code moved to where it came from, or left as it is. -/
def relocated (files : FileSystem) (position : Position) : Position :=
  ((ofSource? files position.source).bind (origin? · position)).getD position

end MappedTrace.SourceMap
