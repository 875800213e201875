import MappedTrace.SourceMap.Load

/-!
# Remembered source maps

A cache remembers for every generated file that was looked up whether it has a source map, and for
every map file that was tried what it held. Failures are remembered too, so no file is read twice
for the same purpose and a cache never changes its mind. It also counts the reads that succeeded.
-/

namespace MappedTrace

structure MapCache where
  sources : List (Text × Option SourceMap) := []
  files : List (Text × Option SourceMap) := []
  reads : Nat := 0
  /-- Every path that was looked for, latest first. -/
  asked : List Text := []

abbrev Lookups :=
  StateM MapCache

namespace MapCache

def size (cache : MapCache) : Nat :=
  cache.sources.length

def isEmpty (cache : MapCache) : Bool :=
  cache.sources.isEmpty

/-- Forgets all maps, but not what was read. -/
def cleared (cache : MapCache) : MapCache :=
  { cache with sources := [], files := [] }

def rememberSource (cache : MapCache) (source : Text) (map : Option SourceMap) : MapCache :=
  { cache with sources := (source, map) :: cache.sources }

def rememberFile (cache : MapCache) (path : Text) (map : Option SourceMap) : MapCache :=
  { cache with files := (path, map) :: cache.files }

/-- Reads a file without asking first whether it is there. -/
def read (files : FileSystem) (path : Text) : Lookups (Except ReadFault Text) := fun cache =>
  let result := files.read path
  let served := if result.isOk then 1 else 0
  (result, { cache with reads := cache.reads + served, asked := path :: cache.asked })

def fetch (files : FileSystem) (path : Text) : Lookups Fetched := fun cache =>
  let fetched := files.fetch path
  (fetched, { cache with reads := cache.reads + fetched.reads, asked := path :: cache.asked })

/-- The source map in a file, which is tried only once. A second attempt finds no fault any more,
only that there is no map. -/
def loadFile (files : FileSystem) (path : Text) :
    Lookups (Except SourceMap.LoadError (Option SourceMap)) := do
  match (← get).files.lookup path with
  | some known => return .ok known
  | none =>
    let result := SourceMap.ofFetched path (← fetch files path)
    modify (·.rememberFile path result.toOption)
    return result.map some

def load (files : FileSystem) (source : Text) :
    Lookups (Except SourceMap.LoadError (Option SourceMap)) := do
  match ← fetch files source with
  | .absent => return .ok none
  | .unreadable fault => return .error (.unreadable source fault)
  | .text contents =>
    match Directive.target? source contents with
    | none => return .ok none
    | some (.inline url) => return (SourceMap.ofInline url).map some
    | some (.file path) => loadFile files path

def sourceMapFor (files : FileSystem) (source : Text) : Lookups (Option SourceMap) := do
  match (← get).sources.lookup source with
  | some known => return known
  | none =>
    let map := (← load files source).toOption.join
    modify (·.rememberSource source map)
    return map

/-- A position of generated code moved to where it came from, or left as it is. -/
def relocate (files : FileSystem) (position : Position) : Lookups Position := do
  let map ← sourceMapFor files position.source
  return (map.bind (SourceMap.origin? · position)).getD position

end MapCache

end MappedTrace
