import MappedTrace.MapCache

/-!
# One lookup

What looking up a source does to a cache. There are four ways it can go, and every fact about runs
of lookups is derived from these: the source is known; it is new and names no map file; it is new
and names a map file that was tried before; it is new and so is its map file.
-/

namespace MappedTrace

namespace SourceMap

/-- The map file that a generated file names, if it can be read and names one. -/
def mapFile? (files : FileSystem) (source : Text) : Option Text :=
  match files.fetch source with
  | .text contents =>
    match Directive.target? source contents with
    | some (.file path) => some path
    | _ => none
  | _ => none

def moved (map : Option SourceMap) (position : Position) : Position :=
  (map.bind (origin? · position)).getD position

theorem mapFile?_eq_some {files : FileSystem} {source path : Text}
    (h : mapFile? files source = some path) :
    ∃ contents, files.fetch source = .text contents ∧
      Directive.target? source contents = some (.file path) := by
  unfold mapFile? at h
  cases hfetch : files.fetch source with
  | absent => simp [hfetch] at h
  | unreadable fault => simp [hfetch] at h
  | text contents =>
    refine ⟨contents, rfl, ?_⟩
    simp only [hfetch] at h
    cases htarget : Directive.target? source contents with
    | none => simp [htarget] at h
    | some location =>
      cases location with
      | inline url => simp [htarget] at h
      | file other => simpa [htarget] using h

theorem ofSource?_of_mapFile? {files : FileSystem} {source path : Text}
    (h : mapFile? files source = some path) :
    ofSource? files source = (ofFetched path (files.fetch path)).toOption := by
  obtain ⟨contents, hfetch, htarget⟩ := mapFile?_eq_some h
  simp only [ofSource?, load, hfetch, htarget]
  cases ofFetched path (files.fetch path) <;> rfl

end SourceMap

namespace MapCache

variable (files : FileSystem)

def fetched (cache : MapCache) (path : Text) : MapCache :=
  { cache with
    reads := cache.reads + (files.fetch path).reads
    asked := path :: cache.asked }

theorem run_fetch (path : Text) (cache : MapCache) :
    (fetch files path).run cache = (files.fetch path, cache.fetched files path) :=
  rfl

theorem run_bind {α β : Type} {lookups : Lookups α} {next : α → Lookups β}
    {cache left : MapCache} {answer : α} (h : lookups.run cache = (answer, left)) :
    (lookups >>= next).run cache = (next answer).run left := by
  rw [StateT.run_bind, h]
  rfl

theorem run_loadFile (path : Text) (cache : MapCache) :
    (loadFile files path).run cache =
      match cache.files.lookup path with
      | some known => (.ok known, cache)
      | none =>
        let map := SourceMap.ofFetched path (files.fetch path)
        (map.map some, (cache.fetched files path).rememberFile path map.toOption) := by
  simp only [loadFile, StateT.run_bind]
  cases h : cache.files.lookup path with
  | some known => simp [h]; rfl
  | none => simp [h]; rfl

theorem run_load (source : Text) (cache : MapCache) :
    (load files source).run cache =
      match SourceMap.mapFile? files source with
      | some path => (loadFile files path).run (cache.fetched files source)
      | none => (SourceMap.load files source, cache.fetched files source) := by
  have hrun := run_fetch files source cache
  unfold SourceMap.mapFile? SourceMap.load load
  rw [run_bind hrun]
  cases files.fetch source with
  | absent => rfl
  | unreadable fault => rfl
  | text contents =>
    dsimp only
    cases Directive.target? source contents with
    | none => rfl
    | some location => cases location <;> rfl

theorem run_sourceMapFor (source : Text) (cache : MapCache) :
    (sourceMapFor files source).run cache =
      match cache.sources.lookup source with
      | some known => (known, cache)
      | none =>
        let (result, after) := (load files source).run cache
        (result.toOption.join, after.rememberSource source result.toOption.join) := by
  simp only [sourceMapFor, StateT.run_bind]
  cases h : cache.sources.lookup source with
  | some known => simp [h]; rfl
  | none => simp [h]; rfl

/-- Looking up a source in a cache finds a map, or none, and leaves another cache. -/
inductive Finds (source : Text) (cache : MapCache) : Option SourceMap → MapCache → Prop
  | known {map : Option SourceMap} (entry : cache.sources.lookup source = some map) :
    Finds source cache map cache
  | alone (new : cache.sources.lookup source = none)
      (lone : SourceMap.mapFile? files source = none) :
    Finds source cache (SourceMap.ofSource? files source)
      ((cache.fetched files source).rememberSource source (SourceMap.ofSource? files source))
  | shared {path : Text} {map : Option SourceMap} (new : cache.sources.lookup source = none)
      (named : SourceMap.mapFile? files source = some path)
      (tried : cache.files.lookup path = some map) :
    Finds source cache map ((cache.fetched files source).rememberSource source map)
  | fresh {path : Text} (new : cache.sources.lookup source = none)
      (named : SourceMap.mapFile? files source = some path)
      (untried : cache.files.lookup path = none) :
    Finds source cache (SourceMap.ofSource? files source)
      ((((cache.fetched files source).fetched files path).rememberFile path
        (SourceMap.ofSource? files source)).rememberSource source
          (SourceMap.ofSource? files source))

theorem finds_sourceMapFor (source : Text) (cache : MapCache) :
    Finds files source cache ((sourceMapFor files source).run cache).1
      ((sourceMapFor files source).run cache).2 := by
  rw [run_sourceMapFor]
  cases hentry : cache.sources.lookup source with
  | some known => exact .known hentry
  | none =>
    dsimp only
    rw [run_load]
    cases hpath : SourceMap.mapFile? files source with
    | none => exact .alone hentry hpath
    | some path =>
      dsimp only
      rw [run_loadFile]
      have hsame : (cache.fetched files source).files.lookup path = cache.files.lookup path := rfl
      rw [hsame]
      cases htried : cache.files.lookup path with
      | some known => exact .shared hentry hpath htried
      | none =>
        have hmap := SourceMap.ofSource?_of_mapFile? hpath
        have hjoin : ((SourceMap.ofFetched path (files.fetch path)).map some).toOption.join =
            SourceMap.ofSource? files source := by
          rw [hmap]
          cases SourceMap.ofFetched path (files.fetch path) <;> rfl
        simp only [hjoin, ← hmap]
        exact .fresh hentry hpath htried

/-- A lookup goes only one way. -/
theorem Finds.eq_run {files : FileSystem} {source : Text} {cache after : MapCache}
    {map : Option SourceMap} (h : Finds files source cache map after) :
    (sourceMapFor files source).run cache = (map, after) := by
  rw [run_sourceMapFor]
  cases h with
  | known entry => rw [entry]
  | alone new lone =>
    rw [new, run_load, lone]
    rfl
  | shared new named tried =>
    rw [new, run_load, named]
    dsimp only
    rw [run_loadFile, show (cache.fetched files source).files = cache.files from rfl, tried]
    rfl
  | fresh new named untried =>
    rw [new, run_load, named]
    dsimp only
    rw [run_loadFile, show (cache.fetched files source).files = cache.files from rfl, untried,
      SourceMap.ofSource?_of_mapFile? named]
    cases SourceMap.ofFetched _ (files.fetch _) <;> rfl

theorem relocate_eq (position : Position) :
    relocate files position =
      (SourceMap.moved · position) <$> sourceMapFor files position.source := by
  rw [map_eq_pure_bind]
  rfl

end MapCache

end MappedTrace
