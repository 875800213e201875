import MappedTrace.Proofs.MapCache.Query

/-!
# A cache never changes its mind

The files may change while a cache lives. An entry is made only for a source or a map file that has
none, and stays: a source keeps the map, or the lack of one, that its first lookup found, and a map
file keeps the outcome of the first attempt to load it, for every source that leads to it.
-/

namespace MappedTrace.MapCache

/-- The later cache holds the entries of the earlier one, behind those made since. -/
structure Extends (earlier later : MapCache) : Prop where
  sources : earlier.sources <:+ later.sources
  files : earlier.files <:+ later.files

theorem Extends.refl (cache : MapCache) : cache.Extends cache :=
  ⟨List.suffix_rfl, List.suffix_rfl⟩

theorem Extends.trans {earlier between later : MapCache} (h : earlier.Extends between)
    (hlater : between.Extends later) : earlier.Extends later :=
  ⟨h.sources.trans hlater.sources, h.files.trans hlater.files⟩

structure Distinct (cache : MapCache) : Prop where
  sources : (cache.sources.map Prod.fst).Nodup
  files : (cache.files.map Prod.fst).Nodup

theorem Distinct.empty : Distinct {} :=
  ⟨List.nodup_nil, List.nodup_nil⟩

section

variable {entries others : List (Text × Option SourceMap)} {key : Text} {map : Option SourceMap}

private theorem nodup_cons (hnew : entries.lookup key = none)
    (h : (entries.map Prod.fst).Nodup) : (((key, map) :: entries).map Prod.fst).Nodup := by
  refine List.nodup_cons.mpr ⟨?_, h⟩
  intro hmem
  obtain ⟨entry, hentry, hkey⟩ := List.mem_map.mp hmem
  have hne := List.lookup_eq_none_iff.mp hnew entry hentry
  simp [hkey] at hne

private theorem lookup_of_suffix (hsuffix : entries <:+ others)
    (hnodup : (others.map Prod.fst).Nodup) (h : entries.lookup key = some map) :
    others.lookup key = some map := by
  obtain ⟨newer, rfl⟩ := hsuffix
  have hmem : key ∈ entries.map Prod.fst := by
    obtain ⟨before, behind, rfl, -⟩ := List.lookup_eq_some_iff.mp h
    simp
  have hnew : newer.lookup key = none := by
    rw [List.lookup_eq_none_iff]
    intro entry hentry
    rw [List.map_append] at hnodup
    have hne := (List.nodup_append.mp hnodup).2.2 _ (List.mem_map_of_mem hentry) _ hmem
    simpa [bne_iff_ne] using hne.symm
  rw [List.lookup_append, hnew, Option.none_or, h]

/-- Entries are neither lost nor changed from one cache to another. -/
structure Keeps (earlier later : MapCache) : Prop where
  sources : ∀ {source : Text} {map : Option SourceMap},
    earlier.sources.lookup source = some map → later.sources.lookup source = some map
  files : ∀ {path : Text} {map : Option SourceMap},
    earlier.files.lookup path = some map → later.files.lookup path = some map
  size : earlier.size ≤ later.size

theorem Extends.keeps {earlier later : MapCache} (hextends : earlier.Extends later)
    (hdistinct : later.Distinct) : earlier.Keeps later where
  sources := lookup_of_suffix hextends.sources hdistinct.sources
  files := lookup_of_suffix hextends.files hdistinct.files
  size := hextends.sources.length_le

end

section

variable {files : FileSystem} {source path : Text} {cache left : MapCache} {map : Option SourceMap}

theorem Finds.extends (h : Finds files source cache map left) : cache.Extends left := by
  cases h with
  | known entry => exact Extends.refl cache
  | alone new lone => exact ⟨List.suffix_cons _ _, List.suffix_rfl⟩
  | shared new named tried => exact ⟨List.suffix_cons _ _, List.suffix_rfl⟩
  | fresh new named untried => exact ⟨List.suffix_cons _ _, List.suffix_cons _ _⟩

theorem Finds.distinct (h : Finds files source cache map left) (hdistinct : cache.Distinct) :
    left.Distinct := by
  cases h with
  | known entry => exact hdistinct
  | alone new lone => exact ⟨nodup_cons new hdistinct.sources, hdistinct.files⟩
  | shared new named tried => exact ⟨nodup_cons new hdistinct.sources, hdistinct.files⟩
  | fresh new named untried =>
    exact ⟨nodup_cons new hdistinct.sources, nodup_cons untried hdistinct.files⟩

/-- Every way of looking up a source ends with an entry for it, a failure included. -/
theorem Finds.lookup_sources (h : Finds files source cache map left) :
    left.sources.lookup source = some map := by
  cases h with
  | known entry => exact entry
  | alone new lone => exact List.lookup_cons_self
  | shared new named tried => exact List.lookup_cons_self
  | fresh new named untried => exact List.lookup_cons_self

theorem Finds.lookup_files (h : Finds files source cache map left)
    (hnew : cache.sources.lookup source = none)
    (hnamed : SourceMap.mapFile? files source = some path) :
    left.files.lookup path = some map := by
  cases h with
  | known entry => simp [hnew] at entry
  | alone new lone => simp [hnamed] at lone
  | shared new named tried =>
    obtain rfl : _ = path := Option.some.inj (named.symm.trans hnamed)
    exact tried
  | fresh new named untried =>
    obtain rfl : _ = path := Option.some.inj (named.symm.trans hnamed)
    exact List.lookup_cons_self

end

section

variable (files : FileSystem) (query : Query) (cache : MapCache)

theorem extends_ask : cache.Extends ((query.ask files).run cache).2 := by
  cases hsource : query.source? with
  | none =>
    rw [Query.run_ask_of_source?_eq_none files cache hsource]
    exact Extends.refl cache
  | some source =>
    rw [Query.run_ask_of_source?_eq_some files cache hsource]
    exact (finds_sourceMapFor files source cache).extends

theorem distinct_ask (h : cache.Distinct) : ((query.ask files).run cache).2.Distinct := by
  cases hsource : query.source? with
  | none => rwa [Query.run_ask_of_source?_eq_none files cache hsource]
  | some source =>
    rw [Query.run_ask_of_source?_eq_some files cache hsource]
    exact (finds_sourceMapFor files source cache).distinct h

end

/-! ### Files that change -/

structure Session where
  files : FileSystem
  cache : MapCache := {}

/-- The files may change in any way between two queries: some may appear, go, or hold other text. -/
inductive Event where
  | change (files : FileSystem)
  | ask (query : Query)

/-- A file that is put into memory, in place of any other at its path. -/
def Event.insert (memory : FileSystem.Memory) (path contents : Text) : Event :=
  .change (memory.insert path contents).fileSystem

namespace Session

def ask (session : Session) (query : Query) : Answer × MapCache :=
  (query.ask session.files).run session.cache

def found (session : Session) (source : Text) : Option SourceMap :=
  ((sourceMapFor session.files source).run session.cache).1

def step (session : Session) : Event → Session
  | .change files => { session with files }
  | .ask query => { session with cache := (session.ask query).2 }

def run (session : Session) (events : List Event) : Session :=
  events.foldl step session

theorem extends_step (session : Session) (event : Event) :
    session.cache.Extends (session.step event).cache := by
  cases event with
  | change files => exact Extends.refl session.cache
  | ask query => exact extends_ask session.files query session.cache

theorem distinct_step {session : Session} (h : session.cache.Distinct) (event : Event) :
    (session.step event).cache.Distinct := by
  cases event with
  | change files => exact h
  | ask query => exact distinct_ask session.files query session.cache h

theorem extends_run (session : Session) (events : List Event) :
    session.cache.Extends (session.run events).cache := by
  induction events generalizing session with
  | nil => exact Extends.refl session.cache
  | cons event rest ih => exact (extends_step session event).trans (ih (session.step event))

theorem distinct_run {session : Session} (h : session.cache.Distinct) (events : List Event) :
    (session.run events).cache.Distinct := by
  induction events generalizing session with
  | nil => exact h
  | cons event rest ih => exact ih (distinct_step h event)

theorem keeps_run {session : Session} (h : session.cache.Distinct) (events : List Event) :
    session.cache.Keeps (session.run events).cache :=
  (extends_run session events).keeps (distinct_run h events)

theorem finds_found (session : Session) (source : Text) :
    Finds session.files source session.cache (session.found source)
      ((sourceMapFor session.files source).run session.cache).2 :=
  finds_sourceMapFor session.files source session.cache

variable {session : Session} {query : Query} {source path : Text}

theorem ask_eq_of_finds {map : Option SourceMap} {left : MapCache}
    (hsource : query.source? = some source)
    (h : Finds session.files source session.cache map left) :
    session.ask query = (query.answer map, left) := by
  rw [ask, Query.run_ask_of_source?_eq_some _ _ hsource, h.eq_run]

theorem cache_step_ask (hsource : query.source? = some source) :
    (session.step (.ask query)).cache =
      ((sourceMapFor session.files source).run session.cache).2 := by
  rw [step, ask_eq_of_finds hsource (finds_found session source)]

/-- The entry that a query leaves for its source is there whatever happens next. -/
theorem lookup_sources_run (h : session.cache.Distinct) (hsource : query.source? = some source)
    (between : List Event) :
    ((session.step (.ask query)).run between).cache.sources.lookup source =
      some (session.found source) := by
  refine (keeps_run (distinct_step h (.ask query)) between).sources ?_
  rw [cache_step_ask hsource]
  exact (finds_found session source).lookup_sources

theorem lookup_files_run (h : session.cache.Distinct) (hsource : query.source? = some source)
    (hnew : session.cache.sources.lookup source = none)
    (hnamed : SourceMap.mapFile? session.files source = some path) (between : List Event) :
    ((session.step (.ask query)).run between).cache.files.lookup path =
      some (session.found source) := by
  refine (keeps_run (distinct_step h (.ask query)) between).files ?_
  rw [cache_step_ask hsource]
  exact (finds_found session source).lookup_files hnew hnamed

end Session

theorem reads_fetch_of_mapFile? {files : FileSystem} {source path : Text}
    (h : SourceMap.mapFile? files source = some path) : (files.fetch source).reads = 1 := by
  obtain ⟨contents, hfetch, -⟩ := SourceMap.mapFile?_eq_some h
  rw [hfetch]
  rfl

/-- What the first lookup of a source found is what every later query for it answers by, without
looking at any file. What was found for a map file is what every new source that names this file is
answered by, after no more than a read of the source itself. -/
theorem Session.answers_stay (files : FileSystem) (past between : List Event)
    {first again : Query} {source other : Text} (hfirst : first.source? = some source)
    (hagain : again.source? = some other) :
    let early := run { files } past
    let late := (early.step (.ask first)).run between
    (early.ask first).1 = first.answer (early.found source) ∧
    (other = source → late.ask again = (again.answer (early.found source), late.cache)) ∧
    (∀ path, early.cache.sources.lookup source = none → late.cache.sources.lookup other = none →
      SourceMap.mapFile? early.files source = some path →
      SourceMap.mapFile? late.files other = some path →
      late.ask again = (again.answer (early.found source),
        { late.cache with
          sources := (other, early.found source) :: late.cache.sources
          reads := late.cache.reads + 1
          asked := other :: late.cache.asked })) ∧
    ∀ events, early.cache.Keeps (early.run events).cache := by
  intro early late
  have hdistinct : early.cache.Distinct := distinct_run Distinct.empty past
  refine ⟨?_, ?_, ?_, keeps_run hdistinct⟩
  · rw [ask_eq_of_finds hfirst (finds_found early source)]
  · rintro rfl
    have hknown := lookup_sources_run hdistinct hfirst between
    exact ask_eq_of_finds hagain (.known hknown)
  · intro path hnew hlater hnamed hagainNamed
    have htried := lookup_files_run hdistinct hfirst hnew hnamed between
    rw [ask_eq_of_finds hagain (.shared hlater hagainNamed htried), fetched,
      reads_fetch_of_mapFile? hagainNamed]
    rfl

/-- A map file that was missing for one source is missing for another one even after it was put
there, though a lookup that remembers nothing would find it now. -/
theorem Session.missing_map_stays_missing :
    let directive := "//# sourceMappingURL=m".toList
    let memory : FileSystem.Memory :=
      { files := [("a.js".toList, directive), ("b.js".toList, directive)] }
    let contents := "\x7b\"version\":3,\"sources\":[],\"names\":[],\"mappings\":\"\"\x7d".toList
    let late := ((run { files := memory.fileSystem } []).step (.ask (.sourceMap "a.js".toList))).run
      [.insert memory "m".toList contents]
    (SourceMap.ofSource? late.files "b.js".toList).isSome = true ∧
      (late.ask (.sourceMap "b.js".toList)).1 = .sourceMap none := by
  intro directive memory contents late
  have hfirst : (Query.sourceMap "a.js".toList).source? = some "a.js".toList := rfl
  have hagain : (Query.sourceMap "b.js".toList).source? = some "b.js".toList := rfl
  have hstays :=
    answers_stay memory.fileSystem [] [.insert memory "m".toList contents] hfirst hagain
  refine ⟨by decide +kernel, ?_⟩
  rw [hstays.2.2.1 "m".toList rfl (by decide) (by decide) (by decide)]
  rfl

end MappedTrace.MapCache
