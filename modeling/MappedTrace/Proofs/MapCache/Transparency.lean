import MappedTrace.Proofs.MapCache.Query

/-!
# A cache never changes an answer

While the files stay as they are, every entry of a cache is what a fresh load would give. One lookup
keeps it so, whichever way it goes, and so does every run of queries. Hence a position is moved as
if there was no cache: by the map that its source has, if that map answers for it.
-/

namespace MappedTrace

namespace SourceMap

/-- What it takes for a generated file to have a source map: the file is there and can be read, its
text names a url, and the url holds the map or leads to a file that is there, can be read and holds
it. -/
inductive HasMap (files : FileSystem) (source : Text) : SourceMap → Prop
  | inline {contents url : Text} {map : SourceMap} (present : files.isFile source = true)
      (readable : files.read source = .ok contents) (directive : Directive.url? contents = some url)
      (located : Directive.locate source url = .inline url) (decoded : ofDataUrl url = .ok map) :
    HasMap files source map
  | file {contents url path data : Text} {map : SourceMap} (present : files.isFile source = true)
      (readable : files.read source = .ok contents) (directive : Directive.url? contents = some url)
      (located : Directive.locate source url = .file path)
      (mapPresent : files.isFile path = true) (mapReadable : files.read path = .ok data)
      (decoded : ofBytes (Utf8.encode data) = .ok map) :
    HasMap files source map

/-- A position of generated code comes from another when its source has a map that says so. -/
def ComesFrom (files : FileSystem) (generated origin : Position) : Prop :=
  ∃ map, HasMap files generated.source map ∧ origin? map generated = some origin

private theorem toOption_eq_some_iff {ε α : Type} {result : Except ε α} {value : α} :
    result.toOption = some value ↔ result = .ok value := by
  cases result <;> simp [Except.toOption]

private theorem ofSource?_of_directive {files : FileSystem} {source url contents : Text}
    (hfetch : files.fetch source = .text contents) (hurl : Directive.url? contents = some url) :
    ofSource? files source =
      match Directive.locate source url with
      | .inline url => (ofDataUrl url).toOption
      | .file path => (ofFetched path (files.fetch path)).toOption := by
  have htarget : Directive.target? source contents = some (Directive.locate source url) := by
    rw [Directive.target?, hurl, Option.map_some]
  simp only [ofSource?, load, hfetch, htarget]
  cases Directive.locate source url with
  | inline url =>
    simp only [ofInline]
    cases ofDataUrl url <;> rfl
  | file path =>
    dsimp only
    cases ofFetched path (files.fetch path) <;> rfl

theorem ofSource?_eq_some_iff {files : FileSystem} {source : Text} {map : SourceMap} :
    ofSource? files source = some map ↔ HasMap files source map := by
  constructor
  · intro h
    cases hfetch : files.fetch source with
    | absent => simp [ofSource?, load, hfetch, Except.toOption] at h
    | unreadable fault => simp [ofSource?, load, hfetch, Except.toOption] at h
    | text contents =>
      obtain ⟨hpresent, hreadable⟩ := FileSystem.fetch_eq_text_iff.mp hfetch
      cases hurl : Directive.url? contents with
      | none => simp [ofSource?, load, hfetch, Directive.target?, hurl, Except.toOption] at h
      | some url =>
        rw [ofSource?_of_directive hfetch hurl] at h
        cases hlocated : Directive.locate source url with
        | inline data =>
          obtain rfl := Directive.eq_of_locate_eq_inline hlocated
          rw [hlocated] at h
          exact .inline hpresent hreadable hurl hlocated (toOption_eq_some_iff.mp h)
        | file path =>
          rw [hlocated] at h
          cases hmap : files.fetch path with
          | absent => simp [hmap, ofFetched, Except.toOption] at h
          | unreadable fault => simp [hmap, ofFetched, Except.toOption] at h
          | text data =>
            obtain ⟨hmapPresent, hmapReadable⟩ := FileSystem.fetch_eq_text_iff.mp hmap
            have hdecoded : ofBytes (Utf8.encode data) = .ok map := by
              simp only [hmap, ofFetched] at h
              cases hbytes : ofBytes (Utf8.encode data) with
              | error cause => simp [hbytes, Except.mapError, Except.toOption] at h
              | ok found => simpa [hbytes, Except.mapError, Except.toOption] using h
            exact .file hpresent hreadable hurl hlocated hmapPresent hmapReadable hdecoded
  · intro h
    cases h with
    | inline hpresent hreadable hurl hlocated hdecoded =>
      have hfetch := FileSystem.fetch_eq_text_iff.mpr ⟨hpresent, hreadable⟩
      rw [ofSource?_of_directive hfetch hurl, hlocated]
      simp only [hdecoded]
      rfl
    | file hpresent hreadable hurl hlocated hmapPresent hmapReadable hdecoded =>
      have hfetch := FileSystem.fetch_eq_text_iff.mpr ⟨hpresent, hreadable⟩
      have hmap := FileSystem.fetch_eq_text_iff.mpr ⟨hmapPresent, hmapReadable⟩
      rw [ofSource?_of_directive hfetch hurl, hlocated]
      simp only [hmap, ofFetched, hdecoded]
      rfl

/-- A position is moved to where it comes from, and stays if it comes from nowhere. -/
theorem relocated_eq_iff {files : FileSystem} {generated origin : Position} :
    relocated files generated = origin ↔
      ComesFrom files generated origin ∨
        (origin = generated ∧ ∀ other, ¬ ComesFrom files generated other) := by
  have hcomes : ∀ other, ComesFrom files generated other ↔
      (ofSource? files generated.source).bind (origin? · generated) = some other := by
    intro other
    simp only [ComesFrom, Option.bind_eq_some_iff, ofSource?_eq_some_iff]
  simp only [hcomes, relocated]
  cases (ofSource? files generated.source).bind (origin? · generated) with
  | none => simp [eq_comm]
  | some found => simp

end SourceMap

namespace MapCache

variable {files : FileSystem}

/-- Every entry is what a fresh load would give. -/
structure Faithful (files : FileSystem) (cache : MapCache) : Prop where
  sources : ∀ entry ∈ cache.sources, entry.2 = SourceMap.ofSource? files entry.1
  files : ∀ entry ∈ cache.files,
    entry.2 = (SourceMap.ofFetched entry.1 (files.fetch entry.1)).toOption

theorem Faithful.empty : Faithful files {} :=
  ⟨by simp, by simp⟩

theorem Faithful.cleared (cache : MapCache) : Faithful files cache.cleared :=
  ⟨by simp [MapCache.cleared], by simp [MapCache.cleared]⟩

private theorem mem_of_lookup {entries : List (Text × Option SourceMap)} {key : Text}
    {map : Option SourceMap} (h : entries.lookup key = some map) : (key, map) ∈ entries := by
  obtain ⟨before, behind, rfl, -⟩ := List.lookup_eq_some_iff.mp h
  simp

theorem Finds.faithful {source : Text} {cache left : MapCache} {map : Option SourceMap}
    (hfinds : Finds files source cache map left) (h : Faithful files cache) :
    map = SourceMap.ofSource? files source ∧ Faithful files left := by
  cases hfinds with
  | known entry => exact ⟨h.sources _ (mem_of_lookup entry), h⟩
  | alone new lone => exact ⟨rfl, List.forall_mem_cons.mpr ⟨rfl, h.sources⟩, h.files⟩
  | shared new named tried =>
    have hmap : map = SourceMap.ofSource? files source := by
      rw [SourceMap.ofSource?_of_mapFile? named]
      exact h.files _ (mem_of_lookup tried)
    exact ⟨hmap, List.forall_mem_cons.mpr ⟨hmap, h.sources⟩, h.files⟩
  | fresh new named untried =>
    have hmap := SourceMap.ofSource?_of_mapFile? named
    exact ⟨rfl, List.forall_mem_cons.mpr ⟨rfl, h.sources⟩, List.forall_mem_cons.mpr ⟨hmap, h.files⟩⟩

/-- From every faithful cache the lookups come to one answer, and they leave a faithful cache. -/
def Yields (files : FileSystem) {α : Type} (lookups : Lookups α) (answer : α) : Prop :=
  ∀ cache, Faithful files cache →
    (lookups.run cache).1 = answer ∧ Faithful files (lookups.run cache).2

theorem Yields.run_empty {α : Type} {lookups : Lookups α} {answer : α}
    (h : Yields files lookups answer) : (lookups.run {}).1 = answer :=
  (h {} Faithful.empty).1

theorem Yields.fresh {α : Type} {lookups : Lookups α} {answer : α}
    (h : Yields files lookups answer) : Yields files lookups (lookups.run {}).1 := by
  rwa [h.run_empty]

theorem Yields.pure {α : Type} (answer : α) : Yields files (pure answer) answer :=
  fun _ h => ⟨rfl, h⟩

theorem Yields.bind {α β : Type} {lookups : Lookups α} {next : α → Lookups β} {first : α}
    {second : β} (hfirst : Yields files lookups first) (hnext : Yields files (next first) second) :
    Yields files (lookups >>= next) second := by
  intro cache h
  obtain ⟨hanswer, hleft⟩ := hfirst cache h
  have hrun : (lookups >>= next).run cache =
      (next (lookups.run cache).1).run (lookups.run cache).2 := rfl
  rw [hrun, hanswer]
  exact hnext _ hleft

theorem Yields.map {α β : Type} {lookups : Lookups α} {answer : α} (f : α → β)
    (h : Yields files lookups answer) : Yields files (f <$> lookups) (f answer) := by
  rw [map_eq_pure_bind]
  exact h.bind (Yields.pure _)

theorem Yields.mapM {α β : Type} {f : α → Lookups β} {g : α → β} (items : List α)
    (h : ∀ item, Yields files (f item) (g item)) : Yields files (items.mapM f) (items.map g) := by
  induction items with
  | nil => exact Yields.pure _
  | cons item rest ih =>
    rw [List.mapM_cons]
    exact (h item).bind (ih.bind (Yields.pure _))

theorem yields_fetch (path : Text) : Yields files (fetch files path) (files.fetch path) :=
  fun _ h => ⟨rfl, h.sources, h.files⟩

theorem yields_sourceMapFor (source : Text) :
    Yields files (sourceMapFor files source) (SourceMap.ofSource? files source) :=
  fun cache h => (finds_sourceMapFor files source cache).faithful h

theorem yields_relocate (position : Position) :
    Yields files (relocate files position) (SourceMap.relocated files position) := by
  rw [relocate_eq]
  exact (yields_sourceMapFor position.source).map _

theorem yields_relocate_origin (origin : Text) :
    Yields files (EvalOrigin.relocate files origin)
      (EvalOrigin.movedBy (SourceMap.relocated files) origin) := by
  rw [EvalOrigin.relocate_eq, EvalOrigin.movedBy]
  cases EvalOrigin.core? origin with
  | none => exact Yields.pure origin
  | some core => exact (yields_relocate core.2).map _

theorem yields_relocate_site (site : CallSite) :
    Yields files (site.relocate files) (site.movedBy (SourceMap.relocated files)) := by
  rw [CallSite.relocate_eq, CallSite.movedBy]
  cases site.position? with
  | some position => exact (yields_relocate position).map _
  | none =>
    cases site.evalOrigin with
    | some origin => exact (yields_relocate_origin origin).map _
    | none => exact Yields.pure site

theorem faithful_ask {cache : MapCache} (h : Faithful files cache) (query : Query) :
    Faithful files ((query.ask files).run cache).2 := by
  cases hsource : query.source? with
  | none => rwa [Query.run_ask_of_source?_eq_none files cache hsource]
  | some source =>
    rw [Query.run_ask_of_source?_eq_some files cache hsource]
    exact (yields_sourceMapFor source cache h).2

theorem faithful_after {cache : MapCache} (h : Faithful files cache) (queries : List Query) :
    Faithful files (after files cache queries) := by
  induction queries generalizing cache with
  | nil => exact h
  | cons query rest ih => exact ih (faithful_ask h query)

/-- Whatever was asked before, the answer is the same. -/
theorem Yields.run_after {α : Type} {lookups : Lookups α} {answer : α}
    (h : Yields files lookups answer) (queries : List Query) :
    (lookups.run (after files {} queries)).1 = answer :=
  (h _ (faithful_after Faithful.empty queries)).1

/-- Whatever was asked before, a position is moved to where it comes from, and stays if it comes
from nowhere. -/
theorem relocate_after_eq_iff (files : FileSystem) (queries : List Query)
    (generated origin : Position) :
    ((relocate files generated).run (after files {} queries)).1 = origin ↔
      SourceMap.ComesFrom files generated origin ∨
        (origin = generated ∧ ∀ other, ¬ SourceMap.ComesFrom files generated other) := by
  have hfaithful : Faithful files (after files {} queries) := faithful_after Faithful.empty queries
  rw [(yields_relocate generated _ hfaithful).1]
  exact SourceMap.relocated_eq_iff

end MapCache

end MappedTrace
