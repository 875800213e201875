import MappedTrace.Proofs.MapCache.Stability
import Mathlib.Algebra.BigOperators.Group.Finset.Basic
import Mathlib.Algebra.BigOperators.Group.Finset.Piecewise
import Mathlib.Algebra.GroupWithZero.Nat
import Mathlib.Data.Finset.Option
import Mathlib.Data.Finset.Union

/-!
# How much is read

While the files stay as they are, every source that is looked up is read once, and so is every map
file that one of these sources names, if they can be read at all. How often and in which order the
sources are looked up does not count, nor what the map files hold.
-/

namespace MappedTrace

def FileSystem.isReadable (files : FileSystem) (path : Text) : Bool :=
  files.isFile path && (files.read path).isOk

theorem FileSystem.reads_fetch (files : FileSystem) (path : Text) :
    (files.fetch path).reads = if files.isReadable path then 1 else 0 := by
  unfold isReadable fetch
  cases files.isFile path with
  | false => rfl
  | true => cases files.read path <;> rfl

namespace MapCache

abbrev Entries :=
  List (Text × Option SourceMap)

def keys (entries : Entries) : Finset Text :=
  (entries.map Prod.fst).toFinset

/-- The reads that it takes to make entries. -/
def readsFor (files : FileSystem) (entries : Entries) : Nat :=
  (entries.map fun entry => (files.fetch entry.1).reads).sum

def lookedUp (queries : List Query) : Finset Text :=
  (queries.filterMap Query.source?).toFinset

def mapFiles (files : FileSystem) (sources : Finset Text) : Finset Text :=
  sources.biUnion fun source => (SourceMap.mapFile? files source).toFinset

section

variable {entries : Entries} {key : Text} {map : Option SourceMap}

theorem keys_cons : keys ((key, map) :: entries) = insert key (keys entries) :=
  List.toFinset_cons

private theorem mem_keys_of_lookup (h : entries.lookup key = some map) : key ∈ keys entries := by
  obtain ⟨before, behind, rfl, -⟩ := List.lookup_eq_some_iff.mp h
  simp [keys]

theorem card_keys (h : (entries.map Prod.fst).Nodup) : (keys entries).card = entries.length := by
  rw [keys, List.toFinset_card_of_nodup h, List.length_map]

theorem readsFor_eq_card (files : FileSystem) (h : (entries.map Prod.fst).Nodup) :
    readsFor files entries = ((keys entries).filter (files.isReadable ·)).card := by
  have hsum := List.sum_toFinset (fun path => (files.fetch path).reads) h
  rw [List.map_map] at hsum
  simp only [FileSystem.reads_fetch] at hsum
  rw [Finset.card_filter, keys, hsum, readsFor]
  simp only [FileSystem.reads_fetch, Function.comp_def]

theorem mapFiles_insert (files : FileSystem) (source : Text) (sources : Finset Text) :
    mapFiles files (insert source sources) =
      (SourceMap.mapFile? files source).toFinset ∪ mapFiles files sources :=
  Finset.biUnion_insert

end

/-! ### One lookup -/

section

variable {files : FileSystem} {source : Text} {cache left : MapCache} {map : Option SourceMap}

theorem Finds.keys_sources (h : Finds files source cache map left) :
    keys left.sources = insert source (keys cache.sources) := by
  cases h with
  | known entry => exact (Finset.insert_eq_of_mem (mem_keys_of_lookup entry)).symm
  | alone new lone => exact keys_cons
  | shared new named tried => exact keys_cons
  | fresh new named untried => exact keys_cons

theorem Finds.keys_files (h : Finds files source cache map left)
    (htried : keys cache.files = mapFiles files (keys cache.sources)) :
    keys left.files = mapFiles files (keys left.sources) := by
  have hkeys := h.keys_sources
  cases h with
  | known entry => exact htried
  | alone new lone =>
    rw [hkeys, mapFiles_insert, lone, Option.toFinset_none, Finset.empty_union]
    exact htried
  | shared new named tried =>
    rw [hkeys, mapFiles_insert, named, Option.toFinset_some, Finset.singleton_union, ← htried,
      Finset.insert_eq_of_mem (mem_keys_of_lookup tried)]
    rfl
  | fresh new named untried =>
    rw [hkeys, mapFiles_insert, named, Option.toFinset_some, Finset.singleton_union, ← htried]
    exact keys_cons

/-- A new entry takes the reads that are made for it, and an old one none. -/
theorem Finds.reads_eq (h : Finds files source cache map left)
    (hreads : cache.reads = readsFor files cache.sources + readsFor files cache.files) :
    left.reads = readsFor files left.sources + readsFor files left.files := by
  cases h with
  | known entry => exact hreads
  | alone new lone =>
    simp only [rememberSource, fetched, readsFor, List.map_cons, List.sum_cons] at hreads ⊢
    omega
  | shared new named tried =>
    simp only [rememberSource, fetched, readsFor, List.map_cons, List.sum_cons] at hreads ⊢
    omega
  | fresh new named untried =>
    simp only [rememberSource, rememberFile, fetched, readsFor, List.map_cons, List.sum_cons]
      at hreads ⊢
    omega

end

/-! ### Runs of queries -/

/-- A cache has an entry for each of some sources and for each map file that they name, and has made
just the reads that these entries take. -/
structure Accounts (files : FileSystem) (sources : Finset Text) (cache : MapCache) : Prop where
  distinct : cache.Distinct
  sourceKeys : keys cache.sources = sources
  fileKeys : keys cache.files = mapFiles files (keys cache.sources)
  reads : cache.reads = readsFor files cache.sources + readsFor files cache.files

theorem Accounts.empty (files : FileSystem) : Accounts files ∅ {} :=
  ⟨Distinct.empty, rfl, rfl, rfl⟩

variable {files : FileSystem} {sources : Finset Text} {cache : MapCache}

theorem Accounts.ask (h : Accounts files sources cache) (query : Query) :
    Accounts files (lookedUp [query] ∪ sources) ((query.ask files).run cache).2 := by
  cases hsource : query.source? with
  | none =>
    rw [Query.run_ask_of_source?_eq_none files cache hsource]
    simpa [lookedUp, hsource] using h
  | some source =>
    rw [Query.run_ask_of_source?_eq_some files cache hsource]
    have hfinds := finds_sourceMapFor files source cache
    refine ⟨hfinds.distinct h.distinct, ?_, hfinds.keys_files h.fileKeys, hfinds.reads_eq h.reads⟩
    rw [hfinds.keys_sources, h.sourceKeys]
    simp [lookedUp, hsource]

theorem lookedUp_cons (query : Query) (rest : List Query) :
    lookedUp (query :: rest) = lookedUp [query] ∪ lookedUp rest := by
  rw [lookedUp, lookedUp, lookedUp, ← List.toFinset_append, ← List.filterMap_append,
    List.singleton_append]

theorem Accounts.after (h : Accounts files sources cache) (queries : List Query) :
    Accounts files (lookedUp queries ∪ sources) (MapCache.after files cache queries) := by
  induction queries generalizing sources cache with
  | nil => exact (Finset.empty_union sources).symm ▸ h
  | cons query rest ih =>
    have hrest := ih (h.ask query)
    rwa [← Finset.union_assoc, Finset.union_comm (lookedUp rest), ← lookedUp_cons] at hrest

/-- After any queries, a cache holds one source for each that was looked up, and has read each of
these and each map file that they name once, if it can be read. -/
theorem size_reads_after (files : FileSystem) (queries : List Query) :
    let cache := after files {} queries
    let sources := lookedUp queries
    cache.size = sources.card ∧
      cache.reads = (sources.filter (files.isReadable ·)).card +
        ((mapFiles files sources).filter (files.isReadable ·)).card := by
  intro cache sources
  have haccounts : Accounts files (sources ∪ ∅) cache := (Accounts.empty files).after queries
  rw [Finset.union_empty] at haccounts
  obtain ⟨hdistinct, hsources, hfiles, hreads⟩ := haccounts
  constructor
  · rw [← hsources, card_keys hdistinct.sources]
    rfl
  · rw [hreads, readsFor_eq_card files hdistinct.sources, readsFor_eq_card files hdistinct.files,
      hfiles, hsources]

end MapCache

end MappedTrace
