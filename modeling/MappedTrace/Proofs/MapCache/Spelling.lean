import MappedTrace.Proofs.MapCache.Reads
import MappedTrace.Proofs.MapCache.Transparency
import MappedTrace.Proofs.Path.Clean

/-!
# Sources that are spelled differently

A cache knows a source by the text that it was asked for, so another spelling of the same path is
new to it. But it comes to the same file, and the directive in it leads to the same place, so that
the same map is found. All that it costs is that the generated file is looked at once more: the map
file is known by its clean path.
-/

namespace MappedTrace

/-- Two sources hold the same and stand where every url leads to the same place. -/
structure FileSystem.SameSource (files : FileSystem) (source other : Text) : Prop where
  fetch : files.fetch source = files.fetch other
  locate : ∀ url, Directive.locate source url = Directive.locate other url

namespace FileSystem.Memory

variable {memory : Memory} {path other : Text}

theorem sameSource (h : Path.clean path = Path.clean other)
    (hpath : Path.EndsInName path) (hother : Path.EndsInName other) :
    memory.fileSystem.SameSource path other where
  fetch := by rw [fetch_eq, fetch_eq, contents?, contents?, h]
  locate := Directive.locate_eq h hpath hother

end FileSystem.Memory

section

variable {files : FileSystem} {source other : Text}

theorem FileSystem.SameSource.target? (h : files.SameSource source other) (contents : Text) :
    Directive.target? source contents = Directive.target? other contents := by
  have hlocate : Directive.locate source = Directive.locate other := funext h.locate
  rw [Directive.target?, Directive.target?, hlocate]

theorem FileSystem.SameSource.mapFile? (h : files.SameSource source other) :
    SourceMap.mapFile? files source = SourceMap.mapFile? files other := by
  unfold SourceMap.mapFile?
  rw [h.fetch]
  simp only [h.target?]

theorem FileSystem.SameSource.ofSource? (h : files.SameSource source other) :
    SourceMap.ofSource? files source = SourceMap.ofSource? files other := by
  unfold SourceMap.ofSource? SourceMap.load
  rw [h.fetch]
  cases files.fetch other with
  | absent => rfl
  | unreadable fault => rfl
  | text contents =>
    dsimp only
    rw [h.target?]

end

namespace MapCache

variable {files : FileSystem} {source other path : Text} {cache left : MapCache}
  {map : Option SourceMap}

theorem reads_fetch_le (files : FileSystem) (path : Text) : (files.fetch path).reads ≤ 1 := by
  rw [FileSystem.reads_fetch]
  split
  · exact le_rfl
  · exact Nat.zero_le 1

/-- Where the map file was tried before, no other file than the source itself is looked at. -/
theorem Finds.asked_of_tried (h : Finds files source cache map left)
    (htried : ∀ path, SourceMap.mapFile? files source = some path → path ∈ keys cache.files) :
    left.reads ≤ cache.reads + 1 ∧
      (left.asked = cache.asked ∨ left.asked = source :: cache.asked) := by
  have hread := reads_fetch_le files source
  cases h with
  | known entry => exact ⟨Nat.le_succ _, .inl rfl⟩
  | alone new lone => exact ⟨Nat.add_le_add_left hread _, .inr rfl⟩
  | shared new named tried => exact ⟨Nat.add_le_add_left hread _, .inr rfl⟩
  | fresh new named untried =>
    obtain ⟨entry, hentry, hkey⟩ := List.mem_map.mp (List.mem_toFinset.mp (htried _ named))
    have hother := List.lookup_eq_none_iff.mp untried entry hentry
    simp [hkey] at hother

theorem mem_keys_files_after {queries : List Query} (h : source ∈ lookedUp queries)
    (hnamed : SourceMap.mapFile? files source = some path) :
    path ∈ keys (after files {} queries).files := by
  have haccounts := (Accounts.empty files).after queries
  rw [haccounts.fileKeys, haccounts.sourceKeys, Finset.union_empty]
  refine Finset.mem_biUnion.mpr ⟨source, h, ?_⟩
  rw [hnamed, Option.toFinset_some]
  exact Finset.mem_singleton_self path

/-- Two spellings of one path, both with a name at the end, come to the same place with every url,
and to the same map whatever was looked up before. Once one of them was looked up, the other takes
at most one read more, and no look at any other file. -/
theorem spellings_share_map (contents : List (Text × Text)) {source other : Text}
    (hclean : Path.clean source = Path.clean other) (hsource : Path.EndsInName source)
    (hother : Path.EndsInName other) :
    let files := FileSystem.Memory.fileSystem { files := contents }
    (∀ url, Directive.locate source url = Directive.locate other url ∧
      ∀ path, Directive.locate source url = .file path → Path.clean path = path) ∧
    (∀ queries others : List Query,
      let found := ((sourceMapFor files source).run (after files {} queries)).1
      let again := ((sourceMapFor files other).run (after files {} others)).1
      found = again ∧ ∀ line column,
        (found.bind fun map => SourceMap.origin? map ⟨source, line, column⟩) =
          again.bind fun map => SourceMap.origin? map ⟨other, line, column⟩) ∧
    ∀ queries : List Query, source ∈ lookedUp queries →
      let cache := after files {} queries
      let left := ((sourceMapFor files other).run cache).2
      left.reads ≤ cache.reads + 1 ∧
        (left.asked = cache.asked ∨ left.asked = other :: cache.asked) := by
  intro files
  have hsame : files.SameSource source other :=
    FileSystem.Memory.sameSource hclean hsource hother
  refine ⟨fun url => ⟨hsame.locate url, fun path => Directive.clean_of_locate_eq_file⟩,
    fun queries others => ?_, fun queries hlooked => ?_⟩
  · intro found again
    have hfound : found = SourceMap.ofSource? files source :=
      (yields_sourceMapFor source).run_after queries
    have hagain : again = SourceMap.ofSource? files other :=
      (yields_sourceMapFor other).run_after others
    have hmaps : found = again := by rw [hfound, hagain, hsame.ofSource?]
    refine ⟨hmaps, fun line column => ?_⟩
    rw [hmaps]
    rfl
  · intro cache left
    refine (finds_sourceMapFor files other cache).asked_of_tried ?_
    intro path hnamed
    exact mem_keys_files_after hlooked (hsame.mapFile?.trans hnamed)

/-- A map file that was found from one spelling is not looked for from another one. -/
theorem spellings_share_map_below_directory :
    let contents : List (Text × Text) :=
      [("lib/a.js".toList, "//# sourceMappingURL=../maps/a.map".toList),
        ("maps/a.map".toList, "\x7b\"sources\":[\"a.ts\"],\"mappings\":\"AACC\"\x7d".toList)]
    let files := FileSystem.Memory.fileSystem { files := contents }
    let source := "lib/a.js".toList
    let other := "./src/..//lib/./a.js/".toList
    let cache := after files {} [.sourceMap source]
    let left := ((sourceMapFor files other).run cache).2
    (Path.clean source = Path.clean other ∧ Path.EndsInName source ∧ Path.EndsInName other ∧
      source ∈ lookedUp [.sourceMap source]) ∧
      cache.asked = ["maps/a.map".toList, source] ∧ left.reads ≤ cache.reads + 1 ∧
      (left.asked = cache.asked ∨ left.asked = other :: cache.asked) := by
  intro contents files source other cache left
  have hclean : Path.clean source = Path.clean other := by decide
  have hsource : Path.EndsInName source := ⟨"a.js".toList, by decide⟩
  have hother : Path.EndsInName other := ⟨"a.js".toList, by decide⟩
  have hlooked : source ∈ lookedUp [.sourceMap source] := by decide
  refine ⟨⟨hclean, hsource, hother, hlooked⟩, by decide +kernel, ?_⟩
  exact (spellings_share_map contents hclean hsource hother).2.2 _ hlooked

end MapCache

end MappedTrace
