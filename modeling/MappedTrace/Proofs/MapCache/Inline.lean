import MappedTrace.Proofs.Directive.Search
import MappedTrace.Proofs.MapCache.Transparency

/-!
# Maps in urls and maps in files

A map may stand in the generated file that it belongs to, as base64 digits in a url, or in a file of
its own that is named there. Both ways lead to the same map, or to the same failure to decode it,
whatever its text is and whatever lines stand before the directive. So they move positions alike.
-/

namespace MappedTrace

def FileSystem.Holds (files : FileSystem) (path contents : Text) : Prop :=
  files.isFile path = true ∧ files.read path = .ok contents

namespace FileSystem.Memory

variable {memory : Memory} {path other contents : Text}

theorem holds_of_contents? (h : memory.contents? path = some contents) :
    memory.fileSystem.Holds path contents := by
  constructor
  · simp [fileSystem, h]
  · simp [fileSystem, h]

theorem holds_insert : (memory.insert path contents).fileSystem.Holds path contents :=
  holds_of_contents? List.lookup_cons_self

theorem holds_insert_insert {text : Text} (h : Path.clean path ≠ Path.clean other) :
    ((memory.insert other text).insert path contents).fileSystem.Holds other text := by
  refine holds_of_contents? ?_
  rw [contents?, insert, List.lookup_cons, beq_false_of_ne h.symm]
  exact List.lookup_cons_self

end FileSystem.Memory

namespace Directive

def comment (url : Text) : Text :=
  "//# sourceMappingURL=".toList ++ url

theorem isMarker_comment : IsMarker "//# sourceMappingURL=".toList :=
  ⟨'#', [' '], .inr rfl, List.forall_mem_singleton.mpr rfl, rfl⟩

/-- A comment at the end of complete lines leads to where its url is, if the url has no blanks. -/
theorem target?_append_comment {front url : Text} (generated : Text) (hfront : front.CompleteLines)
    (hurl : url.any Text.isBlank = false) (hfilled : url ≠ []) :
    target? generated (front ++ comment url) = some (locate generated url) := by
  have hline : '\n' ∉ url := by
    intro hmem
    exact List.any_eq_false.mp hurl '\n' hmem rfl
  have hfound : url? (front ++ comment url) = Text.filled? (Text.trim url) := by
    have hlast := url?_append isMarker_comment hfront hline (.inl rfl) rfl
    rwa [List.append_nil] at hlast
  have hnonempty : url.isEmpty = false := List.isEmpty_eq_false_iff.mpr hfilled
  simp only [target?, hfound, Text.trim_eq_self hurl, Text.filled?, hnonempty, Bool.false_eq_true,
    if_false, Option.map_some]

end Directive

namespace SourceMap

def dataUrl (contents : Text) : Text :=
  "data:application/json;base64,".toList ++ Base64.encode (Utf8.encode contents)

theorem any_isBlank_dataUrl (contents : Text) : (dataUrl contents).any Text.isBlank = false := by
  have hstart : "data:application/json;base64,".toList.any Text.isBlank = false := by decide
  have hdigits : (Base64.encode (Utf8.encode contents)).any Text.isBlank = false :=
    List.any_eq_false.mpr (Base64.forall_mem_encode (by decide) (by decide) _)
  have happend : (dataUrl contents).any Text.isBlank =
      ("data:application/json;base64,".toList.any Text.isBlank ||
        (Base64.encode (Utf8.encode contents)).any Text.isBlank) := List.any_append
  rw [happend, hstart, hdigits, Bool.or_false]

theorem ofDataUrl_dataUrl (contents : Text) :
    ofDataUrl (dataUrl contents) = ofBytes (Utf8.encode contents) := by
  have hpayload : payload? (dataUrl contents) = some (Base64.encode (Utf8.encode contents)) := rfl
  rw [ofDataUrl, hpayload, Option.bind_some, Base64.decode?_encode]

variable {files : FileSystem} {source path front contents : Text}

theorem load_of_dataUrl (hfront : front.CompleteLines)
    (h : files.Holds source (front ++ Directive.comment (dataUrl contents))) :
    load files source = ((ofBytes (Utf8.encode contents)).mapError .invalidMap).map some := by
  have htarget := Directive.target?_append_comment source hfront (any_isBlank_dataUrl contents)
    (List.cons_ne_nil _ _)
  have hlocated : Directive.locate source (dataUrl contents) = .inline (dataUrl contents) := rfl
  simp only [load, FileSystem.fetch_eq_text_iff.mpr h, htarget, hlocated, ofInline,
    ofDataUrl_dataUrl]

theorem load_of_mapFile {url : Text} (hfront : front.CompleteLines)
    (h : files.Holds source (front ++ Directive.comment url))
    (hurl : url.any Text.isBlank = false) (hfilled : url ≠ [])
    (hlocated : Directive.locate source url = .file path) (hmap : files.Holds path contents) :
    load files source = ((ofBytes (Utf8.encode contents)).mapError .invalidMap).map some := by
  have htarget := Directive.target?_append_comment source hfront hurl hfilled
  simp only [load, FileSystem.fetch_eq_text_iff.mpr h, htarget, hlocated,
    FileSystem.fetch_eq_text_iff.mpr hmap, ofFetched]

theorem relocated_inline_eq_relocated_mapFile {inside outside : FileSystem} {url : Text}
    (hfront : front.CompleteLines)
    (hinside : inside.Holds source (front ++ Directive.comment (dataUrl contents)))
    (houtside : outside.Holds source (front ++ Directive.comment url))
    (hurl : url.any Text.isBlank = false) (hfilled : url ≠ [])
    (hlocated : Directive.locate source url = .file path) (hmap : outside.Holds path contents)
    (line column : UInt32) :
    relocated inside ⟨source, line, column⟩ = relocated outside ⟨source, line, column⟩ := by
  have hload : load inside source = load outside source := by
    rw [load_of_dataUrl hfront hinside,
      load_of_mapFile hfront houtside hurl hfilled hlocated hmap]
  simp only [relocated, ofSource?, hload]

end SourceMap

namespace MapCache

theorem run_relocate_after (files : FileSystem) (queries : List Query) (position : Position) :
    ((relocate files position).run (after files {} queries)).1 =
      SourceMap.relocated files position :=
  (yields_relocate position).run_after queries

/-- A map in a url moves positions as it would from a file of its own, whatever was looked up
before. In memory there may be such a file wherever its path is not that of the generated file. -/
theorem relocate_inline_eq_relocate_mapFile {generated path front : Text} (contents : Text)
    (hfront : front.CompleteLines)
    (hlocated : Directive.locate generated "out.map".toList = .file path) (line column : UInt32) :
    let position : Position := ⟨generated, line, column⟩
    let inlined := front ++ Directive.comment (SourceMap.dataUrl contents)
    let linked := front ++ Directive.comment "out.map".toList
    (∀ inside outside : FileSystem, inside.Holds generated inlined →
      outside.Holds generated linked → outside.Holds path contents →
      ∀ earlier others : List Query,
        ((relocate inside position).run (after inside {} earlier)).1 =
          ((relocate outside position).run (after outside {} others)).1) ∧
    (Path.clean path ≠ Path.clean generated →
      let inside := FileSystem.Memory.insert {} generated inlined
      let outside := (FileSystem.Memory.insert {} generated linked).insert path contents
      ((relocate inside.fileSystem position).run {}).1 =
        ((relocate outside.fileSystem position).run {}).1) := by
  intro position inlined linked
  have hsame : ∀ inside outside : FileSystem, inside.Holds generated inlined →
      outside.Holds generated linked → outside.Holds path contents →
      ∀ earlier others : List Query,
        ((relocate inside position).run (after inside {} earlier)).1 =
          ((relocate outside position).run (after outside {} others)).1 := by
    intro inside outside hinside houtside hmap earlier others
    rw [run_relocate_after, run_relocate_after]
    exact SourceMap.relocated_inline_eq_relocated_mapFile hfront hinside houtside (by decide)
      (by decide) hlocated hmap line column
  refine ⟨hsame, ?_⟩
  intro hpath inside outside
  exact hsame _ _ FileSystem.Memory.holds_insert
    (FileSystem.Memory.holds_insert_insert hpath) FileSystem.Memory.holds_insert [] []

/-- An older directive is there too, and names a file that is not. -/
theorem relocate_inline_behind_directive :
    let front : Text := "a();\n//# sourceMappingURL=old.map\n".toList
    let contents := "\x7b\"sources\":[\"a.ts\"],\"mappings\":\"IACC\"\x7d".toList
    let memory := FileSystem.Memory.insert {} "lib/a.js".toList
      (front ++ Directive.comment (SourceMap.dataUrl contents))
    front.CompleteLines ∧
      Directive.locate "lib/a.js".toList "out.map".toList = .file "lib/out.map".toList ∧
      ((relocate memory.fileSystem ⟨"lib/a.js".toList, 1, 5⟩).run {}).1 = ⟨"a.ts".toList, 2, 1⟩ := by
  intro front contents memory
  have hfront : front.CompleteLines := by decide
  have hlocated : Directive.locate "lib/a.js".toList "out.map".toList =
      .file "lib/out.map".toList := by decide
  have hsame := (relocate_inline_eq_relocate_mapFile contents hfront hlocated 1 5).2 (by decide)
  refine ⟨hfront, hlocated, ?_⟩
  rw [hsame]
  decide +kernel

end MapCache

end MappedTrace
