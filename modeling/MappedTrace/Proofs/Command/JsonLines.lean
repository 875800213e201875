import MappedTrace.Proofs.Command.Batch
import MappedTrace.Proofs.Position.Json
import MappedTrace.Proofs.Text.Utf8
import Mathlib.Data.List.Forall2

/-!
# Batches as JSON

A batch that is written as JSON has one line for each position, which ends with the one line feed
that is in it. Read on its own, the line is an object with the members of the position that was
moved.
-/

namespace MappedTrace.Command

theorem lineAlone_true (files : FileSystem) (generated : Position) :
    lineAlone files true generated =
      ((MapCache.relocate files generated).run {}).1.renderJson ++ ['\n'] :=
  rfl

/-- The lines of a batch are read back as the positions that were moved, in order. -/
theorem mapPositions_json_reads_back (files : FileSystem) {texts : List Text}
    {positions : List Position} (h : texts.map Position.parse = positions.map .ok)
    (cache : MapCache) :
    ∃ left lines, mapPositions files true texts { cache } = (.ok (), left) ∧
      Utf8.decode left.sink.written = some (lines.flatMap (· ++ ['\n'])) ∧
      List.Forall₂ (fun line position => '\n' ∉ line ∧ ∃ json, Json.parse? line = some json ∧
        json.Describes ((MapCache.relocate files position).run {}).1) lines positions := by
  obtain ⟨left, hrun, -, hwritten⟩ :=
    forM_mapPosition_of_parse true (ready_cleared files cache []) h
  refine ⟨left, positions.map fun position =>
    ((MapCache.relocate files position).run {}).1.renderJson, ?_, ?_, ?_⟩
  · rw [mapPositions_eq, hrun]
  · simp only [lineAlone_true, List.nil_append] at hwritten
    rw [hwritten, List.flatMap_map, ← Utf8.encode_flatMap, Utf8.decode_encode]
  · rw [List.forall₂_map_left_iff, List.forall₂_same]
    intro position _
    exact ⟨Position.lineFeed_not_mem_renderJson _, Position.exists_parse?_renderJson _⟩

/-- The source that a map gives holds a quotation mark, a backslash, a line feed, another control
character and a letter of two bytes, and the source of the second position a line feed of its own. -/
theorem mapPositions_json_hostile_sources :
    let memory : FileSystem.Memory :=
      { files := [("c.js".toList, "//# sourceMappingURL=m".toList),
          ("m".toList,
            "\x7b\"sources\":[\"\\\"\\\\\\n\\u0001é\"],\"mappings\":\"AACE\"\x7d".toList)] }
    let files := memory.fileSystem
    let texts : List Text := ["c.js:1:0".toList, "a\n.js:7:1".toList]
    let positions : List Position := [⟨"c.js".toList, 1, 0⟩, ⟨"a\n.js".toList, 7, 1⟩]
    (texts.map Position.parse = positions.map .ok ∧
      positions.map (fun position => ((MapCache.relocate files position).run {}).1) =
        [⟨"\"\\\n\x01é".toList, 2, 2⟩, ⟨"a\n.js".toList, 7, 1⟩]) ∧
      ∃ left lines, mapPositions files true texts {} = (.ok (), left) ∧
        Utf8.decode left.sink.written = some (lines.flatMap (· ++ ['\n'])) ∧
        List.Forall₂ (fun line position => '\n' ∉ line ∧ ∃ json, Json.parse? line = some json ∧
          json.Describes ((MapCache.relocate files position).run {}).1) lines positions := by
  intro memory files texts positions
  have hparse : texts.map Position.parse = positions.map .ok := by decide +kernel
  exact ⟨⟨hparse, by decide +kernel⟩, mapPositions_json_reads_back files hparse {}⟩

end MappedTrace.Command
