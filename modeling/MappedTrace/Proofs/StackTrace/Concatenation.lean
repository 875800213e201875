import MappedTrace.Proofs.StackTrace.Remapping

/-!
# Traces in pieces

The maps that are remembered while a trace is moved never show in what becomes of it. So a trace may
be cut where a line begins, or between two frames, and its pieces moved one by one: down to single
lines and single frames, each of which is moved the same whatever stands around it.
-/

namespace MappedTrace.StackTrace

section

variable (files : FileSystem)

theorem remap_eq_flatMap (text : Text) :
    remap files text =
      (Text.linesWithEnds text).flatMap (remappedLine (SourceMap.relocated files)) := by
  rw [remap, (yields_remapping files text).run_empty, List.flatMap_def]

theorem remap_append {front : Text} (h : front.CompleteLines) (rest : Text) :
    remap files (front ++ rest) = remap files front ++ remap files rest := by
  rw [remap_eq_flatMap, remap_eq_flatMap, remap_eq_flatMap, Text.linesWithEnds_append h,
    List.flatMap_append]

theorem remap_eq_flatMap_remap (text : Text) :
    remap files text = (Text.linesWithEnds text).flatMap (remap files) := by
  induction text using Text.lineInduction with
  | last line h =>
    by_cases hempty : line = []
    · rw [hempty]
      rfl
    · rw [Text.linesWithEnds_of_not_mem h hempty, List.flatMap_singleton]
  | next line rest h ih =>
    have hline : Text.CompleteLines (line ++ ['\n']) := .inr List.getLast?_concat
    rw [Text.linesWithEnds_append_cons h, List.flatMap_cons, ← ih, ← remap_append files hline,
      List.append_assoc, List.singleton_append]

theorem render_append (error : Text) (first second : List CallSite) :
    render error (first ++ second) = render error first ++ render [] second := by
  rw [render, render, render, List.flatMap_append, List.nil_append, List.append_assoc]

theorem prepare_append (error : Text) (first second : List CallSite) :
    prepare files error (first ++ second) =
      prepare files error first ++ prepare files [] second := by
  rw [prepare_eq, prepare_eq, prepare_eq, List.map_append, render_append]

theorem prepare_eq_flatMap_prepare (error : Text) (sites : List CallSite) :
    prepare files error sites = error ++ sites.flatMap fun site => prepare files [] [site] := by
  induction sites generalizing error with
  | nil => rw [prepare_eq, render, List.map_nil, List.flatMap_nil, List.flatMap_nil]
  | cons site rest ih =>
    have hsite : prepare files error [site] = error ++ prepare files [] [site] := by
      rw [prepare_eq, prepare_eq, render, render, List.nil_append]
    rw [← List.singleton_append, prepare_append, hsite, ih [], List.nil_append,
      List.singleton_append, List.flatMap_cons, List.append_assoc]

end

/-- Whole lines, and frames, are moved apart from those that follow them. So every line and every
frame becomes what it becomes alone. -/
theorem pieces_are_moved_alone (files : FileSystem) :
    (∀ front rest : Text, front.CompleteLines →
      remap files (front ++ rest) = remap files front ++ remap files rest) ∧
    (∀ error first second,
      prepare files error (first ++ second) =
        prepare files error first ++ prepare files [] second) ∧
    (∀ text, remap files text = (Text.linesWithEnds text).flatMap (remap files)) ∧
    ∀ error sites,
      prepare files error sites = error ++ sites.flatMap fun site => prepare files [] [site] := by
  refine ⟨?_, prepare_append files, remap_eq_flatMap_remap files, prepare_eq_flatMap_prepare files⟩
  intro front rest h
  exact remap_append files h rest

/-- Two generated files share a map file, which the first piece has read before the second. -/
theorem remap_pieces_that_share_a_map :
    let memory : FileSystem.Memory :=
      { files := [("a.js".toList, "//# sourceMappingURL=m".toList),
          ("b.js".toList, "//# sourceMappingURL=m".toList),
          ("m".toList, "\x7b\"sources\":[\"a.ts\"],\"mappings\":\"IACC\"\x7d".toList)] }
    let front : Text := "Error: late\r\n    at f (a.js:1:5)\r\n".toList
    let rest : Text := "    at b.js:1:5".toList
    front.CompleteLines ∧
      remap memory.fileSystem (front ++ rest) =
        "Error: late\r\n    at f (a.ts:2:1)\r\n    at a.ts:2:1".toList := by
  intro memory front rest
  have hfront : front.CompleteLines := by decide
  refine ⟨hfront, ?_⟩
  rw [(pieces_are_moved_alone memory.fileSystem).1 front rest hfront]
  decide +kernel

end MappedTrace.StackTrace
