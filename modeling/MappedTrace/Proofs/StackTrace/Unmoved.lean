import MappedTrace.Proofs.StackFrame.Evaluated

/-!
# Traces from which nothing moves

Where no generated file has a source map, every position stays where it is, but traces need not stay
as they are. A frame is written as before exactly if it is steady, and a written trace stays exactly
if the eval origins that are read from its lines have plain numbers.
-/

namespace MappedTrace

theorem SourceMap.relocated_eq_id {files : FileSystem}
    (hmapless : ∀ source map, ¬ HasMap files source map) : relocated files = id := by
  funext generated
  refine relocated_eq_iff.mpr (.inr ⟨rfl, ?_⟩)
  rintro other ⟨map, hmap, -⟩
  exact hmapless _ map hmap

theorem FileSystem.Memory.not_hasMap {memory : Memory}
    (h : ∀ entry ∈ memory.files, Directive.url? entry.2 = none) (source : Text) (map : SourceMap) :
    ¬ SourceMap.HasMap memory.fileSystem source map := by
  have hnone : ∀ contents, memory.fileSystem.read source = .ok contents →
      Directive.url? contents = none := by
    intro contents hread
    simp only [fileSystem] at hread
    split at hread
    · rename_i found hfound
      obtain rfl := Except.ok.inj hread
      obtain ⟨before, behind, hfiles, -⟩ := List.lookup_eq_some_iff.mp hfound
      exact h (Path.clean source, found) (by simp [hfiles])
    · contradiction
  intro hmap
  cases hmap with
  | inline _ hread hurl => simp [hnone _ hread] at hurl
  | file _ hread hurl => simp [hnone _ hread] at hurl

namespace StackFrame

/-- A frame that is not found by a file or script keeps its eval origin when nothing moves. -/
def KeepsOrigin (frame : StackFrame) : Prop :=
  frame.callSite.position? = none →
    ∀ origin, frame.evalOrigin = some origin → EvalOrigin.IsPlain origin

instance (frame : StackFrame) : Decidable frame.KeepsOrigin :=
  inferInstanceAs (Decidable (frame.callSite.position? = none →
    ∀ origin ∈ frame.evalOrigin, EvalOrigin.IsPlain origin))

/-- A frame that was read stays in its place if its position does or, where it has none, its eval
origin. -/
theorem sameLocation_movedBy_iff {frame : StackFrame} (hurl : frame.sourceUrl = none)
    (move : Position → Position) :
    StackTrace.sameLocation frame.callSite (frame.callSite.movedBy move) = true ↔
      (∀ position, frame.callSite.position? = some position → move position = position) ∧
      (frame.callSite.position? = none → ∀ origin, frame.evalOrigin = some origin →
        EvalOrigin.movedBy move origin = origin) := by
  cases hplace : frame.callSite.position? with
  | some position =>
    obtain ⟨hsource, -, hline, hcolumn⟩ := CallSite.position?_eq_some_iff.mp hplace
    have hscript : frame.callSite.script = some position.source := by
      rw [script_eq_iff hsource]
      intro file url _ hsome
      exact absurd (hurl.symm.trans hsome) (by simp)
    have hsame (moved : Position) : StackTrace.sameLocation frame.callSite
        (frame.callSite.moved (.position moved)) = true ↔ moved = position := by
      obtain ⟨source, line, column⟩ := position
      obtain ⟨movedSource, movedLine, movedColumn⟩ := moved
      simp only [StackTrace.sameLocation, CallSite.moved, hscript, hline, ← hcolumn,
        Option.getD_some, Bool.and_eq_true, decide_eq_true_eq, Option.some.injEq, and_true,
        Position.mk.injEq, and_assoc]
      rw [eq_comm, eq_comm (a := line), eq_comm (a := column)]
    rw [CallSite.movedBy_of_position?_eq_some move hplace, hsame]
    simp
  | none =>
    have horigin : frame.callSite.evalOrigin = frame.evalOrigin := rfl
    rw [CallSite.movedBy_of_position?_eq_none move hplace]
    simp only [StackTrace.sameLocation, decide_true, Bool.true_and, decide_eq_true_eq, horigin]
    cases frame.evalOrigin <;> simp [eq_comm]

theorem sameLocation_movedBy_id_iff {frame : StackFrame} (hurl : frame.sourceUrl = none) :
    StackTrace.sameLocation frame.callSite (frame.callSite.movedBy id) = true ↔
      frame.KeepsOrigin := by
  rw [sameLocation_movedBy_iff hurl, KeepsOrigin]
  simp only [EvalOrigin.movedBy_id_eq_iff, id, implies_true, true_and]

theorem parse_cutEnds (line : Text) : parse (Text.cutEnds line).1 = parse line := by
  rw [parse, parse, Text.trim_cutEnds]

theorem exists_eq_parseBody {line : Text} {frame : StackFrame} (h : parse line = .ok frame) :
    ∃ body, Text.trim line = "at ".toList ++ body ∧ frame = parseBody body := by
  unfold parse at h
  dsimp only at h
  split at h
  · contradiction
  · cases hbody : "at ".toList.isPrefixOf? (Text.trim line) with
    | none =>
      rw [hbody] at h
      contradiction
    | some body =>
      rw [hbody] at h
      refine ⟨body, ?_, (Except.ok.inj h).symm⟩
      exact (List.isPrefixOf?_eq_some_iff_append_eq.mp hbody).symm

end StackFrame

namespace StackTrace

/-- A line that has to be written again, though nothing moves, is another one if its eval origin is
not kept. -/
theorem keepsOrigin_of_rewritten_eq {line : Text} {frame : StackFrame}
    (hread : StackFrame.parse line = .ok frame)
    (h : (Text.cutEnds line).1.takeWhile Text.isBlank ++ "at ".toList ++
      (frame.callSite.movedBy id).render ++ (Text.cutEnds line).2 = line) :
    frame.KeepsOrigin := by
  intro hplace origin horigin
  obtain ⟨body, htrim, rfl⟩ := StackFrame.exists_eq_parseBody hread
  obtain ⟨hmark, rest, hevaluated⟩ := StackFrame.exists_readEvaluated horigin
  obtain ⟨behind, hcontent⟩ := Text.exists_eq_trim (Text.cutEnds line).1
  rw [Text.trim_cutEnds, htrim] at hcontent
  have hwritten := List.append_cancel_right (h.trans (Text.cutEnds_append line).symm)
  have hrender : ((StackFrame.parseBody body).callSite.movedBy id).render = body ++ behind := by
    have hsame := hwritten.trans hcontent
    rw [List.append_assoc, List.append_cancel_left_eq, List.append_assoc,
      List.append_cancel_left_eq] at hsame
    exact hsame
  exact (EvalOrigin.movedBy_id_eq_iff origin).mp (hevaluated.movedBy_id_eq hmark hplace hrender)

theorem remappedLine_id_eq_iff (line : Text) :
    remappedLine id line = line ↔
      ∀ frame, StackFrame.parse line = .ok frame → frame.KeepsOrigin := by
  unfold remappedLine
  dsimp only
  rw [StackFrame.parse_cutEnds]
  cases hread : StackFrame.parse line with
  | error fault => simp
  | ok frame =>
    obtain ⟨body, -, hbody⟩ := StackFrame.exists_eq_parseBody hread
    have hurl : frame.sourceUrl = none := by
      rw [hbody]
      exact StackFrame.sourceUrl_parseBody body
    have hstays := StackFrame.sameLocation_movedBy_id_iff hurl
    simp only [Except.ok.injEq, forall_eq']
    split
    · rename_i hsame
      exact iff_of_true rfl (hstays.mp hsame)
    · rename_i hother
      refine iff_of_false ?_ (fun hkeeps => hother (hstays.mpr hkeeps))
      intro hrewritten
      exact hother (hstays.mpr (keepsOrigin_of_rewritten_eq hread hrewritten))

variable {files : FileSystem}

/-- Where no file has a source map, a frame is written as before exactly if it is steady, whatever
was looked up before. So a trace of steady frames is written as if nothing was ever moved. -/
theorem render_relocate_iff_steady (hmapless : ∀ source map, ¬ SourceMap.HasMap files source map) :
    (∀ (frame : StackFrame) (queries : List MapCache.Query),
      ((frame.callSite.relocate files).run (MapCache.after files {} queries)).1.render =
        frame.callSite.render ↔ frame.Steady) ∧
    ∀ (error : Text) (frames : List StackFrame), (∀ frame ∈ frames, frame.Steady) →
      prepare files error (frames.map StackFrame.callSite) =
        render error (frames.map StackFrame.callSite) := by
  have hstill := SourceMap.relocated_eq_id hmapless
  constructor
  · intro frame queries
    have hfaithful := MapCache.faithful_after (@MapCache.Faithful.empty files) queries
    rw [(MapCache.yields_relocate_site frame.callSite _ hfaithful).1, hstill]
    exact frame.render_movedBy_id_iff
  · intro error frames hsteady
    rw [prepare_eq, hstill, render_eq, render_eq]
    congr 2
    simp only [List.map_map]
    apply List.map_congr_left
    intro frame hframe
    exact congrArg ("    at ".toList ++ ·) (frame.render_movedBy_id_iff.mpr (hsteady frame hframe))

theorem prepare_plain_frame :
    let memory : FileSystem.Memory := { files := [("a.js".toList, "go();".toList)] }
    let frame : StackFrame :=
      { fileName := some "a.js".toList, line := some 1, column := some 2 }
    frame.Steady ∧
      prepare memory.fileSystem "Error: late".toList [frame.callSite] =
        render "Error: late".toList [frame.callSite] := by
  intro memory frame
  have hsteady : frame.Steady := by
    refine ⟨?_, ?_⟩
    · rintro - - file url - - ⟨⟩
    · rintro - ⟨⟩
  have hmapless := @FileSystem.Memory.not_hasMap memory (by decide)
  have hkept := (render_relocate_iff_steady hmapless).2 "Error: late".toList [frame]
  exact ⟨hsteady, hkept (by simpa using hsteady)⟩

/-- The file name goes before a source url that was written, though nothing moves. -/
theorem prepare_renamed_frame :
    let memory : FileSystem.Memory := {}
    let frame : StackFrame :=
      { fileName := some "a.js".toList, sourceUrl := some "b.js".toList
        line := some 1, column := some 2 }
    (∀ source map, ¬ SourceMap.HasMap memory.fileSystem source map) ∧
      render "Error: late".toList [frame.callSite] = "Error: late\n    at b.js:1:2".toList ∧
      prepare memory.fileSystem "Error: late".toList [frame.callSite] =
        "Error: late\n    at a.js:1:2".toList := by
  refine ⟨?_, by decide +kernel, by decide +kernel⟩
  exact FileSystem.Memory.not_hasMap (by decide)

/-- Where no file has a source map, a written trace stays as it is exactly if every frame that is
read from a line of it keeps its eval origin. -/
theorem remap_eq_self_iff (hmapless : ∀ source map, ¬ SourceMap.HasMap files source map)
    (text : Text) :
    remap files text = text ↔
      ∀ line ∈ text.splitOn '\n', ∀ frame, StackFrame.parse line = .ok frame →
        frame.KeepsOrigin := by
  rw [remap_eq, SourceMap.relocated_eq_id hmapless, Text.intercalate_map_eq_iff]
  simp only [remappedLine_id_eq_iff]

theorem remap_plain_origin :
    let memory : FileSystem.Memory := { files := [("a.js".toList, "eval(text);".toList)] }
    let text := "Error: late\r\n  at eval (eval at f (a.js:1:2), <anonymous>:1:1)".toList
    remap memory.fileSystem text = text := by
  intro memory text
  have hmapless := @FileSystem.Memory.not_hasMap memory (by decide)
  refine (remap_eq_self_iff hmapless text).mpr ?_
  have hkept : ∀ line ∈ text.splitOn '\n', ∀ frame ∈ (StackFrame.parse line).toOption,
      frame.KeepsOrigin := by decide +kernel
  intro line hline frame hread
  exact hkept line hline frame (by rw [hread]; rfl)

/-- The numbers of an origin lose their leading zeros, though nothing moves. -/
theorem remap_padded_origin :
    let memory : FileSystem.Memory := {}
    (∀ source map, ¬ SourceMap.HasMap memory.fileSystem source map) ∧
      remap memory.fileSystem "    at eval (eval at f (a.js:01:2), <anonymous>:1:1)".toList =
        "    at eval (eval at f (a.js:1:2), <anonymous>:1:1)".toList := by
  refine ⟨?_, by decide +kernel⟩
  exact FileSystem.Memory.not_hasMap (by decide)

end StackTrace

end MappedTrace
