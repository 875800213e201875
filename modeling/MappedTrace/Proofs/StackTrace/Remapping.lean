import MappedTrace.Proofs.MapCache.Transparency
import MappedTrace.Proofs.StackFrame.ReadBack
import MappedTrace.StackTrace

/-!
# Remapping a written trace

A trace is remapped line by line, each line as if there was no cache. A line that a frame was
written to is read back as a frame that is written alike, so it becomes the line that the moved
frame is written to: moving frames and writing them go together in either order.
-/

namespace MappedTrace.StackTrace

open CallSite (Alike)
open StackFrame (frameLine)

/-- A line of a written trace when positions are moved in a given way. -/
def remappedLine (move : Position → Position) (line : Text) : Text :=
  let (content, ending) := Text.cutEnds line
  match StackFrame.parse content with
  | .error _ => line
  | .ok frame =>
    let site := frame.callSite
    let moved := site.movedBy move
    if sameLocation site moved then line
    else content.takeWhile Text.isBlank ++ "at ".toList ++ moved.render ++ ending

/-! ### Without a cache -/

section

variable (files : FileSystem)

theorem yields_remappingLine (line : Text) :
    MapCache.Yields files (remappingLine files line)
      (remappedLine (SourceMap.relocated files) line) := by
  unfold remappingLine remappedLine
  dsimp only
  cases StackFrame.parse (Text.cutEnds line).1 with
  | error fault => exact MapCache.Yields.pure line
  | ok frame =>
    refine (MapCache.yields_relocate_site frame.callSite).bind ?_
    dsimp only
    split
    · exact MapCache.Yields.pure line
    · exact MapCache.Yields.pure _

theorem yields_remapping (text : Text) :
    MapCache.Yields files (remapping files text)
      ((Text.linesWithEnds text).map (remappedLine (SourceMap.relocated files))).flatten := by
  have hlines := MapCache.Yields.mapM (Text.linesWithEnds text) (yields_remappingLine files)
  exact hlines.bind (MapCache.Yields.pure _)

theorem prepare_eq (error : Text) (sites : List CallSite) :
    prepare files error sites =
      render error (sites.map (CallSite.movedBy (SourceMap.relocated files))) := by
  have hsites := MapCache.Yields.mapM sites (@MapCache.yields_relocate_site files)
  have hprepared : MapCache.Yields files (preparing files error sites) (render error _) :=
    hsites.bind (MapCache.Yields.pure _)
  exact hprepared.run_empty

/-! ### Line by line -/

variable (move : Position → Position)

theorem remappedLine_nil : remappedLine move [] = [] :=
  rfl

theorem remappedLine_append_lineEnd {c : Char} (h : Text.isLineEnd c = true) (line : Text) :
    remappedLine move (line ++ [c]) = remappedLine move line ++ [c] := by
  unfold remappedLine
  rw [Text.cutEnds_append_lineEnd h]
  dsimp only
  cases StackFrame.parse (Text.cutEnds line).1 with
  | error fault => rfl
  | ok frame =>
    dsimp only
    split
    · rfl
    · simp only [List.append_assoc]

theorem remap_eq (text : Text) :
    remap files text = ['\n'].intercalate
      ((text.splitOn '\n').map (remappedLine (SourceMap.relocated files))) := by
  rw [remap, (yields_remapping files text).run_empty, ← List.flatMap_def]
  exact Text.flatMap_linesWithEnds (remappedLine_nil _) (remappedLine_append_lineEnd _ rfl) text

/-! ### The lines of a trace -/

theorem render_cons (error : Text) (site : CallSite) (rest : List CallSite) :
    render error (site :: rest) = render (error ++ '\n' :: frameLine site) rest := by
  have hmark : frameMark ++ site.render = '\n' :: frameLine site := rfl
  rw [render, render, List.flatMap_cons, hmark, List.append_assoc]

theorem render_eq (error : Text) (sites : List CallSite) :
    render error sites = error ++ (sites.map frameLine).flatMap ('\n' :: ·) := by
  induction sites generalizing error with
  | nil => rfl
  | cons site rest ih =>
    rw [render_cons, ih, List.map_cons, List.flatMap_cons, List.append_assoc]

theorem splitOn_render (error : Text) {sites : List CallSite}
    (h : ∀ site ∈ sites, '\n' ∉ frameLine site) :
    (render error sites).splitOn '\n' = error.splitOn '\n' ++ sites.map frameLine := by
  induction sites generalizing error with
  | nil => simp [render]
  | cons site rest ih =>
    obtain ⟨hsite, hrest⟩ := List.forall_mem_cons.mp h
    rw [render_cons, ih _ hrest, List.splitOn_append_cons_self, List.splitOn_eq_singleton hsite,
      List.append_assoc, List.map_cons, List.singleton_append]

theorem remappedLine_of_not_prefix {line : Text} (h : ¬ "at ".toList <+: Text.trim line) :
    remappedLine move line = line := by
  rw [← Text.trim_cutEnds] at h
  obtain ⟨fault, hfault⟩ := StackFrame.exists_parse_eq_error h
  unfold remappedLine
  dsimp only
  rw [hfault]

theorem renderNumbers_congr (line : Option UInt32) {column other : Option UInt32}
    (h : column.getD 0 = other.getD 0) :
    CallSite.renderNumbers line column = CallSite.renderNumbers line other := by
  have hshown : column.filter (fun column => decide (column ≠ 0)) =
      other.filter (fun column => decide (column ≠ 0)) := by
    cases column <;> cases other <;> simp_all [Option.filter]
  cases line with
  | none => rfl
  | some line => rw [CallSite.renderNumbers, CallSite.renderNumbers, hshown]

/-- Call sites that agree in what a location is compared by are written the same, if they agree in
what moving does not change. -/
theorem render_eq_of_sameLocation {site other : CallSite} (h : sameLocation site other = true)
    (hcallee : other.callee? = site.callee?) (hnative : other.isNative = site.isNative)
    (heval : other.isEval = site.isEval) : other.render = site.render := by
  simp only [sameLocation, Bool.and_eq_true, decide_eq_true_eq] at h
  obtain ⟨⟨⟨hscript, hline⟩, hcolumn⟩, horigin⟩ := h
  have hlocation : other.renderLocation = site.renderLocation := by
    rw [CallSite.renderLocation, CallSite.renderLocation, hnative, heval, ← hscript,
      ← hline, ← horigin, renderNumbers_congr site.line hcolumn]
  rw [CallSite.render, CallSite.render, hcallee, hlocation]

/-- The line of a frame becomes the line of the moved frame, whether or not it had to be written
again. -/
theorem remappedLine_frameLine {frame : StackFrame} (h : frame.Readable) :
    remappedLine move (frameLine frame.callSite) = frameLine (frame.callSite.movedBy move) := by
  obtain ⟨read, hread, halike⟩ := h.exists_parse
  have hmoved := (halike.movedBy move).render
  have hends : Text.cutEnds (frameLine frame.callSite) = (frameLine frame.callSite, []) :=
    (h.endsVisibly.append "    at ".toList).cutEnds_eq
  have hindent : (frameLine frame.callSite).takeWhile Text.isBlank = "    ".toList := rfl
  unfold remappedLine
  rw [hends]
  dsimp only
  rw [hread]
  dsimp only
  cases hsame : sameLocation read.callSite (read.callSite.movedBy move) with
  | true =>
    have hstays := render_eq_of_sameLocation hsame (CallSite.callee?_movedBy move)
      (CallSite.isNative_movedBy move) (CallSite.isEval_movedBy move)
    have hrender : frame.callSite.render = (frame.callSite.movedBy move).render := by
      rw [← hmoved, hstays, halike.render]
    unfold StackFrame.frameLine
    rw [hrender]
    rfl
  | false =>
    rw [hindent, hmoved, List.append_nil]
    rfl

end

/-- Remapping a written trace is the same as writing it with the frames moved. -/
theorem remap_render_eq_prepare (files : FileSystem) {error : Text} {frames : List StackFrame}
    (herror : ∀ line ∈ error.splitOn '\n', ¬ "at ".toList <+: Text.trim line)
    (hframes : ∀ frame ∈ frames, frame.Readable) :
    remap files (render error (frames.map StackFrame.callSite)) =
      prepare files error (frames.map StackFrame.callSite) := by
  let move := SourceMap.relocated files
  have hlines : ∀ site ∈ frames.map StackFrame.callSite, '\n' ∉ frameLine site := by
    intro site hsite
    obtain ⟨frame, hframe, rfl⟩ := List.mem_map.mp hsite
    exact (hframes frame hframe).lineFeed_not_mem
  have hkept : (error.splitOn '\n').map (remappedLine move) = error.splitOn '\n' := by
    have hsame : (error.splitOn '\n').map (remappedLine move) = (error.splitOn '\n').map id := by
      apply List.map_congr_left
      intro line hline
      exact remappedLine_of_not_prefix move (herror line hline)
    rw [hsame, List.map_id]
  have hmoved : (frames.map StackFrame.callSite).map (remappedLine move ∘ frameLine) =
      (frames.map StackFrame.callSite).map (frameLine ∘ CallSite.movedBy move) := by
    apply List.map_congr_left
    intro site hsite
    obtain ⟨frame, hframe, rfl⟩ := List.mem_map.mp hsite
    exact remappedLine_frameLine move (hframes frame hframe)
  generalize frames.map StackFrame.callSite = sites at hlines hmoved ⊢
  calc remap files (render error sites)
    _ = ['\n'].intercalate
          ((error.splitOn '\n' ++ sites.map frameLine).map (remappedLine move)) := by
        rw [remap_eq, splitOn_render error hlines]
    _ = ['\n'].intercalate
          (error.splitOn '\n' ++ sites.map (frameLine ∘ CallSite.movedBy move)) := by
        rw [List.map_append, hkept, List.map_map, hmoved]
    _ = error ++ ((sites.map (CallSite.movedBy move)).map frameLine).flatMap ('\n' :: ·) := by
        rw [Text.intercalate_append (List.splitOn_ne_nil _ _), List.intercalate_splitOn,
          List.map_map]
    _ = render error (sites.map (CallSite.movedBy move)) := (render_eq error _).symm
    _ = prepare files error sites := (prepare_eq files error sites).symm

theorem remap_render_aliased_method :
    let frame : StackFrame :=
      { fileName := some "a.js".toList, line := some 1, column := some 5
        functionName := some "go".toList, typeName := some "T".toList
        methodName := some "m".toList, isMethodCall := true }
    let memory : FileSystem.Memory :=
      { files := [("a.js".toList, "//# sourceMappingURL=m".toList),
          ("m".toList, "\x7b\"sources\":[\"a.ts\"],\"mappings\":\"IACA\"\x7d".toList)] }
    frame.callSite.callee? = some "T.go [as m]".toList ∧
      remap memory.fileSystem (render "Error: late".toList [frame.callSite]) =
        prepare memory.fileSystem "Error: late".toList [frame.callSite] := by
  intro frame memory
  have hcallee : frame.callSite.callee? = some "T.go [as m]".toList := by decide
  have hlocated : frame.Located :=
    .named rfl (.inr rfl) (by decide) (by decide) (by decide) (by decide) rfl rfl (by decide)
  have hreadable : frame.Readable := by
    refine ⟨hlocated, ?_, ?_, ?_⟩ <;>
    · rw [hcallee]
      rintro callee ⟨⟩
      decide
  have hframes : ∀ other ∈ [frame], other.Readable := by simpa using hreadable
  have heq :=
    @remap_render_eq_prepare memory.fileSystem "Error: late".toList [frame] (by decide) hframes
  exact ⟨hcallee, heq⟩

end MappedTrace.StackTrace
