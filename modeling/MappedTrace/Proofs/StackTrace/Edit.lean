import MappedTrace.Proofs.StackTrace.Concatenation
import MappedTrace.Proofs.StackTrace.Unmoved

/-!
# What changes in a line

A line of a trace stays as it is unless it holds a frame that moves. Then the location of the frame
is written anew, and the blanks in front, what is said of the call and the ends of the line are kept.
Blanks between the frame and the ends of the line are dropped.
-/

namespace MappedTrace

/-- A line without its ends, and these: all carriage returns and line feeds behind it. -/
structure Text.EndedBy (content ending : Text) : Prop where
  oneLine : '\n' ∉ content
  whole : content.getLast? ≠ some '\r'
  ends : ∀ c ∈ ending, c = '\r' ∨ c = '\n'

theorem Text.EndedBy.cutEnds_eq {content ending : Text} (h : content.EndedBy ending) :
    content.cutEnds = (content, []) := by
  apply Text.cutEnds_eq_self
  intro c hlast
  have hfeed : c ≠ '\n' := ne_of_mem_of_not_mem (List.mem_of_getLast? hlast) h.oneLine
  have hreturn : c ≠ '\r' := by
    rintro rfl
    exact h.whole hlast
  simp [Text.isLineEnd, hfeed, hreturn]

namespace StackFrame

/-! ### Frames that are read -/

/-- What is known of every frame that is read from a line. -/
structure AsRead (frame : StackFrame) : Prop where
  noUrl : frame.sourceUrl = none
  filled : frame.fileName ≠ some []
  native : frame.isNative = true → frame.fileName = none ∧ frame.evalOrigin = none

theorem fileName_parseCallee (callee : Text) : (parseCallee callee).fileName = none := by
  rw [parseCallee]
  split <;> rfl

theorem callee?_parseLocation (base : StackFrame) (text : Text) :
    (parseLocation base text).callSite.callee? = base.callSite.callee? := by
  rw [parseLocation]
  split <;> rfl

theorem asRead_parseLocation {base : StackFrame} (hurl : base.sourceUrl = none)
    (hfile : base.fileName = none) (horigin : base.evalOrigin = none)
    (hforeign : base.isNative = false) (text : Text) : AsRead (parseLocation base text) := by
  by_cases hnative : text = "native".toList
  · rw [hnative, parseLocation_native]
    refine ⟨hurl, ?_, fun _ => ⟨hfile, horigin⟩⟩
    show base.fileName ≠ some []
    simp [hfile]
  · rw [parseLocation, if_neg hnative]
    refine ⟨hurl, ?_, fun h => absurd (hforeign.symm.trans h) Bool.false_ne_true⟩
    dsimp only
    split
    · exact Option.some_ne_none _ |>.symm
    · rename_i hreal
      intro hempty
      rw [Option.some.inj hempty] at hreal
      simp at hreal

theorem asRead_parseBody (body : Text) : AsRead (parseBody body) := by
  unfold parseBody
  split
  · rename_i callee location _
    obtain ⟨hurl, hforeign⟩ := parseCallee_bare callee
    exact asRead_parseLocation hurl (fileName_parseCallee callee) (evalOrigin_parseCallee callee)
      hforeign location
  · exact asRead_parseLocation rfl rfl rfl rfl body

variable {files : FileSystem} {frame : StackFrame} {location : Text}

theorem AsRead.position?_eq_some_iff (h : AsRead frame) {position : Position} :
    frame.callSite.position? = some position ↔
      ∃ source line, frame.fileName = some source ∧ frame.line = some line ∧
        position = ⟨source, line, frame.column.getD 0⟩ := by
  have hscript : frame.callSite.fileName.or frame.callSite.script = frame.fileName := by
    show frame.fileName.or (frame.sourceUrl.or frame.fileName) = frame.fileName
    rw [h.noUrl, Option.none_or, Option.or_self]
  have hfilled : frame.fileName.bind Text.filled? = frame.fileName := by
    cases hfile : frame.fileName with
    | none => rfl
    | some source =>
      have hsource : source ≠ [] := by
        rintro rfl
        exact h.filled hfile
      exact Text.filled?_eq_some_iff.mpr ⟨rfl, hsource⟩
  rw [CallSite.position?, hscript, hfilled]
  simp only [callSite, Option.bind_eq_bind, Option.bind_eq_some_iff, Option.pure_def,
    Option.some.injEq, eq_comm (b := position), exists_and_left]

/-! ### Where a frame moves -/

/-- The place that a frame moves to, as it is written: the position that is found for its file, line
and column or, where it has no file, its eval origin with the position in it moved. -/
inductive MovesTo (files : FileSystem) (frame : StackFrame) : Text → Prop
  | position {source : Text} {line : UInt32} {moved : Position}
      (named : frame.fileName = some source) (atLine : frame.line = some line)
      (found : ((MapCache.relocate files ⟨source, line, frame.column.getD 0⟩).run {}).1 = moved)
      (elsewhere : moved ≠ ⟨source, line, frame.column.getD 0⟩) :
    MovesTo files frame
      (moved.source ++ CallSite.renderNumbers (some moved.line) (some moved.column))
  | evalOrigin {origin moved : Text} (unnamed : frame.fileName = none)
      (evaluated : frame.evalOrigin = some origin)
      (found : ((EvalOrigin.relocate files origin).run {}).1 = moved) (elsewhere : moved ≠ origin) :
    MovesTo files frame
      (moved ++ (", <anonymous>".toList ++ CallSite.renderNumbers frame.line frame.column))

theorem AsRead.isNative_eq_false (h : AsRead frame)
    (hplaced : frame.fileName ≠ none ∨ frame.evalOrigin ≠ none) : frame.isNative = false := by
  rw [← Bool.not_eq_true]
  intro hnative
  obtain ⟨hfile, horigin⟩ := h.native hnative
  rcases hplaced with hnamed | hevaluated
  · exact hnamed hfile
  · exact hevaluated horigin

theorem AsRead.position?_eq_none (h : AsRead frame) (hunnamed : frame.fileName = none) :
    frame.callSite.position? = none := by
  rw [Option.eq_none_iff_forall_ne_some]
  intro position hplace
  obtain ⟨source, line, hnamed, -⟩ := h.position?_eq_some_iff.mp hplace
  rw [hunnamed] at hnamed
  contradiction

theorem MovesTo.sameLocation (h : MovesTo files frame location) (hread : AsRead frame) :
    StackTrace.sameLocation frame.callSite
      (frame.callSite.movedBy (SourceMap.relocated files)) = false := by
  rw [← Bool.not_eq_true, sameLocation_movedBy_iff hread.noUrl]
  rintro ⟨hposition, horigin⟩
  cases h with
  | position named atLine found elsewhere =>
    rw [(MapCache.yields_relocate _).run_empty] at found
    exact elsewhere
      (found ▸ hposition _ (hread.position?_eq_some_iff.mpr ⟨_, _, named, atLine, rfl⟩))
  | evalOrigin unnamed evaluated found elsewhere =>
    rw [(MapCache.yields_relocate_origin _).run_empty] at found
    exact elsewhere (found ▸ horigin (hread.position?_eq_none unnamed) _ evaluated)

theorem MovesTo.renderLocation (h : MovesTo files frame location) (hread : AsRead frame) :
    (frame.callSite.movedBy (SourceMap.relocated files)).renderLocation = location := by
  cases h with
  | position named atLine found elsewhere =>
    have hforeign := hread.isNative_eq_false (.inl (by simp [named]))
    have hplace := hread.position?_eq_some_iff.mpr ⟨_, _, named, atLine, rfl⟩
    rw [CallSite.renderLocation_movedBy _ hforeign hplace, ← found,
      (MapCache.yields_relocate _).run_empty]
  | @evalOrigin origin moved unnamed evaluated found elsewhere =>
    have hforeign := hread.isNative_eq_false (.inr (by simp [evaluated]))
    have hplace := hread.position?_eq_none unnamed
    have hscript : frame.callSite.script = none := by
      show frame.sourceUrl.or frame.fileName = none
      rw [hread.noUrl, unnamed, Option.none_or]
    have heval : frame.callSite.isEval = true := congrArg Option.isSome evaluated
    have horigin : (frame.callSite.movedBy (SourceMap.relocated files)).evalOrigin = some moved := by
      rw [CallSite.evalOrigin_movedBy _ hplace, ← found,
        (MapCache.yields_relocate_origin _).run_empty]
      exact congrArg (Option.map _) evaluated
    have hmark : ", <anonymous>".toList = ", ".toList ++ CallSite.anonymous := rfl
    rw [CallSite.renderLocation_of_origin ((CallSite.isNative_movedBy _).trans hforeign)
      ((CallSite.script_movedBy _ hplace).trans hscript) ((CallSite.isEval_movedBy _).trans heval)
      horigin, CallSite.line_movedBy _ hplace, CallSite.column_movedBy _ hplace, hmark]
    rfl

/-- A frame without both an eval origin and a file stays where it is or moves. -/
theorem sameLocation_or_movesTo (hread : AsRead frame)
    (hone : frame.evalOrigin = none ∨ frame.fileName = none) :
    StackTrace.sameLocation frame.callSite
        (frame.callSite.movedBy (SourceMap.relocated files)) = true ∨
      ∃ location, MovesTo files frame location := by
  by_cases hmoves : ∃ location, MovesTo files frame location
  · exact .inr hmoves
  left
  rw [sameLocation_movedBy_iff hread.noUrl]
  constructor
  · intro position hplace
    by_contra helsewhere
    obtain ⟨source, line, hnamed, hline, rfl⟩ := hread.position?_eq_some_iff.mp hplace
    exact hmoves ⟨_, .position hnamed hline (MapCache.yields_relocate _).run_empty helsewhere⟩
  · intro _ origin horigin
    by_contra helsewhere
    have hunnamed : frame.fileName = none := hone.resolve_left (by simp [horigin])
    exact hmoves
      ⟨_, .evalOrigin hunnamed horigin (MapCache.yields_relocate_origin _).run_empty helsewhere⟩

end StackFrame

/-! ### Lines -/

namespace StackTrace

open StackFrame (MovesTo)

variable {files : FileSystem} {content ending : Text} {frame : StackFrame} {location : Text}

theorem remap_append_ends (files : FileSystem) (h : ∀ c ∈ ending, Text.isLineEnd c = true)
    (text : Text) : remap files (text ++ ending) = remap files text ++ ending := by
  induction ending generalizing text with
  | nil => rw [List.append_nil, List.append_nil]
  | cons c rest ih =>
    obtain ⟨hc, hrest⟩ := List.forall_mem_cons.mp h
    have hone : remap files (text ++ [c]) = remap files text ++ [c] := by
      rw [remap_eq_flatMap, remap_eq_flatMap]
      exact Text.flatMap_linesWithEnds_append_singleton (remappedLine_nil _)
        (remappedLine_append_lineEnd _ hc) text
    rw [← List.singleton_append, ← List.append_assoc, ih hrest, hone, List.append_assoc]

theorem remap_of_endedBy (files : FileSystem) (h : content.EndedBy ending) :
    remap files (content ++ ending) =
      remappedLine (SourceMap.relocated files) content ++ ending := by
  have hends : ∀ c ∈ ending, Text.isLineEnd c = true := by
    intro c hc
    rcases h.ends c hc with rfl | rfl <;> rfl
  rw [remap_append_ends files hends, remap_eq_flatMap,
    Text.flatMap_linesWithEnds_of_not_mem (remappedLine_nil _) h.oneLine]

theorem remap_of_sameLocation (h : content.EndedBy ending)
    (hread : StackFrame.parse content = .ok frame)
    (hsame : sameLocation frame.callSite
      (frame.callSite.movedBy (SourceMap.relocated files)) = true) :
    remap files (content ++ ending) = content ++ ending := by
  rw [remap_of_endedBy files h, remappedLine, h.cutEnds_eq]
  dsimp only
  rw [hread]
  dsimp only
  rw [if_pos hsame]

theorem remap_of_movesTo (h : content.EndedBy ending)
    (hread : StackFrame.parse content = .ok frame) (hframe : frame.AsRead)
    (hmoves : MovesTo files frame location) :
    remap files (content ++ ending) = content.takeWhile Text.isBlank ++ "at ".toList ++
      (frame.callSite.movedBy (SourceMap.relocated files)).render ++ ending := by
  rw [remap_of_endedBy files h, remappedLine, h.cutEnds_eq]
  dsimp only
  rw [hread]
  dsimp only
  rw [if_neg (Bool.not_eq_true _ ▸ hmoves.sameLocation hframe), List.append_nil]

/-- A line that is no frame, or whose frame does not move, stays. In any other line the location is
exchanged, within the parentheses behind the call or else alone, unless the frame has both an eval
origin and a file. -/
theorem remap_exchanges_location (files : FileSystem) {content ending : Text}
    (h : content.EndedBy ending) :
    (¬ "at ".toList <+: Text.trim content →
      remap files (content ++ ending) = content ++ ending) ∧
    ∀ body, Text.trim content = "at ".toList ++ body →
      ∃ frame, StackFrame.parse content = .ok frame ∧
        (frame.evalOrigin = none ∨ frame.fileName = none →
          ((∀ location, ¬ MovesTo files frame location) →
            remap files (content ++ ending) = content ++ ending) ∧
          ∀ location, MovesTo files frame location →
            (∀ name old, body = name ++ " (".toList ++ old ++ [')'] → ¬ " (".toList <:+: name →
              name ≠ [] → name ≠ "new ".toList →
                remap files (content ++ ending) =
                  content.takeWhile Text.isBlank ++ "at ".toList ++ name ++ " (".toList ++
                    location ++ [')'] ++ ending) ∧
            (¬ [')'] <:+ body ∨ ¬ " (".toList <:+: body →
              remap files (content ++ ending) =
                content.takeWhile Text.isBlank ++ "at ".toList ++ location ++ ending)) := by
  constructor
  · intro hforeign
    rw [remap_of_endedBy files h, remappedLine_of_not_prefix _ hforeign]
  · intro body hbody
    have hread := StackFrame.parse_of_trim_eq hbody
    have hframe := StackFrame.asRead_parseBody body
    refine ⟨_, hread, fun hone => ⟨?_, fun location hmoves => ⟨?_, ?_⟩⟩⟩
    · intro hstays
      have hsame := (StackFrame.sameLocation_or_movesTo hframe hone).resolve_right
        (not_exists.mpr hstays)
      exact remap_of_sameLocation h hread hsame
    · intro name old hsplit hfirst hfilled hnamed
      have hcallee : (StackFrame.parseBody body).callSite.callee? = some name := by
        rw [hsplit, StackFrame.parseBody_called hfirst, StackFrame.callee?_parseLocation]
        exact StackFrame.callee?_parseCallee hfilled hnamed
      rw [remap_of_movesTo h hread hframe hmoves, CallSite.render, CallSite.callee?_movedBy, hcallee,
        hmoves.renderLocation hframe]
      simp only [List.append_assoc]
    · intro halone
      have hcallee : (StackFrame.parseBody body).callSite.callee? = none := by
        rw [StackFrame.parseBody_alone halone]
        exact StackFrame.callee?_parseLocation {} body
      rw [remap_of_movesTo h hread hframe hmoves, CallSite.render, CallSite.callee?_movedBy, hcallee,
        hmoves.renderLocation hframe]

/-- The call keeps its alias, the line its wide blank and all its ends, and code in `eval` keeps its
line but not a column of zero. -/
theorem remap_exchanges_two_locations :
    let memory : FileSystem.Memory :=
      { files := [("a.js".toList, "//# sourceMappingURL=m".toList),
          ("m".toList, "\x7b\"sources\":[\"a.ts\"],\"mappings\":\"IACC\"\x7d".toList)] }
    let called : Text := "\u3000\tat async T.go [as m] (a.js:1:5) \u00a0".toList
    let ending : Text := "\r\n\n\r".toList
    let evaluated : Text := " at eval at f (a.js:1:5), <anonymous>:03:0".toList
    (called.EndedBy ending ∧ evaluated.EndedBy []) ∧
      remap memory.fileSystem (called ++ ending) =
        "\u3000\tat async T.go [as m] (a.ts:2:1)\r\n\n\r".toList ∧
      remap memory.fileSystem (evaluated ++ []) =
        " at eval at f (a.ts:2:1), <anonymous>:3".toList := by
  intro memory called ending evaluated
  have hcalled : called.EndedBy ending := ⟨by decide, by decide, by simp [ending]⟩
  have hevaluated : evaluated.EndedBy [] := ⟨by decide, by decide, by simp⟩
  obtain ⟨first, hfirst, hmoved⟩ := (remap_exchanges_location memory.fileSystem hcalled).2
    "async T.go [as m] (a.js:1:5)".toList (by decide)
  obtain ⟨second, hsecond, hother⟩ := (remap_exchanges_location memory.fileSystem hevaluated).2
    "eval at f (a.js:1:5), <anonymous>:03:0".toList (by decide)
  have hfrom : StackFrame.parse called = .ok
      { fileName := some "a.js".toList, line := some 1, column := some 5
        functionName := some "async T.go [as m]".toList } := by
    decide +kernel
  have hin : StackFrame.parse evaluated = .ok
      { evalOrigin := some "eval at f (a.js:1:5)".toList, line := some 3, column := some 0 } := by
    decide +kernel
  obtain rfl := Except.ok.inj (hfirst.symm.trans hfrom)
  obtain rfl := Except.ok.inj (hsecond.symm.trans hin)
  have hposition : ((MapCache.relocate memory.fileSystem ⟨"a.js".toList, 1, 5⟩).run {}).1 =
      ⟨"a.ts".toList, 2, 1⟩ := by
    decide +kernel
  have horigin : ((EvalOrigin.relocate memory.fileSystem "eval at f (a.js:1:5)".toList).run {}).1 =
      "eval at f (a.ts:2:1)".toList := by
    decide +kernel
  refine ⟨⟨hcalled, hevaluated⟩, ?_, ?_⟩
  · have hmoves := (hmoved (.inl rfl)).2 _ (.position rfl rfl hposition (by decide))
    have hexchanged := hmoves.1 "async T.go [as m]".toList "a.js:1:5".toList (by decide)
      (by decide) (by decide) (by decide)
    exact hexchanged.trans (by decide)
  · have hmoves := (hother (.inr rfl)).2 _ (.evalOrigin rfl rfl horigin (by decide))
    have hexchanged := hmoves.2 (.inl (by decide))
    exact hexchanged.trans (by decide)

end StackTrace

end MappedTrace
