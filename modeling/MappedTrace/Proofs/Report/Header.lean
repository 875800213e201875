import MappedTrace.Command
import MappedTrace.Proofs.Output.Limit
import MappedTrace.Proofs.Position.Rendering
import MappedTrace.Proofs.StackTrace.Remapping

/-!
# The header of a report

A report finds the position at the top of a stack and moves it, though the stack was moved before.
So its header names the printed position only as far as that one does not come from elsewhere again.
-/

namespace MappedTrace

namespace Action

variable {ε α : Type} {files : FileSystem} {text : Text}

/-- An action that writes a text, as far as there is room for it. -/
def Writes (action : Action ε Unit) (text : Text) : Prop :=
  ∀ run, (action run).2.sink.written = run.sink.written ++ run.sink.fitting (Utf8.encode text)

theorem writes_write (failure : ε) (text : Text) : (write failure text).Writes text :=
  sink_write failure text

theorem writes_writePieces (failure : ε) (pieces : List Text) :
    (writePieces failure pieces).Writes pieces.flatten := by
  rw [writePieces_eq_write]
  exact writes_write failure pieces.flatten

theorem Writes.lookUpAfresh {lookups : Lookups α} {answer : α} {next : α → Action ε Unit}
    (hlookups : MapCache.Yields files lookups answer) (h : (next answer).Writes text) :
    (lookUpAfresh lookups >>= next).Writes text := by
  intro run
  have hanswer := (hlookups _ (MapCache.Faithful.cleared run.cache)).1
  have hrun : (Action.lookUpAfresh lookups >>= next) run =
      next (lookups.run run.cache.cleared).1
        { run with cache := (lookups.run run.cache.cleared).2 } := rfl
  rw [hrun, hanswer]
  exact h _

end Action

namespace Report

/-- A report in front of whose stack stand an empty line, a source with a line number, one line of
text, and one more line. -/
def Headed (report stack source : Text) (line : UInt32) : Prop :=
  ∃ text caret, '\n' ∉ text ∧ '\n' ∉ caret ∧
    report = '\n' :: source ++ ':' :: Numeral.write line ++ '\n' :: text ++ '\n' :: caret ++
      '\n' :: (stack ++ ['\n'])

theorem Headed.unique {report stack source other : Text} {line number : UInt32}
    (h : Headed report stack source line) (hother : Headed report stack other number) :
    source = other ∧ line = number := by
  obtain ⟨text, caret, htext, hcaret, rfl⟩ := h
  obtain ⟨shown, mark, hshown, hmark, heq⟩ := hother
  have hcarets := Text.append_cons_last_inj hcaret hmark (List.append_cancel_right heq)
  have htexts := Text.append_cons_last_inj htext hshown hcarets.1
  have hcolon : ∀ n, ':' ∉ Numeral.write n := Numeral.not_mem_write rfl
  have hnumbers := Text.append_cons_last_inj (hcolon line) (hcolon number) htexts.1
  have hread := congrArg Numeral.read? hnumbers.2
  rw [Numeral.read?_write, Numeral.read?_write] at hread
  exact ⟨(List.cons.inj hnumbers.1).2, Option.some.inj hread⟩

theorem not_headed_stack (stack source : Text) (line : UInt32) :
    ¬ Headed (stack ++ ['\n']) stack source line := by
  rintro ⟨text, caret, -, -, heq⟩
  have hlength := congrArg List.length heq
  simp only [List.length_append, List.length_cons] at hlength
  omega

theorem headed_header {text : Text} (position : Position) (stack : Text) (h : '\n' ∉ text) :
    Headed (header position text ++ stack ++ ['\n']) stack position.source position.line := by
  let padding := List.replicate (min (position.column.toNat - 1) text.length) ' '
  have hcaret : '\n' ∉ padding ++ ['^'] := by simp [padding]
  exact ⟨text, padding ++ ['^'], h, hcaret, by simp [header, padding]⟩

section

variable {files : FileSystem}

def lineAt? (files : FileSystem) (position : Position) : Option Text :=
  match files.fetch position.source with
  | .text contents => lineOf? contents position.line
  | _ => none

theorem lineOf?_eq_some_iff {contents text : Text} {line : UInt32} :
    lineOf? contents line = some text ↔
      1 ≤ line ∧ (Text.lines contents)[line.toNat - 1]? = some text ∧ text ≠ [] := by
  have hcounted : 1 ≤ line ↔ line ≠ 0 := by
    rw [UInt32.le_iff_toNat_le, Ne, ← UInt32.toNat_inj]
    exact Nat.one_le_iff_ne_zero
  rw [hcounted, lineOf?]
  by_cases hzero : line = 0
  · simp [hzero]
  · rw [if_neg hzero, Option.bind_eq_some_iff]
    simp [hzero, Text.filled?_eq_some_iff]

theorem lineAt?_eq_some_iff {position : Position} {text : Text} :
    lineAt? files position = some text ↔
      ∃ contents, files.isFile position.source = true ∧
        files.read position.source = .ok contents ∧
        lineOf? contents position.line = some text := by
  have hfetched : lineAt? files position = some text ↔
      ∃ contents, files.fetch position.source = .text contents ∧
        lineOf? contents position.line = some text := by
    unfold lineAt?
    cases files.fetch position.source <;> simp
  simp only [hfetched, FileSystem.fetch_eq_text_iff, and_assoc]

theorem isLineEnd_of_lineAt? {position : Position} {text : Text}
    (h : lineAt? files position = some text) : ∀ c ∈ text, Text.isLineEnd c = false := by
  obtain ⟨contents, -, -, hshown⟩ := lineAt?_eq_some_iff.mp h
  obtain ⟨-, hline, -⟩ := lineOf?_eq_some_iff.mp hshown
  exact Text.isLineEnd_of_mem_lines contents text (List.mem_of_getElem? hline)

theorem lineFeed_not_mem_of_lineAt? {position : Position} {text : Text}
    (h : lineAt? files position = some text) : '\n' ∉ text := by
  intro hmem
  exact absurd (isLineEnd_of_lineAt? h '\n' hmem) (by decide)

/-- Where the position at the top of a stack is moved to, and the line of source there. -/
def top? (files : FileSystem) (stack : Text) : Option (Position × Text) :=
  ((topPosition? stack).map (SourceMap.relocated files)).bind fun position =>
    (lineAt? files position).map (position, ·)

theorem top?_eq_some {stack text : Text} {position : Position}
    (h : top? files stack = some (position, text)) :
    (∃ printed, topPosition? stack = some printed ∧ SourceMap.relocated files printed = position) ∧
      lineAt? files position = some text := by
  obtain ⟨moved, hmoved, hline⟩ := Option.bind_eq_some_iff.mp h
  obtain ⟨line, hshown, hsame⟩ := Option.map_eq_some_iff.mp hline
  obtain ⟨rfl, rfl⟩ := Prod.mk.inj hsame
  exact ⟨Option.map_eq_some_iff.mp hmoved, hshown⟩

theorem yields_sourceLine? (position : Position) :
    MapCache.Yields files (sourceLine? files position) (lineAt? files position) := by
  refine (MapCache.yields_fetch position.source).bind ?_
  unfold lineAt?
  cases files.fetch position.source <;> exact MapCache.Yields.pure _

theorem yields_headerFor (stack : Text) :
    MapCache.Yields files (headerFor files stack)
      ((top? files stack).elim [] fun top => headerPieces top.1 top.2) := by
  unfold headerFor top?
  cases topPosition? stack with
  | none => exact MapCache.Yields.pure _
  | some printed =>
    refine (MapCache.yields_relocate printed).bind ?_
    refine (yields_sourceLine? _).bind ?_
    rw [Option.map_some, Option.bind_some]
    cases lineAt? files (SourceMap.relocated files printed) <;> exact MapCache.Yields.pure _

theorem yields_composing (error : Option Thrown) :
    MapCache.Yields files (composing files error) ((composing files error).run {}).1 := by
  unfold composing
  cases error.bind fun error => error.stack.bind Text.filled? with
  | some stack => exact ((yields_headerFor stack).map (· ++ [stack, ['\n']])).fresh
  | none => exact (MapCache.Yields.pure _).fresh

theorem flatten_composing (error : Option Thrown) :
    ((composing files error).run {}).1.flatten = report files error :=
  rfl

theorem report_eq (message : Text) {stack : Text} (hfilled : stack ≠ []) :
    report files (some ⟨message, some stack⟩) =
      ((top? files stack).elim [] fun top => header top.1 top.2) ++ stack ++ ['\n'] := by
  have hcomposing : composing files (some ⟨message, some stack⟩) =
      (do return (← headerFor files stack) ++ [stack, ['\n']]) := by
    simp [composing, Text.filled?, hfilled]
  rw [← flatten_composing, hcomposing]
  refine (congrArg List.flatten
    ((yields_headerFor stack).map (· ++ [stack, ['\n']])).run_empty).trans ?_
  cases top? files stack with
  | none => simp
  | some top => simp [flatten_headerPieces]

/-- A report has a header exactly if the line at the top of its stack can be shown. -/
theorem headed_report_iff {message stack source : Text} {line : UInt32} :
    Headed (report files (some ⟨message, some stack⟩)) stack source line ↔
      ∃ top ∈ top? files stack, source = top.1.source ∧ line = top.1.line := by
  by_cases hempty : stack = []
  · subst hempty
    refine iff_of_false ?_ (by simp [top?, topPosition?, topFrame?])
    rintro ⟨text, caret, -, -, heq⟩
    have hfirst : some 'U' = some '\n' := congrArg List.head? heq
    simp at hfirst
  · rw [report_eq message hempty]
    cases htop : top? files stack with
    | none => simpa using not_headed_stack stack source line
    | some top =>
      obtain ⟨position, text⟩ := top
      obtain ⟨-, hline⟩ := top?_eq_some htop
      have hheaded := headed_header position stack (lineFeed_not_mem_of_lineAt? hline)
      constructor
      · intro hother
        exact ⟨(position, text), rfl, hother.unique hheaded⟩
      · rintro ⟨-, ⟨⟩, rfl, rfl⟩
        exact hheaded

end

/-- How a report is headed by the position at the top of its stack. The header names where that
position is moved to, which is the position itself exactly if it comes from no other source or line;
and there is a header wherever the line to show can be found. -/
structure HeadedByTop (files : FileSystem) (stack report : Text) : Prop where
  named : ∀ source line, Headed report stack source line →
    ∃ printed, topPosition? stack = some printed ∧
      source = (SourceMap.relocated files printed).source ∧
      line = (SourceMap.relocated files printed).line ∧
      (source = printed.source ∧ line = printed.line ↔
        ∀ origin, SourceMap.ComesFrom files printed origin →
          origin.source = printed.source ∧ origin.line = printed.line)
  shown : ∀ printed, topPosition? stack = some printed →
    (lineAt? files (SourceMap.relocated files printed)).isSome →
      Headed report stack (SourceMap.relocated files printed).source
        (SourceMap.relocated files printed).line

theorem relocated_stays_iff {files : FileSystem} (printed : Position) :
    ((SourceMap.relocated files printed).source = printed.source ∧
        (SourceMap.relocated files printed).line = printed.line) ↔
      ∀ origin, SourceMap.ComesFrom files printed origin →
        origin.source = printed.source ∧ origin.line = printed.line := by
  constructor
  · intro hsame origin hcomes
    rwa [SourceMap.relocated_eq_iff.mpr (.inl hcomes)] at hsame
  · intro hstays
    rcases SourceMap.relocated_eq_iff.mp rfl with hcomes | ⟨hprinted, -⟩
    · exact hstays _ hcomes
    · rw [hprinted]
      exact ⟨rfl, rfl⟩

theorem headedByTop_report (files : FileSystem) (message stack : Text) :
    HeadedByTop files stack (report files (some ⟨message, some stack⟩)) where
  named source line hheaded := by
    obtain ⟨⟨position, text⟩, htop, rfl, rfl⟩ := headed_report_iff.mp hheaded
    obtain ⟨⟨printed, hprinted, rfl⟩, -⟩ := top?_eq_some htop
    exact ⟨printed, hprinted, rfl, rfl, relocated_stays_iff printed⟩
  shown printed hprinted hline := by
    obtain ⟨text, htext⟩ := Option.isSome_iff_exists.mp hline
    refine headed_report_iff.mpr ⟨(SourceMap.relocated files printed, text), ?_, rfl, rfl⟩
    simp [top?, hprinted, htext]

theorem writes_reportThrown (files : FileSystem) (error : Option Thrown) :
    (Command.reportThrown files error).Writes (report files error) :=
  .lookUpAfresh (yields_composing error) (Action.writes_writePieces _ _)

theorem writes_reportTrace (files : FileSystem) (text : Text) :
    let stack := StackTrace.remap files text.trimEnd
    (Command.reportTrace files text).Writes
      (report files (some ⟨stack.firstLine, some stack⟩)) := by
  intro stack
  have hremapping : MapCache.Yields files (StackTrace.remapping files text.trimEnd) stack :=
    (StackTrace.yields_remapping files text.trimEnd).fresh
  exact .lookUpAfresh hremapping (.lookUpAfresh (yields_composing _) (Action.writes_writePieces _ _))

/-- A stack that was moved is headed by where its top is moved to once more, whether it was moved
frame by frame or, by the command, line by line. -/
theorem headedByTop_of_moved (files : FileSystem) :
    (∀ message sites,
      let error : Thrown := ⟨message, some (StackTrace.prepare files message sites)⟩
      (Command.reportThrown files (some error)).Writes (report files (some error)) ∧
        HeadedByTop files (StackTrace.prepare files message sites) (report files (some error))) ∧
    ∀ text,
      let stack := StackTrace.remap files text.trimEnd
      let output := report files (some ⟨stack.firstLine, some stack⟩)
      (Command.reportTrace files text).Writes output ∧ HeadedByTop files stack output := by
  refine ⟨fun message sites => ⟨?_, ?_⟩, fun text => ⟨?_, ?_⟩⟩
  · exact writes_reportThrown files _
  · exact headedByTop_report files message _
  · exact writes_reportTrace files text
  · exact headedByTop_report files _ _

theorem headed_by_original :
    let memory : FileSystem.Memory :=
      { files := [("b.js".toList, "a();\nb();\n//# sourceMappingURL=m".toList),
          ("m".toList, "\x7b\"sources\":[\"a.ts\"],\"mappings\":\";IAAC\"\x7d".toList),
          ("a.ts".toList, "main();\n".toList)] }
    let site : CallSite :=
      { fileName := some "b.js".toList, line := some 2, column := some 5
        evalOrigin := none, functionName := some "f".toList }
    let stack := StackTrace.prepare memory.fileSystem "Error: late".toList [site]
    let output := report memory.fileSystem (some ⟨"Error: late".toList, some stack⟩)
    let printed : Position := ⟨"a.ts".toList, 1, 1⟩
    topPosition? stack = some printed ∧ Headed output stack printed.source printed.line ∧
      ∀ origin, SourceMap.ComesFrom memory.fileSystem printed origin →
        origin.source = printed.source ∧ origin.line = printed.line := by
  intro memory site stack output printed
  have hstack : stack = "Error: late\n    at f (a.ts:1:1)".toList := by decide +kernel
  have htop : topPosition? stack = some printed := by
    rw [hstack]
    decide +kernel
  have hstays : SourceMap.relocated memory.fileSystem printed = printed := by decide +kernel
  have hline : (lineAt? memory.fileSystem printed).isSome := by decide +kernel
  have hmoved := ((headedByTop_of_moved memory.fileSystem).1 "Error: late".toList [site]).2
  have hheaded := hmoved.shown printed htop (by rwa [hstays])
  rw [hstays] at hheaded
  obtain ⟨found, hfound, -, -, hsame⟩ := hmoved.named printed.source printed.line hheaded
  obtain rfl := Option.some.inj (hfound.symm.trans htop)
  exact ⟨htop, hheaded, hsame.mp ⟨rfl, rfl⟩⟩

/-- A source whose map leads back to it may be moved once more. -/
theorem headed_elsewhere :
    let memory : FileSystem.Memory :=
      { files := [("a.js".toList, "one();\ntwo();\nthree();\n//# sourceMappingURL=m".toList),
          ("m".toList, "\x7b\"sources\":[\"a.js\"],\"mappings\":\"AACC;AACA\"\x7d".toList)] }
    let site : CallSite :=
      { fileName := some "a.js".toList, line := some 1, column := some 1
        evalOrigin := none, functionName := some "f".toList }
    let stack := StackTrace.prepare memory.fileSystem "Error: late".toList [site]
    let output := report memory.fileSystem (some ⟨"Error: late".toList, some stack⟩)
    StackTrace.remap memory.fileSystem "Error: late\n    at f (a.js:1:1)".toList = stack ∧
      topPosition? stack = some ⟨"a.js".toList, 2, 1⟩ ∧
      Headed output stack "a.js".toList 3 ∧ ¬ Headed output stack "a.js".toList 2 := by
  intro memory site stack output
  have hstack : stack = "Error: late\n    at f (a.js:2:1)".toList := by decide +kernel
  have houtput : output = "\na.js:3\nthree();\n^\nError: late\n    at f (a.js:2:1)\n".toList := by
    decide +kernel
  have hheaded : Headed output stack "a.js".toList 3 := by
    rw [houtput, hstack]
    exact ⟨"three();".toList, ['^'], by decide, by decide, by decide +kernel⟩
  refine ⟨?_, ?_, hheaded, ?_⟩
  · rw [hstack]
    decide +kernel
  · rw [hstack]
    decide +kernel
  · intro hother
    exact absurd (hother.unique hheaded).2 (by decide)

end Report

end MappedTrace
