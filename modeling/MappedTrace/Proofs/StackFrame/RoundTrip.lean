import MappedTrace.Proofs.StackFrame.ReadBack

/-!
# Frames that are read back as they were

A frame without a source url, a type or a method, in a place that is written in full, comes back
field by field when it is written and read. There is one exception: behind `new` and a blank, a name
that begins with a parenthesis is taken for the location.
-/

namespace MappedTrace.StackFrame

open CallSite (anonymous)

/-- Where a frame may be for its place to be written in full: in a file, in evaluated code without a
name, or in native code. -/
inductive InFull (frame : StackFrame) : Prop
  | file {source : Text} {line column : UInt32} (foreign : frame.isNative = false)
      (named : frame.fileName = some source) (filled : source ≠ []) (real : source ≠ anonymous)
      (unmarked : ¬ "eval at ".toList <+: source) (unevaluated : frame.evalOrigin = none)
      (atLine : frame.line = some line) (atColumn : frame.column = some column) (later : 1 ≤ column)
  | evaluated {origin : Text} {line column : UInt32} (foreign : frame.isNative = false)
      (unnamed : frame.fileName = none) (evalOrigin : frame.evalOrigin = some origin)
      (marked : "eval at ".toList <+: origin) (atLine : frame.line = some line)
      (atColumn : frame.column = some column) (later : 1 ≤ column)
  | native (native : frame.isNative = true) (unnamed : frame.fileName = none)
      (unevaluated : frame.evalOrigin = none) (noLine : frame.line = none)
      (noColumn : frame.column = none)

/-- Frames of which nothing is known but a place and perhaps a name. -/
structure Plain (frame : StackFrame) : Prop where
  noUrl : frame.sourceUrl = none
  noType : frame.typeName = none
  noMethod : frame.methodName = none ∧ frame.isMethodCall = false
  unnamed : frame.functionName = none → frame.isConstructor = false
  filled : frame.functionName ≠ some []
  closed : ∀ name, frame.functionName = some name → ¬ " (".toList <:+: name
  called : ∀ name, frame.functionName = some name → frame.isConstructor = false →
    ¬ "new ".toList <+: name
  inFull : InFull frame

def nameOnly (frame : StackFrame) : StackFrame where
  functionName := frame.functionName
  isConstructor := frame.isConstructor

variable {frame : StackFrame}

theorem column_ne_zero {column : UInt32} (h : 1 ≤ column) : column ≠ 0 := by
  rintro rfl
  exact absurd h (by decide)

namespace InFull

theorem renderLocation_file {source : Text} {line column : UInt32}
    (hurl : frame.sourceUrl = none) (hforeign : frame.isNative = false)
    (hfile : frame.fileName = some source) (hline : frame.line = some line)
    (hcolumn : frame.column = some column) (hlater : 1 ≤ column) :
    frame.callSite.renderLocation = Position.render ⟨source, line, column⟩ := by
  have hscript : frame.callSite.script = some source := by
    show frame.sourceUrl.or frame.fileName = some source
    rw [hurl, hfile, Option.none_or]
  exact CallSite.renderLocation_eq_render hforeign hscript hline hcolumn (column_ne_zero hlater)

theorem renderLocation_evaluated {origin : Text} {line column : UInt32}
    (hurl : frame.sourceUrl = none) (hforeign : frame.isNative = false)
    (hfile : frame.fileName = none) (horigin : frame.evalOrigin = some origin)
    (hline : frame.line = some line) (hcolumn : frame.column = some column) (hlater : 1 ≤ column) :
    frame.callSite.renderLocation =
      origin ++ ", ".toList ++ Position.render ⟨anonymous, line, column⟩ := by
  have hscript : frame.callSite.script = none := by
    show frame.sourceUrl.or frame.fileName = none
    rw [hurl, hfile, Option.none_or]
  have heval : frame.callSite.isEval = true := congrArg Option.isSome horigin
  exact CallSite.renderLocation_eq_origin_render hforeign hscript heval horigin hline hcolumn
    (column_ne_zero hlater)

theorem renderLocation_native (hnative : frame.isNative = true) :
    frame.callSite.renderLocation = "native".toList :=
  if_pos hnative

theorem endsOpen (h : InFull frame) (hurl : frame.sourceUrl = none) :
    EndsOpen frame.callSite.renderLocation := by
  cases h with
  | file foreign named filled real unmarked unevaluated atLine atColumn later =>
    rw [renderLocation_file hurl foreign named atLine atColumn later]
    exact endsOpen_render _
  | evaluated foreign unnamed evalOrigin marked atLine atColumn later =>
    rw [renderLocation_evaluated hurl foreign unnamed evalOrigin atLine atColumn later]
    exact (endsOpen_render _).append _
  | native native =>
    rw [renderLocation_native native]
    exact endsOpen_native

end InFull

namespace Plain

/-- Behind the name, the place is all that there is to read. -/
theorem parseLocation_renderLocation (h : Plain frame) :
    parseLocation frame.nameOnly frame.callSite.renderLocation = frame := by
  obtain ⟨hurl, htype, ⟨hmethod, hcall⟩, -, -, -, -, hplace⟩ := h
  cases hplace with
  | file foreign named filled real unmarked unevaluated atLine atColumn later =>
    rw [InFull.renderLocation_file hurl foreign named atLine atColumn later,
      parseLocation_named _ filled real unmarked]
    cases frame
    simp_all [nameOnly]
  | evaluated foreign unnamed evalOrigin marked atLine atColumn later =>
    rw [InFull.renderLocation_evaluated hurl foreign unnamed evalOrigin atLine atColumn later,
      parseLocation_evaluated _ marked rfl]
    cases frame
    simp_all [nameOnly]
  | native native unnamed unevaluated noLine noColumn =>
    rw [InFull.renderLocation_native native, parseLocation_native]
    cases frame
    simp_all [nameOnly]

theorem callee?_eq (h : Plain frame) :
    frame.callSite.callee? = frame.functionName.map fun name =>
      if frame.isConstructor then "new ".toList ++ name else name := by
  cases hname : frame.functionName with
  | none => simp [CallSite.callee?, callSite, hname, h.unnamed hname, h.noMethod.2]
  | some name =>
    have hfilled : name ≠ [] := by
      rintro rfl
      exact h.filled hname
    cases hnew : frame.isConstructor <;>
      simp [CallSite.callee?, callSite, hname, hnew, h.noMethod.2, Text.filled?, hfilled]

theorem parseCallee_callee? (h : Plain frame) :
    (frame.callSite.callee?.map parseCallee).getD {} = frame.nameOnly := by
  rw [h.callee?_eq, nameOnly]
  cases hname : frame.functionName with
  | none => rw [h.unnamed hname, Option.map_none, Option.map_none, Option.getD_none]
  | some name =>
    rw [Option.map_some, Option.map_some, Option.getD_some, parseCallee]
    cases hnew : frame.isConstructor with
    | true => rw [if_pos rfl, Text.isPrefixOf?_append]
    | false =>
      rw [if_neg Bool.false_ne_true,
        Text.isPrefixOf?_eq_none_iff.mpr (h.called name hname hnew)]

theorem not_infix_callee? (h : Plain frame)
    (hnew : frame.isConstructor = true → ∀ name, frame.functionName ≠ some ('(' :: name)) :
    ∀ callee, frame.callSite.callee? = some callee → ¬ " (".toList <:+: callee := by
  intro callee hcallee
  rw [h.callee?_eq, Option.map_eq_some_iff] at hcallee
  obtain ⟨name, hname, rfl⟩ := hcallee
  have hclosed := h.closed name hname
  split
  · rename_i hconstructor
    have hopen : ¬ ['('] <+: name := by
      rintro ⟨rest, rfl⟩
      exact hnew hconstructor rest hname
    have hmark : "new ".toList = ['n', 'e', 'w', ' '] := rfl
    have hpair : " (".toList = [' ', '('] := rfl
    rw [hpair] at hclosed ⊢
    simp [hmark, List.infix_cons_iff, hopen, hclosed]
  · exact hclosed

theorem parse_render (h : Plain frame) :
    parse ("at ".toList ++ frame.callSite.render) = .ok (parseBody frame.callSite.render) :=
  parse_marked (endsVisibly_render (h.inFull.endsOpen h.noUrl).endsVisibly)

theorem parseBody_render_eq_self (h : Plain frame)
    (hnew : frame.isConstructor = true → ∀ name, frame.functionName ≠ some ('(' :: name)) :
    parseBody frame.callSite.render = frame := by
  rw [parseBody_render (h.inFull.endsOpen h.noUrl) (h.not_infix_callee? hnew),
    h.parseCallee_callee?, h.parseLocation_renderLocation]

end Plain

theorem isConstructor_parseLocation (base : StackFrame) (text : Text) :
    (parseLocation base text).isConstructor = base.isConstructor := by
  rw [parseLocation]
  split <;> rfl

/-- A name that begins with a parenthesis is no longer taken for a name behind `new`. -/
theorem isConstructor_parseBody_render {name : Text} (h : Plain frame)
    (hnew : frame.isConstructor = true) (hname : frame.functionName = some ('(' :: name)) :
    (parseBody frame.callSite.render).isConstructor = false := by
  have hcallee : frame.callSite.callee? = some ("new ".toList ++ '(' :: name) := by
    rw [h.callee?_eq, hname, Option.map_some, if_pos hnew]
  have hrender : frame.callSite.render = "new".toList ++ " (".toList ++
      (name ++ " (".toList ++ frame.callSite.renderLocation) ++ [')'] := by
    rw [CallSite.render, hcallee]
    simp
  rw [hrender, parseBody_called (by decide), isConstructor_parseLocation]
  decide

/-- A plain frame that is written and read is the same frame, unless it is a constructor whose name
begins with a parenthesis. -/
theorem parse_render_eq_self_iff (h : Plain frame) :
    parse ("at ".toList ++ frame.callSite.render) = .ok frame ↔
      ¬ (frame.isConstructor = true ∧ ∃ name, frame.functionName = some ('(' :: name)) := by
  rw [h.parse_render, Except.ok.injEq]
  constructor
  · rintro hsame ⟨hnew, name, hname⟩
    have hread := isConstructor_parseBody_render h hnew hname
    rw [hsame, hnew] at hread
    contradiction
  · intro hnamed
    apply h.parseBody_render_eq_self
    intro hnew name hname
    exact hnamed ⟨hnew, name, hname⟩

/-- Colons, commas and parentheses are no trouble in a name, a file or an eval origin. -/
theorem parse_render_crowded :
    let called : StackFrame :=
      { fileName := some "c:/a (1), b:2.js".toList, line := some 0, column := some 4294967295
        functionName := some "async Promise.all(index 0), :1:2 [as f(x)]".toList }
    let made : StackFrame :=
      { evalOrigin := some "eval at f (eval at g (b.js:3:4)), :5".toList
        line := some 6, column := some 7
        functionName := some "new T) ".toList, isConstructor := true }
    (called.Plain ∧ made.Plain) ∧
      parse ("at ".toList ++ called.callSite.render) = .ok called ∧
      parse ("at ".toList ++ made.callSite.render) = .ok made := by
  intro called made
  have hcalled : called.Plain := by
    refine ⟨rfl, rfl, ⟨rfl, rfl⟩, fun _ => rfl, by decide, ?_, ?_, ?_⟩
    · rintro name ⟨⟩
      decide
    · rintro name ⟨⟩ -
      decide
    · exact .file rfl rfl (by decide) (by decide) (by decide) rfl rfl rfl (by decide)
  have hmade : made.Plain := by
    refine ⟨rfl, rfl, ⟨rfl, rfl⟩, ?_, by decide, ?_, ?_, ?_⟩
    · rintro ⟨⟩
    · rintro name ⟨⟩
      decide
    · rintro name - ⟨⟩
    · exact .evaluated rfl rfl rfl (by decide) rfl rfl (by decide)
  refine ⟨⟨hcalled, hmade⟩, (parse_render_eq_self_iff hcalled).mpr ?_,
    (parse_render_eq_self_iff hmade).mpr ?_⟩
  · rintro ⟨⟨⟩, -⟩
  · rintro ⟨-, name, ⟨⟩⟩

/-- The parenthesis that a constructor's name begins with is taken for the one in front of the
location. -/
theorem parse_render_opened :
    let frame : StackFrame :=
      { fileName := some "a.js".toList, line := some 1, column := some 2
        functionName := some "(f".toList, isConstructor := true }
    frame.Plain ∧
      parse ("at ".toList ++ frame.callSite.render) =
        .ok { fileName := some "f (a.js".toList, line := some 1, column := some 2
              functionName := some "new".toList } ∧
      parse ("at ".toList ++ frame.callSite.render) ≠ .ok frame := by
  intro frame
  have hplain : frame.Plain := by
    refine ⟨rfl, rfl, ⟨rfl, rfl⟩, ?_, by decide, ?_, ?_, ?_⟩
    · rintro ⟨⟩
    · rintro name ⟨⟩
      decide
    · rintro name - ⟨⟩
    · exact .file rfl rfl (by decide) (by decide) (by decide) rfl rfl rfl (by decide)
  have hread : parse ("at ".toList ++ frame.callSite.render) =
      .ok { fileName := some "f (a.js".toList, line := some 1, column := some 2
            functionName := some "new".toList } := by
    decide +kernel
  refine ⟨hplain, hread, ?_⟩
  rw [hread]
  decide

end MappedTrace.StackFrame
