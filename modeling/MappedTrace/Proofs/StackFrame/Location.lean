import MappedTrace.Proofs.CallSite.Alike
import MappedTrace.Proofs.Position.Rendering
import MappedTrace.Proofs.Text.Lines
import MappedTrace.StackFrame

/-!
# Reading a written location back

A written location says all that is needed of a frame if the frame is native, has a file or script,
or is in evaluated code. What is read back is then in the same place, as far as places are written
and moved.
-/

namespace MappedTrace.StackFrame

open CallSite (anonymous)

theorem numbers_render (position : Position) :
    numbers position.render = (position.source, some position.line, some position.column) := by
  rw [numbers, Position.cut?_render]
  dsimp only
  rw [Numeral.read?_write, Numeral.read?_write]

theorem cutOrigin_of_not_prefix {text : Text} (h : ¬ "eval at ".toList <+: text) :
    cutOrigin text = (none, text) := by
  rw [cutOrigin]
  cases hcut : Text.cutLast? ", ".toList text with
  | none => rfl
  | some parts =>
    obtain ⟨origin, rest⟩ := parts
    have hmark : "eval at ".toList.isPrefixOf origin = false := by
      rw [← Bool.not_eq_true, List.isPrefixOf_iff_prefix]
      intro hbegins
      rw [Text.eq_append_of_cutLast? hcut, List.append_assoc] at h
      exact h (hbegins.trans (List.prefix_append origin _))
    dsimp only
    rw [hmark]
    rfl

theorem cutOrigin_append {origin rest : Text} (hmark : "eval at ".toList <+: origin)
    (hrest : ',' ∉ rest) : cutOrigin (origin ++ ", ".toList ++ rest) = (some origin, rest) := by
  have hcomma : ',' ∉ [' '] ++ rest := by simpa using hrest
  rw [cutOrigin, show ", ".toList = [',', ' '] from rfl, Text.cutLast?_append origin hcomma]
  dsimp only
  rw [List.isPrefixOf_iff_prefix.mpr hmark]
  rfl

section

variable (base : StackFrame) {position : Position}

theorem parseLocation_native :
    parseLocation base "native".toList = { base with isNative := true } :=
  if_pos rfl

private theorem ne_native_of_colon {text : Text} (h : ':' ∈ text) : text ≠ "native".toList := by
  rintro rfl
  revert h
  decide

theorem parseLocation_named (hfilled : position.source ≠ []) (hreal : position.source ≠ anonymous)
    (hmark : ¬ "eval at ".toList <+: position.source) :
    parseLocation base position.render =
      { base with
        evalOrigin := none
        fileName := some position.source
        line := some position.line
        column := some position.column } := by
  have horigin : ¬ "eval at ".toList <+: position.render := by
    intro hbegins
    exact hmark (Position.prefix_source_of_prefix_render (by decide) hbegins)
  rw [parseLocation, if_neg (ne_native_of_colon position.colon_mem_render),
    cutOrigin_of_not_prefix horigin]
  dsimp only
  rw [numbers_render]
  simp [hfilled, hreal]

theorem parseLocation_evaluated {origin : Text} (hmark : "eval at ".toList <+: origin)
    (hsource : position.source = anonymous) :
    parseLocation base (origin ++ ", ".toList ++ position.render) =
      { base with
        evalOrigin := some origin
        fileName := none
        line := some position.line
        column := some position.column } := by
  have hcomma : ',' ∉ position.render := by
    apply Position.not_mem_render
    · rw [hsource]
      decide
    · decide
    · rfl
  have hcolon : ':' ∈ origin ++ ", ".toList ++ position.render :=
    List.mem_append_right _ position.colon_mem_render
  rw [parseLocation, if_neg (ne_native_of_colon hcolon), cutOrigin_append hmark hcomma]
  dsimp only
  rw [numbers_render]
  simp [hsource]

end

/-- The last character is neither a blank nor the parenthesis that closes a location. -/
def EndsOpen (text : Text) : Prop :=
  ∃ c, text.getLast? = some c ∧ Text.isBlank c = false ∧ c ≠ ')'

theorem EndsOpen.append {text : Text} (h : EndsOpen text) (front : Text) :
    EndsOpen (front ++ text) := by
  obtain ⟨c, hlast, hvisible⟩ := h
  exact ⟨c, by rw [List.getLast?_append, hlast, Option.some_or], hvisible⟩

theorem EndsOpen.endsVisibly {text : Text} (h : EndsOpen text) : Text.EndsVisibly text := by
  obtain ⟨c, hlast, hvisible, -⟩ := h
  exact ⟨c, hlast, hvisible⟩

theorem EndsOpen.not_suffix {text : Text} (h : EndsOpen text) : ¬ [')'] <:+ text := by
  rintro ⟨front, rfl⟩
  obtain ⟨c, hlast, -, hc⟩ := h
  rw [List.getLast?_concat] at hlast
  exact hc (Option.some.inj hlast).symm

theorem endsOpen_native : EndsOpen "native".toList :=
  ⟨'e', rfl, rfl, by decide⟩

theorem endsOpen_render (position : Position) : EndsOpen position.render := by
  obtain ⟨c, hdigit, hlast⟩ := position.exists_getLast?_render
  refine ⟨c, hlast, Text.isBlank_of_isDigit hdigit, ?_⟩
  rintro rfl
  contradiction

/-- Frames whose written location says all that is needed: they are native, have a file or script
with a line and a column that is written, or are in evaluated code. -/
inductive Located (frame : StackFrame) : Prop
  | native (native : frame.isNative = true)
  | named {source : Text} {line column : UInt32}
      (script : frame.sourceUrl.or frame.fileName = some source)
      (file : frame.fileName = none ∨ frame.fileName = some source)
      (filled : source ≠ []) (real : source ≠ anonymous)
      (unmarked : ¬ "eval at ".toList <+: source) (oneLine : '\n' ∉ source)
      (atLine : frame.line = some line) (atColumn : frame.column = some column)
      (later : column ≠ 0)
  | evaluated {origin : Text} {line column : UInt32} (file : frame.fileName = none)
      (url : frame.sourceUrl = none) (evalOrigin : frame.evalOrigin = some origin)
      (marked : "eval at ".toList <+: origin) (oneLine : '\n' ∉ origin)
      (atLine : frame.line = some line) (atColumn : frame.column = some column)
      (later : column ≠ 0)

/-- How the location of such a frame is written. -/
inductive Location (frame : StackFrame) : Text → Prop
  | native (native : frame.isNative = true) : Location frame "native".toList
  | named {position : Position} (foreign : frame.isNative = false)
      (script : frame.callSite.script = some position.source)
      (place : frame.callSite.position? = some position)
      (filled : position.source ≠ []) (real : position.source ≠ anonymous)
      (unmarked : ¬ "eval at ".toList <+: position.source) (oneLine : '\n' ∉ position.source)
      (atLine : frame.line = some position.line) (atColumn : frame.column = some position.column) :
    Location frame position.render
  | evaluated {origin : Text} {position : Position} (foreign : frame.isNative = false)
      (script : frame.callSite.script = none) (place : frame.callSite.position? = none)
      (evalOrigin : frame.evalOrigin = some origin) (marked : "eval at ".toList <+: origin)
      (oneLine : '\n' ∉ origin) (unnamed : position.source = anonymous)
      (atLine : frame.line = some position.line) (atColumn : frame.column = some position.column) :
    Location frame (origin ++ ", ".toList ++ position.render)

variable {frame : StackFrame} {text : Text}

theorem Located.location (h : Located frame) : Location frame frame.callSite.renderLocation := by
  cases hframe : frame.isNative with
  | true =>
    have hwritten : frame.callSite.renderLocation = "native".toList := if_pos hframe
    rw [hwritten]
    exact .native hframe
  | false =>
    cases h with
    | native hnative => simp [hframe] at hnative
    | @named source line column script file filled real unmarked oneLine atLine atColumn later =>
      have hwritten : frame.callSite.renderLocation = Position.render ⟨source, line, column⟩ :=
        CallSite.renderLocation_eq_render hframe script atLine atColumn later
      have hsource : frame.fileName.or (some source) = some source := by
        rcases file with hfile | hfile <;> rw [hfile] <;> rfl
      have hplace : frame.callSite.position? = some ⟨source, line, column⟩ := by
        simp only [CallSite.position?, callSite, script, hsource, atLine, atColumn]
        simp [Text.filled?, filled]
      rw [hwritten]
      exact .named hframe script hplace filled real unmarked oneLine atLine atColumn
    | @evaluated origin line column file url evalOrigin marked oneLine atLine atColumn later =>
      have hplace : frame.callSite.position? = none := by
        simp only [CallSite.position?, callSite, file, url]
        rfl
      have hscript : frame.callSite.script = none := by
        rw [callSite, url, file]
        rfl
      have heval : frame.callSite.isEval = true := congrArg Option.isSome evalOrigin
      rw [CallSite.renderLocation_eq_origin_render hframe hscript heval evalOrigin atLine atColumn
        later]
      exact .evaluated hframe hscript hplace evalOrigin marked oneLine rfl atLine atColumn

namespace Location

/-- The location is read back as it is written, where nothing of a place is known yet. -/
theorem alike_parseLocation (h : Location frame text) {base : StackFrame}
    (hurl : base.sourceUrl = none) (hnative : base.isNative = false)
    (hcallee : base.callSite.callee? = frame.callSite.callee?) :
    CallSite.Alike (parseLocation base text).callSite frame.callSite := by
  cases h with
  | native native =>
    rw [parseLocation_native]
    exact ⟨hcallee, native.symm, fun hforeign => nomatch hforeign⟩
  | @named position foreign script place filled real unmarked oneLine atLine atColumn =>
    rw [parseLocation_named base filled real unmarked]
    refine ⟨hcallee, hnative.trans foreign.symm, ?_⟩
    intro _
    refine ⟨?_, ?_, atLine.symm, atColumn.symm, ?_⟩
    · rw [place]
      simp [CallSite.position?, callSite, Text.filled?, filled]
    · rw [script]
      simp [callSite, hurl]
    · intro hscript
      simp [callSite, hurl] at hscript
  | @evaluated origin position foreign script place evalOrigin marked oneLine unnamed atLine
      atColumn =>
    rw [parseLocation_evaluated base marked unnamed]
    refine ⟨hcallee, hnative.trans foreign.symm, ?_⟩
    intro _
    refine ⟨?_, ?_, atLine.symm, atColumn.symm, ?_⟩
    · rw [place]
      simp [CallSite.position?, callSite, hurl]
    · rw [script]
      simp [callSite, hurl]
    · intro _
      exact ⟨evalOrigin.symm, by simp [callSite, evalOrigin]⟩

theorem lineFeed_not_mem (h : Location frame text) : '\n' ∉ text := by
  cases h with
  | native => decide
  | named _ _ _ _ _ _ oneLine => exact Position.not_mem_render oneLine (by decide) rfl
  | @evaluated origin position _ _ _ _ _ oneLine unnamed =>
    have hsource : '\n' ∉ position.source := by
      rw [unnamed]
      decide
    have hplace := Position.not_mem_render hsource (by decide) rfl
    rw [List.mem_append, List.mem_append, not_or, not_or]
    exact ⟨⟨oneLine, by decide⟩, hplace⟩

theorem endsOpen (h : Location frame text) : EndsOpen text := by
  cases h with
  | native => exact endsOpen_native
  | @named position => exact endsOpen_render position
  | @evaluated origin position => exact (endsOpen_render position).append _

end Location

end MappedTrace.StackFrame
