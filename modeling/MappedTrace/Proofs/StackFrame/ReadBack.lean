import MappedTrace.Proofs.StackFrame.Location

/-!
# Reading a written frame back

A frame that is written to a line and read back is not the same frame: all that was running is in
its name now. But its call site is written alike, and so are the two when both are moved.
-/

namespace MappedTrace.StackFrame

open CallSite (anonymous)

/-- Frames that are read back: their location says all that is needed, and what is said of the call
is told from it by the first parenthesis. -/
structure Readable (frame : StackFrame) : Prop where
  located : Located frame
  oneLine : ∀ callee, frame.callSite.callee? = some callee → '\n' ∉ callee
  closed : ∀ callee, frame.callSite.callee? = some callee → ¬ " (".toList <:+: callee
  named : ∀ callee, frame.callSite.callee? = some callee → callee ≠ "new ".toList

theorem parseCallee_bare (callee : Text) :
    (parseCallee callee).sourceUrl = none ∧ (parseCallee callee).isNative = false := by
  rw [parseCallee]
  split <;> exact ⟨rfl, rfl⟩

theorem callee?_parseCallee {callee : Text} (hfilled : callee ≠ [])
    (hnamed : callee ≠ "new ".toList) : (parseCallee callee).callSite.callee? = some callee := by
  have hsome {name : Text} (h : name ≠ []) : (some name).bind Text.filled? = some name := by
    simp [Text.filled?, h]
  unfold parseCallee
  cases hnew : "new ".toList.isPrefixOf? callee with
  | none => exact hsome hfilled
  | some name =>
    have happend : "new ".toList ++ name = callee := List.isPrefixOf?_eq_some_iff_append_eq.mp hnew
    have hname : name ≠ [] := by
      intro hempty
      rw [hempty, List.append_nil] at happend
      exact hnamed happend.symm
    have hcallee : some ("new ".toList ++ ((some name).bind Text.filled?).getD anonymous) =
        some callee := by
      rw [hsome hname, Option.getD_some, happend]
    exact hcallee

theorem parseBody_called {callee : Text} (hfirst : ¬ " (".toList <:+: callee) (location : Text) :
    parseBody (callee ++ " (".toList ++ location ++ [')']) =
      parseLocation (parseCallee callee) location := by
  have hsuffix : [')'].isSuffixOf? (callee ++ " (".toList ++ location ++ [')']) =
      some (callee ++ " (".toList ++ location) :=
    List.isSuffixOf?_eq_some_iff_append_eq.mpr rfl
  have hopen : ¬ " (".toList <:+: callee ++ " (".toList.dropLast :=
    Text.not_infix_append_singleton hfirst (by decide)
  rw [parseBody, hsuffix, Option.bind_some, Text.cutFirst?_append (by decide) hopen]

/-- A location stands alone where no parenthesis is closed at its end, or none opened behind a
blank. -/
theorem parseBody_alone {body : Text} (h : ¬ [')'] <:+ body ∨ ¬ " (".toList <:+: body) :
    parseBody body = parseLocation {} body := by
  have hnone : ([')'].isSuffixOf? body).bind (Text.cutFirst? " (".toList) = none := by
    rw [Option.bind_eq_none_iff]
    intro front hfront
    have hbody := List.isSuffixOf?_eq_some_iff_append_eq.mp hfront
    rcases h with hopen | houtside
    · exact absurd ⟨front, hbody⟩ hopen
    · apply Text.cutFirst?_eq_none
      intro hinside
      exact houtside (hinside.trans ⟨[], [')'], hbody⟩)
  rw [parseBody, hnone]

theorem parseBody_render {site : CallSite} (hlast : EndsOpen site.renderLocation)
    (hclosed : ∀ callee, site.callee? = some callee → ¬ " (".toList <:+: callee) :
    parseBody site.render =
      parseLocation ((site.callee?.map parseCallee).getD {}) site.renderLocation := by
  unfold CallSite.render
  cases hcallee : site.callee? with
  | none => exact parseBody_alone (.inl hlast.not_suffix)
  | some callee => exact parseBody_called (hclosed callee hcallee) site.renderLocation

def frameLine (site : CallSite) : Text :=
  "    at ".toList ++ site.render

theorem endsVisibly_render {site : CallSite} (h : Text.EndsVisibly site.renderLocation) :
    Text.EndsVisibly site.render := by
  rw [CallSite.render]
  cases site.callee? with
  | none => exact h
  | some callee => exact ⟨')', List.getLast?_concat, rfl⟩

theorem parse_of_trim_eq {line body : Text} (h : Text.trim line = "at ".toList ++ body) :
    parse line = .ok (parseBody body) := by
  rw [parse]
  rw [h, Text.isPrefixOf?_append]
  rfl

theorem parse_marked {body : Text} (h : Text.EndsVisibly body) :
    parse ("at ".toList ++ body) = .ok (parseBody body) := by
  have hstart : Text.trimStart ("at ".toList ++ body) = "at ".toList ++ body := rfl
  apply parse_of_trim_eq
  rw [Text.trim, hstart, (h.append "at ".toList).trimEnd_eq]

theorem parse_frameLine {site : CallSite} (h : Text.EndsVisibly site.render) :
    parse (frameLine site) = .ok (parseBody site.render) := by
  have hstart : Text.trimStart (frameLine site) = "at ".toList ++ site.render := rfl
  have htrim : Text.trim (frameLine site) = "at ".toList ++ site.render := by
    rw [Text.trim, hstart, (h.append "at ".toList).trimEnd_eq]
  exact parse_of_trim_eq htrim

theorem exists_parse_eq_error {line : Text} (h : ¬ "at ".toList <+: Text.trim line) :
    ∃ fault, parse line = .error fault := by
  rw [parse]
  split
  · exact ⟨_, rfl⟩
  · rw [Text.isPrefixOf?_eq_none_iff.mpr h]
    exact ⟨_, rfl⟩

namespace Readable

variable {frame : StackFrame}

theorem endsVisibly (h : Readable frame) : Text.EndsVisibly frame.callSite.render :=
  endsVisibly_render h.located.location.endsOpen.endsVisibly

theorem lineFeed_not_mem (h : Readable frame) : '\n' ∉ frameLine frame.callSite := by
  have hlocation := h.located.location.lineFeed_not_mem
  have hmark : '\n' ∉ "    at ".toList ∧ '\n' ∉ " (".toList ∧ '\n' ∉ [')'] := by decide
  unfold frameLine CallSite.render
  cases hcallee : frame.callSite.callee? with
  | none =>
    rw [List.mem_append, not_or]
    exact ⟨hmark.1, hlocation⟩
  | some callee =>
    simp only [List.mem_append, not_or]
    exact ⟨hmark.1, ⟨⟨h.oneLine callee hcallee, hmark.2.1⟩, hlocation⟩, hmark.2.2⟩

/-- The frame that is read from the line of another is written alike. -/
theorem exists_parse (h : Readable frame) :
    ∃ read, parse (frameLine frame.callSite) = .ok read ∧
      CallSite.Alike read.callSite frame.callSite := by
  rw [parse_frameLine h.endsVisibly, parseBody_render h.located.location.endsOpen h.closed]
  refine ⟨_, rfl, ?_⟩
  cases hcallee : frame.callSite.callee? with
  | none => exact h.located.location.alike_parseLocation rfl rfl hcallee.symm
  | some callee =>
    have hread := callee?_parseCallee (CallSite.callee?_ne_nil hcallee) (h.named callee hcallee)
    obtain ⟨hurl, hforeign⟩ := parseCallee_bare callee
    exact h.located.location.alike_parseLocation hurl hforeign (hread.trans hcallee.symm)

end Readable

end MappedTrace.StackFrame
