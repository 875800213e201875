import MappedTrace.Proofs.EvalOrigin.Core

/-!
# Call sites that are written alike

Not all that is known of a call site is written: a native one has no place, and one with a script no
eval origin. Two call sites that agree on all the rest are written alike, and so they are after both
were moved.
-/

namespace MappedTrace.CallSite

private theorem ne_nil_of_bind_filled? {name : Option Text} {text : Text}
    (h : name.bind Text.filled? = some text) : text ≠ [] := by
  obtain ⟨whole, -, hwhole⟩ := Option.bind_eq_some_iff.mp h
  exact (Text.filled?_eq_some_iff.mp hwhole).2

theorem renderMethod_ne_nil {functionName methodName : Option Text} (typeName : Option Text)
    (hfunction : functionName ≠ some []) (hmethod : methodName ≠ some []) :
    renderMethod typeName functionName methodName ≠ [] := by
  cases functionName with
  | none =>
    rw [renderMethod]
    apply List.append_ne_nil_of_right_ne_nil
    cases methodName with
    | none => exact List.cons_ne_nil _ _
    | some method => simpa using hmethod
  | some function =>
    have hfilled : function ≠ [] := by simpa using hfunction
    rw [renderMethod]
    apply List.append_ne_nil_of_left_ne_nil
    exact List.append_ne_nil_of_right_ne_nil _ hfilled

theorem callee?_ne_nil {site : CallSite} {callee : Text} (h : site.callee? = some callee) :
    callee ≠ [] := by
  unfold callee? at h
  dsimp only at h
  split at h
  · rw [← Option.some.inj h]
    exact List.append_ne_nil_of_left_ne_nil (by decide) _
  · split at h
    · exact ne_nil_of_bind_filled? h
    · rw [← Option.some.inj h]
      exact renderMethod_ne_nil _ (fun hempty => ne_nil_of_bind_filled? hempty rfl)
        (fun hempty => ne_nil_of_bind_filled? hempty rfl)

/-- Call sites that say the same of the call, wherever they say that it stands. -/
structure SameCall (site other : CallSite) : Prop where
  functionName : site.functionName = other.functionName
  typeName : site.typeName = other.typeName
  methodName : site.methodName = other.methodName
  isToplevel : site.isToplevel = other.isToplevel
  isEval : site.isEval = other.isEval
  isNative : site.isNative = other.isNative
  isConstructor : site.isConstructor = other.isConstructor

theorem SameCall.refl (site : CallSite) : SameCall site site :=
  ⟨rfl, rfl, rfl, rfl, rfl, rfl, rfl⟩

theorem SameCall.trans {first second third : CallSite} (h : SameCall first second)
    (hnext : SameCall second third) : SameCall first third where
  functionName := h.functionName.trans hnext.functionName
  typeName := h.typeName.trans hnext.typeName
  methodName := h.methodName.trans hnext.methodName
  isToplevel := h.isToplevel.trans hnext.isToplevel
  isEval := h.isEval.trans hnext.isEval
  isNative := h.isNative.trans hnext.isNative
  isConstructor := h.isConstructor.trans hnext.isConstructor

theorem SameCall.callee? {site other : CallSite} (h : SameCall site other) :
    site.callee? = other.callee? := by
  unfold CallSite.callee?
  rw [h.functionName, h.typeName, h.methodName, h.isToplevel, h.isConstructor]

/-- The call site is at a position in generated code, by its file or else its script. -/
structure PlacedAt (site : CallSite) (position : Position) : Prop where
  source : site.fileName.or site.script = some position.source
  filled : position.source ≠ []
  line : site.line = some position.line
  column : position.column = site.column.getD 0

theorem position?_eq_some_iff {site : CallSite} {position : Position} :
    site.position? = some position ↔ site.PlacedAt position := by
  constructor
  · intro h
    simp only [position?, Option.bind_eq_bind, Option.bind_eq_some_iff] at h
    obtain ⟨source, ⟨whole, hwhole, hfilled⟩, line, hline, h⟩ := h
    obtain rfl := Option.some.inj h
    obtain ⟨rfl, hne⟩ := Text.filled?_eq_some_iff.mp hfilled
    exact ⟨hwhole, hne, hline, rfl⟩
  · rintro ⟨hsource, hfilled, hline, hcolumn⟩
    rw [position?, hsource, hline, ← hcolumn, Option.bind_some,
      Text.filled?_eq_some_iff.mpr ⟨rfl, hfilled⟩]
    rfl

theorem position?_eq_none_iff {site : CallSite} :
    site.position? = none ↔ ∀ position, ¬ site.PlacedAt position := by
  simp only [Option.eq_none_iff_forall_ne_some, ne_eq, position?_eq_some_iff]

section

variable {site other : CallSite} (move : Position → Position)

theorem movedBy_of_position?_eq_some {position : Position} (h : site.position? = some position) :
    site.movedBy move = site.moved (.position (move position)) := by
  rw [movedBy, h]

theorem movedBy_of_position?_eq_none (h : site.position? = none) :
    site.movedBy move =
      { site with evalOrigin := site.evalOrigin.map (EvalOrigin.movedBy move) } := by
  rw [movedBy, h]
  cases horigin : site.evalOrigin with
  | some origin => rfl
  | none =>
    have hsame : site = { site with evalOrigin := none } := by rw [← horigin]
    exact hsame

theorem sameCall_movedBy (site : CallSite) : SameCall (site.movedBy move) site := by
  rw [movedBy]
  split <;> exact ⟨rfl, rfl, rfl, rfl, rfl, rfl, rfl⟩

theorem callee?_movedBy : (site.movedBy move).callee? = site.callee? :=
  (sameCall_movedBy move site).callee?

theorem isNative_movedBy : (site.movedBy move).isNative = site.isNative :=
  (sameCall_movedBy move site).isNative

theorem isEval_movedBy : (site.movedBy move).isEval = site.isEval :=
  (sameCall_movedBy move site).isEval

/-- Call sites that are in the same place, as far as it is written and moved. -/
structure SamePlace (site other : CallSite) : Prop where
  position : site.position? = other.position?
  script : site.script = other.script
  line : site.line = other.line
  column : site.column = other.column
  evaluated : site.script = none →
    site.evalOrigin = other.evalOrigin ∧ site.isEval = other.isEval

/-- Call sites that differ in nothing that is written of them. -/
structure Alike (site other : CallSite) : Prop where
  callee : site.callee? = other.callee?
  native : site.isNative = other.isNative
  place : site.isNative = false → SamePlace site other

theorem Alike.renderLocation (h : Alike site other) :
    site.renderLocation = other.renderLocation := by
  unfold CallSite.renderLocation
  cases hnative : site.isNative with
  | true => rw [← h.native, hnative, if_pos rfl, if_pos rfl]
  | false =>
    have hplace := h.place hnative
    rw [← h.native, hnative, ← hplace.script, ← hplace.line, ← hplace.column]
    cases hscript : site.script with
    | none =>
      obtain ⟨horigin, heval⟩ := hplace.evaluated hscript
      rw [← horigin, ← heval]
    | some script => cases site.evalOrigin <;> cases other.evalOrigin <;> rfl

theorem Alike.render (h : Alike site other) : site.render = other.render := by
  rw [CallSite.render, CallSite.render, h.callee, h.renderLocation]

theorem SamePlace.movedBy (h : SamePlace site other) :
    SamePlace (site.movedBy move) (other.movedBy move) := by
  cases hposition : site.position? with
  | some position =>
    rw [movedBy_of_position?_eq_some move hposition,
      movedBy_of_position?_eq_some move (h.position.symm.trans hposition)]
    exact ⟨rfl, rfl, rfl, rfl, fun hscript => nomatch hscript⟩
  | none =>
    rw [movedBy_of_position?_eq_none move hposition,
      movedBy_of_position?_eq_none move (h.position.symm.trans hposition)]
    refine ⟨h.position, h.script, h.line, h.column, fun hscript => ?_⟩
    obtain ⟨horigin, heval⟩ := h.evaluated hscript
    exact ⟨congrArg (Option.map (EvalOrigin.movedBy move)) horigin, heval⟩

theorem Alike.movedBy (h : Alike site other) :
    Alike (site.movedBy move) (other.movedBy move) where
  callee := by rw [callee?_movedBy, callee?_movedBy, h.callee]
  native := by rw [isNative_movedBy, isNative_movedBy, h.native]
  place hnative := (h.place (isNative_movedBy move ▸ hnative)).movedBy move

end

end MappedTrace.CallSite
