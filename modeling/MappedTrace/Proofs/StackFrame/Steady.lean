import MappedTrace.Proofs.CallSite.Alike
import MappedTrace.Proofs.EvalOrigin.Plain
import MappedTrace.Proofs.StackTrace.Remapping

/-!
# Frames that are written as before when nothing moves

A frame that is moved to where it already is has its place put together anew: from its file name
rather than its source url, and with the numbers of its eval origin written again. What is written
of it stays the same exactly if neither of these makes a difference.
-/

namespace MappedTrace

namespace CallSite

variable {site : CallSite}

section

variable (move : Position → Position) (h : site.position? = none)

include h

theorem script_movedBy : (site.movedBy move).script = site.script := by
  rw [movedBy_of_position?_eq_none move h]

theorem line_movedBy : (site.movedBy move).line = site.line := by
  rw [movedBy_of_position?_eq_none move h]

theorem column_movedBy : (site.movedBy move).column = site.column := by
  rw [movedBy_of_position?_eq_none move h]

theorem evalOrigin_movedBy :
    (site.movedBy move).evalOrigin = site.evalOrigin.map (EvalOrigin.movedBy move) := by
  rw [movedBy_of_position?_eq_none move h]

end

theorem renderLocation_movedBy (move : Position → Position) {position : Position}
    (hforeign : site.isNative = false) (h : site.position? = some position) :
    (site.movedBy move).renderLocation = (move position).source ++
      renderNumbers (some (move position).line) (some (move position).column) := by
  rw [movedBy_of_position?_eq_some move h]
  exact renderLocation_of_script hforeign rfl

theorem render_movedBy_eq_iff (move : Position → Position) :
    (site.movedBy move).render = site.render ↔
      (site.movedBy move).renderLocation = site.renderLocation := by
  rw [render, render, callee?_movedBy]
  cases site.callee? with
  | none => rfl
  | some callee => simp

end CallSite

namespace StackFrame

/-- What it takes for a frame to be written as before when it is moved nowhere. A native frame has
no place; of all others a source url has to agree with the file name that goes before it, and
without either the numbers of the eval origin must have no leading zeros. -/
structure Steady (frame : StackFrame) : Prop where
  named : frame.isNative = false → frame.line ≠ none → ∀ file url, frame.fileName = some file →
    file ≠ [] → frame.sourceUrl = some url → url = file
  evaluated : frame.isNative = false → frame.fileName = none → frame.sourceUrl = none →
    ∀ origin, frame.evalOrigin = some origin → EvalOrigin.IsPlain origin

variable {frame : StackFrame}

theorem script_eq_iff {source : Text} (h : frame.fileName.or frame.callSite.script = some source) :
    frame.callSite.script = some source ↔
      ∀ file url, frame.fileName = some file → frame.sourceUrl = some url → url = file := by
  simp only [callSite] at h ⊢
  cases hfile : frame.fileName <;> cases hurl : frame.sourceUrl <;> simp_all

theorem steady_iff_of_position? {position : Position} (hforeign : frame.isNative = false)
    (h : frame.callSite.position? = some position) :
    frame.Steady ↔ frame.callSite.script = some position.source := by
  obtain ⟨hsource, hfilled, hline, -⟩ := CallSite.position?_eq_some_iff.mp h
  have hplaced : frame.line ≠ none := by
    rw [show frame.line = some position.line from hline]
    exact Option.some_ne_none _
  rw [script_eq_iff hsource]
  constructor
  · intro hsteady file url hfile hurl
    have hsame : file = position.source := by
      have hor : frame.fileName.or _ = some position.source := hsource
      rw [hfile] at hor
      exact Option.some.inj hor
    exact hsteady.named hforeign hplaced file url hfile (hsame ▸ hfilled) hurl
  · intro hagree
    refine ⟨fun _ _ file url hfile _ hurl => hagree file url hfile hurl, ?_⟩
    intro _ hfile hurl
    have hor : frame.fileName.or (frame.sourceUrl.or frame.fileName) = some position.source :=
      hsource
    simp [hfile, hurl] at hor

theorem renderLocation_of_position? {position : Position} (hforeign : frame.isNative = false)
    (h : frame.callSite.position? = some position) :
    (frame.callSite.movedBy id).renderLocation = frame.callSite.renderLocation ↔
      frame.callSite.script = some position.source := by
  obtain ⟨hsource, -, hline, hcolumn⟩ := CallSite.position?_eq_some_iff.mp h
  obtain ⟨script, hscript⟩ : ∃ script, frame.callSite.script = some script := by
    simp only [callSite] at hsource ⊢
    cases hfile : frame.fileName <;> cases hurl : frame.sourceUrl <;> simp_all
  have hnumbers : CallSite.renderNumbers (some position.line) (some position.column) =
      CallSite.renderNumbers frame.callSite.line frame.callSite.column := by
    rw [hline]
    exact StackTrace.renderNumbers_congr _ hcolumn
  rw [CallSite.renderLocation_movedBy id hforeign h, id, hnumbers,
    CallSite.renderLocation_of_script hforeign hscript, List.append_cancel_right_eq, hscript,
    Option.some.injEq, eq_comm]

theorem renderLocation_of_position?_eq_none (hforeign : frame.isNative = false)
    (h : frame.callSite.position? = none) :
    (frame.callSite.movedBy id).renderLocation = frame.callSite.renderLocation ↔
      (frame.fileName = none → frame.sourceUrl = none →
        ∀ origin, frame.evalOrigin = some origin → EvalOrigin.IsPlain origin) := by
  have hnative : (frame.callSite.movedBy id).isNative = false :=
    (CallSite.isNative_movedBy id).trans hforeign
  have hmovedScript := CallSite.script_movedBy id h
  have hmovedOrigin := CallSite.evalOrigin_movedBy id h
  cases hscript : frame.callSite.script with
  | some script =>
    rw [CallSite.renderLocation_of_script hnative (hmovedScript.trans hscript),
      CallSite.renderLocation_of_script hforeign hscript, CallSite.line_movedBy id h,
      CallSite.column_movedBy id h]
    refine iff_of_true rfl ?_
    intro hfile hurl
    simp [callSite, hfile, hurl] at hscript
  | none =>
    obtain ⟨hurl, hfile⟩ : frame.sourceUrl = none ∧ frame.fileName = none := by
      simpa [callSite] using hscript
    cases horigin : frame.evalOrigin with
    | none =>
      have hstays : frame.callSite.movedBy id = frame.callSite := by
        rw [CallSite.movedBy, h, show frame.callSite.evalOrigin = none from horigin]
      rw [hstays]
      simp
    | some origin =>
      have hsome : frame.callSite.evalOrigin = some origin := horigin
      have heval : frame.callSite.isEval = true := congrArg Option.isSome horigin
      rw [hsome] at hmovedOrigin
      rw [CallSite.renderLocation_of_origin hnative (hmovedScript.trans hscript)
          ((CallSite.isEval_movedBy id).trans heval) hmovedOrigin,
        CallSite.renderLocation_of_origin hforeign hscript heval hsome, CallSite.line_movedBy id h,
        CallSite.column_movedBy id h, List.append_cancel_right_eq, EvalOrigin.movedBy_id_eq_iff]
      simp [hfile, hurl]

/-- Moving a frame nowhere leaves what is written of it exactly if the frame is steady. -/
theorem render_movedBy_id_iff (frame : StackFrame) :
    (frame.callSite.movedBy id).render = frame.callSite.render ↔ frame.Steady := by
  rw [CallSite.render_movedBy_eq_iff]
  cases hnative : frame.isNative with
  | true =>
    have hkept : frame.callSite.renderLocation = "native".toList := if_pos hnative
    have hmoved : (frame.callSite.movedBy id).renderLocation = "native".toList :=
      if_pos ((CallSite.isNative_movedBy id).trans hnative)
    rw [hkept, hmoved]
    refine iff_of_true rfl ⟨?_, ?_⟩ <;> simp [hnative]
  | false =>
    cases hposition : frame.callSite.position? with
    | some position =>
      rw [renderLocation_of_position? hnative hposition, steady_iff_of_position? hnative hposition]
    | none =>
      rw [renderLocation_of_position?_eq_none hnative hposition]
      constructor
      · intro hplain
        refine ⟨?_, fun _ => hplain⟩
        intro _ hline file url hfile hfilled hurl
        obtain ⟨line, hline⟩ := Option.ne_none_iff_exists'.mp hline
        simp [CallSite.position?, callSite, hfile, hline, Text.filled?, hfilled] at hposition
      · intro hsteady
        exact hsteady.evaluated hnative

end StackFrame

end MappedTrace
