import MappedTrace.Proofs.StackFrame.ReadBack
import MappedTrace.Proofs.StackFrame.Steady

/-!
# Frames that are read with an eval origin

A line that an eval origin is read from holds it in front of a comma, alone or in parentheses behind
a function. If the frame has no position to be moved, the line that is written for it when nothing
moves is the old one only if the eval origin is.
-/

namespace MappedTrace.StackFrame

open CallSite (anonymous)

/-- A frame that was read with an eval origin in front of the rest of its location. -/
def evaluatedAt (base : StackFrame) (origin rest : Text) : StackFrame :=
  let (file, line, column) := numbers rest
  { base with
    evalOrigin := some origin
    fileName := if file.isEmpty || file = anonymous then none else some file
    line
    column }

/-- How the body of a line holds an eval origin. -/
inductive ReadEvaluated (origin rest : Text) : Text → StackFrame → Prop
  | alone : ReadEvaluated origin rest (origin ++ (", ".toList ++ rest)) (evaluatedAt {} origin rest)
  | called (callee : Text) :
    ReadEvaluated origin rest (callee ++ " (".toList ++ (origin ++ (", ".toList ++ rest) ++ [')']))
      (evaluatedAt (parseCallee callee) origin rest)

theorem evalOrigin_parseCallee (callee : Text) : (parseCallee callee).evalOrigin = none := by
  rw [parseCallee]
  split <;> rfl

theorem sourceUrl_parseLocation (base : StackFrame) (text : Text) :
    (parseLocation base text).sourceUrl = base.sourceUrl := by
  rw [parseLocation]
  split <;> rfl

theorem sourceUrl_parseBody (body : Text) : (parseBody body).sourceUrl = none := by
  unfold parseBody
  split
  · rw [sourceUrl_parseLocation]
    exact (parseCallee_bare _).1
  · rw [sourceUrl_parseLocation]

theorem eq_append_of_cutOrigin {text origin rest : Text}
    (h : cutOrigin text = (some origin, rest)) :
    text = origin ++ (", ".toList ++ rest) ∧ "eval at ".toList <+: origin := by
  unfold cutOrigin at h
  cases hcut : Text.cutLast? ", ".toList text with
  | none =>
    rw [hcut] at h
    cases h
  | some parts =>
    obtain ⟨front, behind⟩ := parts
    rw [hcut] at h
    dsimp only at h
    cases hmark : "eval at ".toList.isPrefixOf front with
    | false =>
      rw [hmark] at h
      cases h
    | true =>
      rw [hmark] at h
      obtain ⟨horigin, rfl⟩ := Prod.mk.inj h
      obtain rfl := Option.some.inj horigin
      refine ⟨?_, List.isPrefixOf_iff_prefix.mp hmark⟩
      rw [Text.eq_append_of_cutLast? hcut, List.append_assoc]

theorem parseLocation_eq_evaluatedAt {base : StackFrame} {text origin : Text}
    (hbase : base.evalOrigin = none) (h : (parseLocation base text).evalOrigin = some origin) :
    ∃ rest, text = origin ++ (", ".toList ++ rest) ∧ "eval at ".toList <+: origin ∧
      parseLocation base text = evaluatedAt base origin rest := by
  by_cases hnative : text = "native".toList
  · rw [hnative, parseLocation_native] at h
    exact absurd (hbase.symm.trans h) (by simp)
  · rw [parseLocation, if_neg hnative] at h ⊢
    cases hcut : cutOrigin text with
    | mk front rest =>
      rw [hcut] at h
      obtain rfl : front = some origin := h
      obtain ⟨htext, hmark⟩ := eq_append_of_cutOrigin hcut
      exact ⟨rest, htext, hmark, rfl⟩

theorem exists_readEvaluated {body origin : Text} (h : (parseBody body).evalOrigin = some origin) :
    "eval at ".toList <+: origin ∧ ∃ rest, ReadEvaluated origin rest body (parseBody body) := by
  revert h
  unfold parseBody
  split
  · rename_i callee location hcut
    intro h
    obtain ⟨rest, htext, hmark, hframe⟩ :=
      parseLocation_eq_evaluatedAt (evalOrigin_parseCallee callee) h
    obtain ⟨front, hfront, hfirst⟩ := Option.bind_eq_some_iff.mp hcut
    have hbody : body = callee ++ " (".toList ++ (origin ++ (", ".toList ++ rest) ++ [')']) := by
      rw [← List.isSuffixOf?_eq_some_iff_append_eq.mp hfront, Text.eq_append_of_cutFirst? hfirst,
        htext, List.append_assoc]
    rw [hframe, hbody]
    exact ⟨hmark, rest, .called callee⟩
  · intro h
    obtain ⟨rest, htext, hmark, hframe⟩ := parseLocation_eq_evaluatedAt rfl h
    rw [hframe, htext]
    exact ⟨hmark, rest, .alone⟩

theorem numbers_eq_of_line_eq_none {text : Text} (h : (numbers text).2.1 = none) :
    numbers text = (text, none, none) := by
  have hshort : ∀ other : Text, (fileAndLine other).2.1 = none →
      fileAndLine other = (other, none, none) := by
    intro other
    unfold fileAndLine
    split
    · exact fun _ => rfl
    · split
      · exact fun _ => rfl
      · intro hline
        contradiction
  revert h
  unfold numbers
  split
  · exact hshort text
  · split
    · intro hline
      contradiction
    · exact hshort text

/-- Where evaluated code without a position is: at its origin, or else at the rest of its location
alone. -/
theorem renderLocation_evaluatedAt {base : StackFrame} {origin rest : Text}
    (hurl : base.sourceUrl = none) (hforeign : base.isNative = false)
    (h : (evaluatedAt base origin rest).callSite.position? = none) (move : Position → Position) :
    (∃ behind, ((evaluatedAt base origin rest).callSite.movedBy move).renderLocation =
      EvalOrigin.movedBy move origin ++ behind) ∨
    ((evaluatedAt base origin rest).callSite.movedBy move).renderLocation = rest := by
  let site := (evaluatedAt base origin rest).callSite
  have hnative : (site.movedBy move).isNative = false :=
    (CallSite.isNative_movedBy move).trans hforeign
  have hscript := CallSite.script_movedBy move h
  cases hfile : (evaluatedAt base origin rest).fileName with
  | none =>
    have hnone : site.script = none := by
      show (evaluatedAt base origin rest).sourceUrl.or _ = none
      rw [hfile, Option.or_none]
      exact hurl
    have heval : (site.movedBy move).isEval = true := CallSite.isEval_movedBy move
    exact .inl ⟨_, CallSite.renderLocation_of_origin hnative (hscript.trans hnone) heval
      (CallSite.evalOrigin_movedBy move h)⟩
  | some file =>
    right
    have hfilled : file ≠ [] := by
      intro hempty
      simp only [evaluatedAt] at hfile
      split at hfile
      · contradiction
      · rename_i hreal
        obtain rfl := Option.some.inj hfile
        simp [hempty] at hreal
    have hline : (numbers rest).2.1 = none := by
      cases hline : (numbers rest).2.1 with
      | none => rfl
      | some line =>
        have hplaced : (evaluatedAt base origin rest).line = some line := hline
        simp [CallSite.position?, callSite, hfile, hplaced, Text.filled?, hfilled] at h
    have hnumbers := numbers_eq_of_line_eq_none hline
    have hwhole : file = rest := by
      simp only [evaluatedAt, hnumbers] at hfile
      split at hfile
      · contradiction
      · exact (Option.some.inj hfile).symm
    have hsome : site.script = some rest := by
      show (evaluatedAt base origin rest).sourceUrl.or _ = some rest
      rw [hfile, hwhole, show (evaluatedAt base origin rest).sourceUrl = none from hurl,
        Option.none_or]
    have hnoLine : (site.movedBy move).line = none :=
      (CallSite.line_movedBy move h).trans (congrArg (·.2.1) hnumbers)
    rw [CallSite.renderLocation_of_script hnative (hscript.trans hsome), hnoLine]
    exact List.append_nil rest

theorem movedBy_id_eq_of_renderLocation {base : StackFrame} {origin rest before tail : Text}
    (hurl : base.sourceUrl = none) (hforeign : base.isNative = false)
    (hplace : (evaluatedAt base origin rest).callSite.position? = none)
    (hshort : before.length ≤ tail.length)
    (h : ((evaluatedAt base origin rest).callSite.movedBy id).renderLocation ++ before =
      origin ++ (", ".toList ++ rest) ++ tail) :
    EvalOrigin.movedBy id origin = origin := by
  rcases renderLocation_evaluatedAt hurl hforeign hplace id with ⟨behind, hat⟩ | halone
  · rw [hat, List.append_assoc, List.append_assoc] at h
    exact EvalOrigin.movedBy_id_eq_of_append_eq h
  · have hlength := congrArg List.length (halone ▸ h)
    simp only [List.length_append] at hlength
    have hcomma : 0 < ", ".toList.length := by decide
    omega

theorem renderLocation_ne_opened {base : StackFrame} {origin rest tail : Text}
    (hurl : base.sourceUrl = none) (hforeign : base.isNative = false)
    (hmark : "eval at ".toList <+: origin)
    (hplace : (evaluatedAt base origin rest).callSite.position? = none) :
    ((evaluatedAt base origin rest).callSite.movedBy id).renderLocation ≠
      [] ++ " (".toList ++ (origin ++ (", ".toList ++ rest) ++ [')']) ++ tail := by
  intro h
  rcases renderLocation_evaluatedAt hurl hforeign hplace id with ⟨behind, hat⟩ | halone
  · obtain ⟨core, hcore⟩ := EvalOrigin.prefix_movedBy id hmark
    have hhead := congrArg List.head? (hat.symm.trans h)
    rw [← hcore] at hhead
    have hfirst : some 'e' = some ' ' := hhead
    simp at hfirst
  · have hlength := congrArg List.length (halone.symm.trans h)
    simp only [List.length_append] at hlength
    have hcomma : 0 < ", ".toList.length := by decide
    omega

theorem callee?_evaluatedAt (base : StackFrame) (origin rest : Text) :
    (evaluatedAt base origin rest).callSite.callee? = base.callSite.callee? :=
  rfl

/-- A line that holds an eval origin begins like the one that is written for its frame when nothing
moves only if the origin is written as before. -/
theorem ReadEvaluated.movedBy_id_eq {origin rest body tail : Text} {frame : StackFrame}
    (h : ReadEvaluated origin rest body frame) (hmark : "eval at ".toList <+: origin)
    (hplace : frame.callSite.position? = none)
    (hrender : (frame.callSite.movedBy id).render = body ++ tail) :
    EvalOrigin.movedBy id origin = origin := by
  rw [CallSite.render, CallSite.callee?_movedBy] at hrender
  cases h with
  | alone =>
    rw [callee?_evaluatedAt] at hrender
    rw [← List.append_nil (CallSite.renderLocation _)] at hrender
    exact movedBy_id_eq_of_renderLocation rfl rfl hplace (Nat.zero_le _) hrender
  | called callee =>
    obtain ⟨hurl, hforeign⟩ := parseCallee_bare callee
    rw [callee?_evaluatedAt] at hrender
    by_cases hempty : callee = []
    · subst hempty
      have hcallee : (parseCallee []).callSite.callee? = none := rfl
      rw [hcallee] at hrender
      exact absurd hrender (renderLocation_ne_opened hurl hforeign hmark hplace)
    by_cases hnew : callee = "new ".toList
    · subst hnew
      have hcallee : (parseCallee "new ".toList).callSite.callee? =
          some "new <anonymous>".toList := by decide
      rw [hcallee] at hrender
      have hfifth : some '<' = some ' ' := congrArg (fun text : Text => text[4]?) hrender
      simp at hfifth
    rw [callee?_parseCallee hempty hnew] at hrender
    dsimp only at hrender
    rw [List.append_assoc, List.append_assoc _ _ tail, List.append_cancel_left_eq] at hrender
    rw [List.append_assoc _ [')'] tail] at hrender
    exact movedBy_id_eq_of_renderLocation hurl hforeign hplace (by simp) hrender

end MappedTrace.StackFrame
