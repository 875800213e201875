import MappedTrace.Proofs.Position.Reading
import MappedTrace.Proofs.StackFrame.ReadBack

/-!
# Frames and positions

A position is read on its own and as the location of a frame. The first refuses a text that lacks a
number, and the second makes do with the line, or takes the whole text for a file. Where a frame
comes to have a file, a line and a column, the two agree, but for the file that stands for code
without one.
-/

namespace MappedTrace.StackFrame

open CallSite (anonymous)

variable {text source : Text} {line column : UInt32}

theorem column_fileAndLine (text : Text) : (fileAndLine text).2.2 = none := by
  rw [fileAndLine]
  split
  · rfl
  · split <;> rfl

theorem numbers_eq_iff :
    numbers text = (source, some line, some column) ↔
      ∃ first second, Position.SplitsInto text source first second ∧
        Numeral.read? first = some line ∧ Numeral.read? second = some column := by
  constructor
  · intro h
    have hshort : fileAndLine text ≠ (source, some line, some column) := by
      intro hfound
      have hcolumn := column_fileAndLine text
      rw [hfound] at hcolumn
      contradiction
    rw [numbers] at h
    split at h
    · exact absurd h hshort
    · rename_i file first second hcut
      split at h
      · rename_i l c hfirst hsecond
        obtain ⟨rfl, rfl, rfl⟩ : file = source ∧ l = line ∧ c = column := by simpa using h
        exact ⟨first, second, Position.cut?_eq_some_iff.mp hcut, hfirst, hsecond⟩
      · exact absurd h hshort
  · rintro ⟨first, second, hsplit, hfirst, hsecond⟩
    rw [numbers, Position.cut?_eq_some_iff.mpr hsplit]
    dsimp only
    rw [hfirst, hsecond]

theorem parse_position_eq_ok_iff (htrimmed : text.trim = text) :
    Position.parse text = .ok ⟨source, line, column⟩ ↔
      source ≠ [] ∧ numbers text = (source, some line, some column) := by
  rw [Position.parse_eq_ok_iff, htrimmed, numbers_eq_iff]

/-- A location that names no eval origin has a file and both numbers if these are found in it, and
the file is one. -/
theorem parseLocation_placed_iff (hplain : ¬ "eval at ".toList <+: text) :
    (parseLocation {} text).fileName = some source ∧ (parseLocation {} text).line = some line ∧
        (parseLocation {} text).column = some column ↔
      (source ≠ [] ∧ numbers text = (source, some line, some column)) ∧ source ≠ anonymous := by
  by_cases hnative : text = "native".toList
  · have hnumbers : numbers "native".toList = ("native".toList, none, none) := by decide
    rw [hnative, parseLocation_native, hnumbers]
    simp
  · rw [parseLocation, if_neg hnative, cutOrigin_of_not_prefix hplain]
    dsimp only
    generalize numbers text = found
    obtain ⟨file, first, second⟩ := found
    have hnamed : (if file.isEmpty || file = anonymous then none else some file) = some source ↔
        file = source ∧ source ≠ [] ∧ source ≠ anonymous := by
      by_cases hfile : (file.isEmpty || file = anonymous) = true
      · rw [if_pos hfile]
        refine iff_of_false (Option.some_ne_none source).symm ?_
        rintro ⟨rfl, hfilled, hreal⟩
        simp [hfilled, hreal] at hfile
      · rw [if_neg hfile, Option.some.injEq]
        simp only [Bool.or_eq_true, List.isEmpty_iff, decide_eq_true_eq, not_or] at hfile
        refine ⟨?_, And.left⟩
        rintro rfl
        exact ⟨rfl, hfile⟩
    rw [hnamed, Prod.mk.injEq, Prod.mk.injEq]
    tauto

/-- A text is a frame with a file, a line and a column if it is a position, and its source is not
what stands for code without a file. -/
theorem parse_marked_placed_iff {text source : Text} {line column : UInt32}
    (hfilled : text ≠ []) (htrimmed : text.trim = text)
    (hplain : ¬ "eval at ".toList <+: text) (hopen : ¬ [')'] <:+ text) :
    (∃ frame, parse ("at ".toList ++ text) = .ok frame ∧ frame.fileName = some source ∧
        frame.line = some line ∧ frame.column = some column) ↔
      Position.parse text = .ok ⟨source, line, column⟩ ∧ source ≠ anonymous := by
  have hends : text.EndsVisibly := htrimmed ▸ Text.endsVisibly_trim (htrimmed.symm ▸ hfilled)
  rw [parse_marked hends, parseBody_alone (.inl hopen), parse_position_eq_ok_iff htrimmed,
    ← parseLocation_placed_iff hplain]
  constructor
  · rintro ⟨frame, hframe, hplaced⟩
    obtain rfl := Except.ok.inj hframe
    exact hplaced
  · intro hplaced
    exact ⟨_, rfl, hplaced⟩

/-- The file holds a colon and a comma, and neither number is written as it would be. -/
theorem parse_marked_drive :
    let text := "C:\\eval at f, a.js:+3:007".toList
    (text ≠ [] ∧ Text.trim text = text ∧ ¬ "eval at ".toList <+: text ∧ ¬ [')'] <:+ text) ∧
      Position.parse text = .ok ⟨"C:\\eval at f, a.js".toList, 3, 7⟩ ∧
      ∃ frame, parse ("at ".toList ++ text) = .ok frame ∧
        frame.fileName = some "C:\\eval at f, a.js".toList ∧ frame.line = some 3 ∧
        frame.column = some 7 := by
  intro text
  have hfilled : text ≠ [] := by decide
  have htrimmed : Text.trim text = text := by decide
  have hplain : ¬ "eval at ".toList <+: text := by decide
  have hopen : ¬ [')'] <:+ text := by decide
  have hparse : Position.parse text = .ok ⟨"C:\\eval at f, a.js".toList, 3, 7⟩ := by decide
  exact ⟨⟨hfilled, htrimmed, hplain, hopen⟩, hparse,
    (parse_marked_placed_iff hfilled htrimmed hplain hopen).mpr ⟨hparse, by decide⟩⟩

end MappedTrace.StackFrame
