/-!
# Texts

A text is the list of its characters. Beside core's list operations the library needs a text cut in
two at a mark, at its first or at its last occurrence.
-/

namespace MappedTrace

abbrev Text := List Char

namespace Text

/-- What stands before and after the first occurrence of a mark. -/
def cutFirst? (mark : Text) : Text → Option (Text × Text)
  | [] => none
  | c :: rest =>
    match mark.isPrefixOf? (c :: rest) with
    | some after => some ([], after)
    | none => (cutFirst? mark rest).map fun (before, after) => (c :: before, after)

/-- What stands before and after the last occurrence of a mark. -/
def cutLast? (mark : Text) : Text → Option (Text × Text)
  | [] => none
  | c :: rest =>
    match cutLast? mark rest with
    | some (before, after) => some (c :: before, after)
    | none => (mark.isPrefixOf? (c :: rest)).map fun after => ([], after)

/-- An empty text counts as no text. -/
def filled? (text : Text) : Option Text :=
  if text.isEmpty then none else some text

theorem filled?_eq_some_iff {text other : Text} :
    filled? text = some other ↔ text = other ∧ other ≠ [] := by
  cases text with
  | nil => simp +contextual [filled?, eq_comm]
  | cons c rest => simp +contextual [filled?, eq_comm]

end Text

end MappedTrace
