import MappedTrace.Text.Basic

/-!
# Lines

A text is taken apart into lines that keep their line feeds, or into lines without any of the three
line ends. Its first line alone ends at a line feed.
-/

namespace MappedTrace.Text

/-- The lines of a text, each with the line feed that ends it. -/
def linesWithEnds : Text → List Text
  | [] => []
  | c :: rest =>
    if c = '\n' then [c] :: linesWithEnds rest
    else
      match linesWithEnds rest with
      | [] => [[c]]
      | line :: others => (c :: line) :: others

/-- The lines of a text, which end at a carriage return, a line feed, or both in this order. -/
def lines : Text → List Text
  | [] => [[]]
  | '\r' :: '\n' :: rest => [] :: lines rest
  | c :: rest =>
    if c = '\r' || c = '\n' then [] :: lines rest
    else (lines rest).modifyHead (c :: ·)

/-- The first line of a text, without the line feed that ends it and a carriage return right before
that. -/
def firstLine (text : Text) : Text :=
  match cutFirst? ['\n'] text with
  | none => text
  | some (line, _) => if line.getLast? = some '\r' then line.dropLast else line

def isLineEnd (c : Char) : Bool :=
  c = '\r' || c = '\n'

/-- A line without the line ends it ends with, and these. -/
def cutEnds (line : Text) : Text × Text :=
  let ends := line.reverse.takeWhile isLineEnd
  ((line.reverse.dropWhile isLineEnd).reverse, ends.reverse)

theorem cutEnds_append (line : Text) : (cutEnds line).1 ++ (cutEnds line).2 = line := by
  rw [cutEnds, ← List.reverse_append, List.takeWhile_append_dropWhile, List.reverse_reverse]

end MappedTrace.Text
