import MappedTrace.MapCache
import MappedTrace.Text.Digit
import MappedTrace.Text.Lines

/-!
# Reports of uncaught errors

An error that nobody caught is reported by its stack. In front of it stands, where it can be found,
the line of source that the top frame of the stack points at, with a caret below the column.
-/

namespace MappedTrace

/-- An error as it is thrown: what it says, and its stack as text if it has one. -/
structure Thrown where
  message : Text
  stack : Option Text
deriving DecidableEq, Repr

namespace Report

/-- A line and a column number, each behind a colon, closed by a parenthesis. -/
def numbers? (text : Text) : Option (Text × Text) := do
  let text ← [':'].isPrefixOf? text
  let line ← Text.filled? (text.takeWhile Text.isDecimalDigit)
  let text ← [':'].isPrefixOf? (text.dropWhile Text.isDecimalDigit)
  let column ← Text.filled? (text.takeWhile Text.isDecimalDigit)
  let _ ← [')'].isPrefixOf? (text.dropWhile Text.isDecimalDigit)
  return (line, column)

/-- What stands in front of the last such numbers in a line, and these. -/
def lastNumbers? : Text → Option (Text × Text × Text)
  | [] => none
  | c :: rest =>
    match lastNumbers? rest with
    | some (before, line, column) => some (c :: before, line, column)
    | none => (numbers? (c :: rest)).map fun (line, column) => ([], line, column)

/-- Source, line and column of a frame with a name and parentheses that a text starts with. -/
def frame? (text : Text) : Option (Text × Text × Text) := do
  let body ← "    at ".toList.isPrefixOf? text
  let (front, rest) ← Text.cutFirst? ['('] body
  let _ ← Text.filled? (← [' '].isSuffixOf? front)
  lastNumbers? (rest.takeWhile (· ≠ '\n'))

/-- The first frame of a stack, which has to start a line but not the first one. -/
def topFrame? : Text → Option (Text × Text × Text)
  | [] => none
  | c :: rest => if c = '\n' then (frame? rest).or (topFrame? rest) else topFrame? rest

/-- The position of the top frame. The first frame decides, even if its numbers are too large. -/
def topPosition? (stack : Text) : Option Position := do
  let (source, line, column) ← topFrame? stack
  return ⟨source, ← Numeral.read? line, ← Numeral.read? column⟩

/-- A line of a text, counted from one, unless it is empty. -/
def lineOf? (contents : Text) (line : UInt32) : Option Text :=
  if line = 0 then none
  else (Text.lines contents)[line.toNat - 1]?.bind Text.filled?

def sourceLine? (files : FileSystem) (position : Position) : Lookups (Option Text) := do
  match ← MapCache.fetch files position.source with
  | .text contents => return lineOf? contents position.line
  | _ => return none

/-- The caret stands below the column, counted from one, and at most one place behind the line. -/
def header (position : Position) (text : Text) : Text :=
  let padding := List.replicate (min (position.column.toNat - 1) text.length) ' '
  '\n' :: position.source ++ ':' :: Numeral.write position.line ++ '\n' :: text ++ '\n' ::
    padding ++ ['^', '\n']

def headerPieces (position : Position) (text : Text) : List Text :=
  let padding := List.replicate (min (position.column.toNat - 1) text.length) ' '
  [['\n'], position.source, [':'], Numeral.write position.line, ['\n'], text, ['\n'], padding,
    ['^', '\n']]

theorem flatten_headerPieces (position : Position) (text : Text) :
    (headerPieces position text).flatten = header position text := by
  simp [headerPieces, header]

/-- The header for the top frame of a stack, without pieces if there is no line of source to
show. -/
def headerFor (files : FileSystem) (stack : Text) : Lookups (List Text) := do
  match topPosition? stack with
  | none => return []
  | some generated =>
    let position ← MapCache.relocate files generated
    match ← sourceLine? files position with
    | none => return []
    | some text => return headerPieces position text

/-- The pieces that a report is written in. All lookups come before the first of them. -/
def composing (files : FileSystem) (error : Option Thrown) : Lookups (List Text) := do
  match error.bind fun error => error.stack.bind Text.filled? with
  | some stack => return (← headerFor files stack) ++ [stack, ['\n']]
  | none =>
    let message := (error.map Thrown.message).getD "undefined".toList
    return ["Uncaught exception: ".toList, message, ['\n']]

def reporting (files : FileSystem) (error : Option Thrown) : Lookups Text := do
  return (← composing files error).flatten

def report (files : FileSystem) (error : Option Thrown) : Text :=
  ((reporting files error).run {}).1

end Report

end MappedTrace
