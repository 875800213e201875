import MappedTrace.Json.Quoted
import MappedTrace.Numeral
import MappedTrace.Text.Blank

/-!
# Positions

A place in a source: lines are counted from one and columns from zero. A position is written
`source:line:column`, and is read from the right, because a source may hold colons of its own. It may
also be written on one line as a JSON object, without blanks.
-/

namespace MappedTrace

structure Position where
  source : Text
  line : UInt32
  column : UInt32
deriving DecidableEq, Repr

namespace Position

def render (p : Position) : Text :=
  p.source ++ ':' :: Numeral.write p.line ++ ':' :: Numeral.write p.column

def pieces (p : Position) : List Text :=
  [p.source, [':'], Numeral.write p.line, [':'], Numeral.write p.column]

theorem flatten_pieces (p : Position) : p.pieces.flatten = p.render := by
  simp [pieces, render]

def renderJson (p : Position) : Text :=
  "\x7b\"source\":".toList ++ Json.quote p.source ++ ",\"line\":".toList ++ Numeral.write p.line ++
    ",\"column\":".toList ++ Numeral.write p.column ++ ['\x7d']

def cut? (text : Text) : Option (Text × Text × Text) := do
  let (front, column) ← Text.cutLast? [':'] text
  let (source, line) ← Text.cutLast? [':'] front
  return (source, line, column)

inductive ParseError where
  | malformed (text : Text)
  | badLine (part : Text)
  | badColumn (part : Text)
deriving DecidableEq, Repr

def ParseError.message : ParseError → Text
  | malformed text =>
    "expected a position in the format 'source:line:column', got '".toList ++ text ++ ['\'']
  | badLine part => "invalid line number '".toList ++ part ++ ['\'']
  | badColumn part => "invalid column number '".toList ++ part ++ ['\'']

/-- Blanks around the whole text are ignored; of two faults the one further left is reported. -/
def parse (text : Text) : Except ParseError Position :=
  match cut? text.trim with
  | none => .error (.malformed text)
  | some (source, line, column) =>
    if source.isEmpty then .error (.malformed text)
    else
      match Numeral.read? line, Numeral.read? column with
      | none, _ => .error (.badLine line)
      | some _, none => .error (.badColumn column)
      | some l, some c => .ok ⟨source, l, c⟩

end Position

end MappedTrace
