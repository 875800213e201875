import MappedTrace.Position
import MappedTrace.SourceMap.Token

/-!
# Source maps

A source map is a list of tokens in the order of their places, or an index of sections, each of
which begins at a place and holds a map of its own, counted from there. Lookups ask the tokens, and
keep an answer only if it stands on the very line that was asked for. They count with words, and may
come to a number that is none.
-/

namespace MappedTrace

/-- A whole, or parts that begin at places and are made in the same way. -/
inductive Sectioned (α : Type) where
  | whole (content : α)
  | parts (sections : List (SourceMap.Place × Sectioned α))

abbrev SourceMap :=
  Sectioned (List SourceMap.Token)

namespace SourceMap

abbrev Lookup :=
  Place → Option Token

/-- The answer of the closest section, asked for the place as counted from its start. -/
def closestSection (sections : List (Place × Lookup)) : Lookup := fun place =>
  match Place.closest? Prod.fst place sections with
  | none => none
  | some (start, lookup) =>
    lookup ⟨place.line - start.line,
      if place.line = start.line then place.column - start.column else place.column⟩

mutual

/-- The token that answers for a place. In a section its own place is counted from the start of the
section. -/
def token? : SourceMap → Lookup
  | .whole tokens => Token.closest? tokens
  | .parts sections => closestSection (sectionLookups sections)

def sectionLookups : List (Place × SourceMap) → List (Place × Lookup)
  | [] => []
  | (start, map) :: rest => (start, token? map) :: sectionLookups rest

end

def askedPlace (generated : Position) : Place :=
  ⟨generated.line - 1, generated.column⟩

/-- A number that is no word. A run that checks its numbers stops there, and one that does not goes
on with what is left of the number, to the answer that is kept here. -/
structure Overflow where
  unchecked : Option Position
deriving DecidableEq, Repr

abbrev Answer :=
  Except Overflow (Option Position)

def Answer.unchecked : Answer → Option Position
  | .ok found => found
  | .error overflow => overflow.unchecked

/-- An origin with its line counted from one. -/
def Origin.answer (origin : Origin) : Answer :=
  let position : Position := ⟨origin.source, origin.line + 1, origin.column⟩
  if origin.line.toNat + 1 < UInt32.size then .ok (some position) else .error ⟨some position⟩

/-- What a token answers for a place. A range is counted on the lines below it too. There it may
begin behind the column that is asked for, which is the same as from the start of any section. -/
def Token.answer (token : Token) (place : Place) : Answer :=
  if token.place.line = place.line then
    match token.origin with
    | none => .ok none
    | some origin => origin.answer
  else if token.isRange && place.column < token.place.column then .error ⟨none⟩
  else .ok none

def answer (map : SourceMap) (generated : Position) : Answer :=
  if generated.line = 0 then .ok none
  else
    match token? map (askedPlace generated) with
    | none => .ok none
    | some token => token.answer (askedPlace generated)

/-- The answer of a run that does not check its numbers. -/
def origin? (map : SourceMap) (generated : Position) : Option Position :=
  (answer map generated).unchecked

end SourceMap

end MappedTrace
