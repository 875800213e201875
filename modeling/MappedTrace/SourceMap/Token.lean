import MappedTrace.SourceMap.Place

/-!
# Tokens

What a source map says of one place in generated code: where it came from, if that is known. A
token that stands for a range also says it of the columns after it.
-/

namespace MappedTrace.SourceMap

/-- A place in a source, counted from zero. -/
structure Origin where
  source : Text
  line : UInt32
  column : UInt32
deriving DecidableEq, Repr

structure Token where
  place : Place
  origin : Option Origin
  isRange : Bool
deriving DecidableEq, Repr

namespace Token

/-- A range moves its origin along with the column that was asked for, up to the last column. -/
def advanced (token : Token) (column : UInt32) : Token :=
  if token.isRange then
    let offset := column.toNat - token.place.column.toNat
    { token with
      origin := token.origin.map fun origin =>
        { origin with
          column := UInt32.ofNat (min (origin.column.toNat + offset) (UInt32.size - 1)) } }
  else token

def closest? (tokens : List Token) (place : Place) : Option Token :=
  (Place.closest? Token.place place tokens).map (·.advanced place.column)

end Token

end MappedTrace.SourceMap
