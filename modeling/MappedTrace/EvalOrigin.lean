import MappedTrace.MapCache

/-!
# Eval origins

Code that was passed to `eval` says where the call stood: `eval at label (file:line:column)`, or
with another origin between the parentheses when that call was itself in evaluated code. Moving an
origin moves the position at its core and leaves the labels alone.
-/

namespace MappedTrace.EvalOrigin

/-- The label of an origin, and what stands between its parentheses. -/
def parts? (origin : Text) : Option (Text × Text) := do
  let body ← "eval at ".toList.isPrefixOf? origin
  let (front, rest) ← Text.cutFirst? ['('] body
  let label ← [' '].isSuffixOf? front
  let inside ← [')'].isSuffixOf? rest
  if label.isEmpty || inside.isEmpty || inside.contains '\n' then none
  else some (label, inside)

def write (label inside : Text) : Text :=
  "eval at ".toList ++ label ++ " (".toList ++ inside ++ [')']

/-- The position that an origin with no other inside names. Its numbers have no signs. -/
def position? (inside : Text) : Option Position := do
  let (source, line, column) ← Position.cut? inside
  if source.isEmpty then none
  else return ⟨source, ← Numeral.ofDigits? line, ← Numeral.ofDigits? column⟩

/-- Moves an origin that is nested at most so many levels deep. -/
def relocateWithin (files : FileSystem) : Nat → Text → Lookups Text
  | 0, origin => return origin
  | levels + 1, origin =>
    match parts? origin with
    | none => return origin
    | some (label, inside) =>
      match position? inside with
      | some position => return write label (← MapCache.relocate files position).render
      | none => return write label (← relocateWithin files levels inside)

/-- No runtime nests evaluated code deeper than this. -/
def maxNesting : Nat := 100

def relocate (files : FileSystem) (origin : Text) : Lookups Text :=
  relocateWithin files maxNesting origin

end MappedTrace.EvalOrigin
