import MappedTrace.Json.Number

/-!
# JSON values

An object keeps its members in the order in which they were written, repeated keys included.
-/

namespace MappedTrace

inductive Json where
  | null
  | bool (value : Bool)
  | number (value : Json.Number)
  | string (value : Text)
  | array (items : List Json)
  | object (members : List (Text × Json))

namespace Json

def string? : Json → Option Text
  | string value => some value
  | _ => none

def word? : Json → Option UInt32
  | number value => value.word?
  | _ => none

def arrayOf? {α : Type} (read : Json → Option α) : Json → Option (List α)
  | array items => items.mapM read
  | _ => none

def nullable? {α : Type} (read : Json → Option α) : Json → Option (Option α)
  | null => some none
  | value => (read value).map some

/-- The value of a member, if there is one; a repeated key is refused. -/
def member? (members : List (Text × Json)) (key : Text) : Option (Option Json) :=
  match members.filter (·.1 = key) with
  | [] => some none
  | [(_, value)] => some (some value)
  | _ => none

def optional? {α : Type} (members : List (Text × Json)) (key : Text) (read : Json → Option α) :
    Option (Option α) := do
  match ← member? members key with
  | none => return none
  | some value => nullable? read value

def required? {α : Type} (members : List (Text × Json)) (key : Text) (read : Json → Option α) :
    Option α := do
  read (← (← member? members key))

end Json

end MappedTrace
