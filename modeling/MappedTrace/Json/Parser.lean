import MappedTrace.Json.Basic
import MappedTrace.Json.Token

/-!
# Reading JSON

A machine with a stack of open brackets takes the tokens one by one, and accepts a single value and
nothing else. It may be told that only some members of an object are looked at. A value that is
looked at has to stand for one: its strings are texts, its numbers are finite, and no more than 127
brackets are open around it and in it. A value that is passed over only has to be spelled right.
-/

namespace MappedTrace.Json

/-- What is looked at, said by the parts that values play, and what text stands between quotation
marks. A member that plays no part is passed over. -/
structure Reader (Part : Type) where
  text? : Text → Option Text
  item : Part → Nat → Part
  member? : Part → Text → Option Part

def Reader.whole : Reader Unit where
  text? := unescape?
  item _ _ := ()
  member? _ _ := some ()

/-- An open bracket with the part its value plays, if any, and what has been read behind it, latest
first. -/
inductive Frame (Part : Type) where
  | array (part : Option Part) (index : Nat) (items : List Json)
  | object (part : Option Part) (members : List (Text × Json)) (name : Text)

/-- What the machine waits for, with the part that the value or its brackets play. -/
inductive Expecting (Part : Type) where
  | value (part : Option Part) (stack : List (Frame Part))
  | firstItem (part : Option Part) (stack : List (Frame Part))
  | firstKey (part : Option Part) (stack : List (Frame Part))
  | key (part : Option Part) (members : List (Text × Json)) (stack : List (Frame Part))
  | colon (part : Option Part) (members : List (Text × Json)) (name : Text)
      (stack : List (Frame Part))
  | separator (json : Json) (stack : List (Frame Part))

def maxNesting : Nat := 127

namespace Reader

variable {Part : Type} (reader : Reader Part)

/-- The value of a scalar. One that is passed over counts as null. -/
def scalar? : Option Part → Scalar → Option Json
  | none, _ => some .null
  | some _, .null => some .null
  | some _, .bool value => some (.bool value)
  | some _, .number value => if value.isFinite then some (.number value) else none
  | some _, .string body => (reader.text? body).map .string

/-- The name of a member. What is passed over has members without names. -/
def name? : Option Part → Text → Option Text
  | none, _ => some []
  | some _, body => reader.text? body

def mayNest (part : Option Part) (stack : List (Frame Part)) : Bool :=
  part.isNone || stack.length < maxNesting

/-- A token where a value has to begin. -/
def beginValue (part : Option Part) (stack : List (Frame Part)) :
    Token → Option (Expecting Part)
  | .openArray => if mayNest part stack then some (.firstItem part stack) else none
  | .openObject => if mayNest part stack then some (.firstKey part stack) else none
  | .scalar value => (reader.scalar? part value).map (.separator · stack)
  | _ => none

def step : Expecting Part → Token → Option (Expecting Part)
  | .value part stack, token => reader.beginValue part stack token
  | .firstItem _ stack, .closeArray => some (.separator (.array []) stack)
  | .firstItem part stack, token =>
    reader.beginValue (part.map (reader.item · 0)) (.array part 0 [] :: stack) token
  | .firstKey _ stack, .closeObject => some (.separator (.object []) stack)
  | .firstKey part stack, .scalar (.string body) =>
    (reader.name? part body).map (.colon part [] · stack)
  | .key part members stack, .scalar (.string body) =>
    (reader.name? part body).map (.colon part members · stack)
  | .colon part members name stack, .colon =>
    some (.value (part.bind (reader.member? · name)) (.object part members name :: stack))
  | .separator json (.array part index items :: stack), .comma =>
    some (.value (part.map (reader.item · (index + 1)))
      (.array part (index + 1) (json :: items) :: stack))
  | .separator json (.array _ _ items :: stack), .closeArray =>
    some (.separator (.array (json :: items).reverse) stack)
  | .separator json (.object part members name :: stack), .comma =>
    some (.key part ((name, json) :: members) stack)
  | .separator json (.object _ members name :: stack), .closeObject =>
    some (.separator (.object ((name, json) :: members).reverse) stack)
  | _, _ => none

def ofTokens? (part : Part) (tokens : List Token) : Option Json :=
  match tokens.foldlM reader.step (.value (some part) []) with
  | some (.separator json []) => some json
  | _ => none

def read? (part : Part) (source : Text) : Option Json := do
  reader.ofTokens? part (← Token.ofText? source)

end Reader

def parse? (text : Text) : Option Json :=
  Reader.whole.read? () text

end MappedTrace.Json
