import MappedTrace.Json.Number
import MappedTrace.Json.Quoted

/-!
# JSON tokens

A text is cut into brackets, colons, commas and scalars by a machine that reads one character at a
time. Only the spelling of a scalar is checked: a number may be too large to be used, and the
escapes of a string may stand for no text. A scalar without quotation marks ends before the first
blank, bracket, colon, comma or quotation mark, and only then is it looked at as a whole.
-/

namespace MappedTrace.Json

/-- A value without parts as it is spelled. Of a string, that is what stands between the quotation
marks. -/
inductive Scalar where
  | null
  | bool (value : Bool)
  | number (value : Number)
  | string (body : Text)

inductive Token where
  | openArray
  | closeArray
  | openObject
  | closeObject
  | colon
  | comma
  | scalar (value : Scalar)

namespace Token

def punctuation? (c : Char) : Option Token :=
  if c = '[' then some openArray
  else if c = ']' then some closeArray
  else if c = '\x7b' then some openObject
  else if c = '\x7d' then some closeObject
  else if c = ':' then some colon
  else if c = ',' then some comma
  else none

def isSpace (c : Char) : Bool :=
  c = ' ' || c = '\t' || c = '\n' || c = '\r'

def bare? (text : Text) : Option Scalar :=
  if text = "null".toList then some .null
  else if text = "true".toList then some (.bool true)
  else if text = "false".toList then some (.bool false)
  else (Number.read? text).map .number

/-- Where the machine is. What it has read of a scalar is kept with the latest character first. -/
inductive State where
  | between
  | bare (read : Text)
  | quoted (read : Text)
  | escaped (read : Text)
  | unit (read : Text) (left : Nat)

def startStep (c : Char) : List Token × State :=
  if isSpace c then ([], .between)
  else if c = '"' then ([], .quoted [])
  else
    match punctuation? c with
    | some token => ([token], .between)
    | none => ([], .bare [c])

/-- One character: the tokens that it completes, and where the machine is after it. -/
def step : State → Char → Option (List Token × State)
  | .between, c => some (startStep c)
  | .bare read, c =>
    if isSpace c || c = '"' || (punctuation? c).isSome then
      match bare? read.reverse with
      | none => none
      | some value =>
        let (tokens, state) := startStep c
        some (.scalar value :: tokens, state)
    else some ([], .bare (c :: read))
  | .quoted read, c =>
    if c = '"' then some ([.scalar (.string read.reverse)], .between)
    else if c = '\\' then some ([], .escaped (c :: read))
    else if c.toNat < 0x20 then none
    else some ([], .quoted (c :: read))
  | .escaped read, c =>
    if c = 'u' then some ([], .unit (c :: read) 4)
    else if (escaped? c).isSome then some ([], .quoted (c :: read))
    else none
  | .unit read left, c =>
    if !Text.isHexDigit c then none
    else if left ≤ 1 then some ([], .quoted (c :: read))
    else some ([], .unit (c :: read) (left - 1))

def scan : State → Text → Option (List Token)
  | .between, [] => some []
  | .bare read, [] => (bare? read.reverse).map fun value => [.scalar value]
  | _, [] => none
  | state, c :: rest =>
    match step state c with
    | none => none
    | some (tokens, next) => (scan next rest).map (tokens ++ ·)

def ofText? (text : Text) : Option (List Token) :=
  scan .between text

end Token

end MappedTrace.Json
