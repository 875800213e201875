import MappedTrace.Base64
import MappedTrace.SourceMap.Error

/-!
# Numbers of variable length

A number is a run of base64 digits, its lowest bits first. The highest bit of a digit says that
another one follows, and the lowest bit of the whole is the sign.
-/

namespace MappedTrace.SourceMap.Vlq

/-- The lower five bits of a digit and whether another follows. A sign that is no digit counts as
the highest one, but the delete character as the one below it. -/
def digit (c : Char) : Nat × Bool :=
  let value := (Base64.digit? c).getD (if c = '\x7f' then 62 else 63)
  (value % 32, 32 ≤ value)

def signed (word : Nat) : Int :=
  if word < UInt64.size / 2 then word else (word : Int) - UInt64.size

def ofWord (word : Nat) : Int :=
  let size := signed word / 2
  if word % 2 = 0 then size else -size

/-- Reads numbers, the first of which has `shift` bits already, those of `word`. Bits beyond the
64th are lost, and a digit all of whose bits would be lost is refused. -/
def numbersFrom (shift word : Nat) : Text → Except DecodeError (List Int)
  | [] => if shift = 0 then .ok [] else .error .unfinishedNumber
  | c :: rest =>
    if 64 ≤ shift then .error .numberOverflow
    else
      let (bits, continues) := digit c
      let word := (word + bits * 2 ^ shift) % 2 ^ 64
      if continues then numbersFrom (shift + 5) word rest
      else (numbersFrom 0 0 rest).map (ofWord word :: ·)

def numbers (text : Text) : Except DecodeError (List Int) :=
  numbersFrom 0 0 text

end MappedTrace.SourceMap.Vlq
