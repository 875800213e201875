import MappedTrace.Text.Basic

/-!
# UTF-8

Texts as bytes, and bytes as texts. Reading goes byte by byte: the first byte of a character says
how many follow and between which bounds the next one lies, which leaves out overlong forms,
surrogates and everything above the last character.
-/

namespace MappedTrace.Utf8

def encode (text : Text) : List UInt8 :=
  text.flatMap String.utf8EncodeChar

def size (text : Text) : Nat :=
  (encode text).length

structure Pending where
  left : Nat
  bits : Nat
  low : Nat
  high : Nat

/-- What the first byte of a character of several bytes promises. -/
def begin? (byte : Nat) : Option Pending :=
  if byte < 0xC2 then none
  else if byte < 0xE0 then some ⟨1, byte - 0xC0, 0x80, 0xBF⟩
  else if byte < 0xF0 then
    some ⟨2, byte - 0xE0, if byte = 0xE0 then 0xA0 else 0x80,
      if byte = 0xED then 0x9F else 0xBF⟩
  else if byte < 0xF5 then
    some ⟨3, byte - 0xF0, if byte = 0xF0 then 0x90 else 0x80,
      if byte = 0xF4 then 0x8F else 0xBF⟩
  else none

/-- Reads on from a character that is begun, or from the start of one. -/
def decodeFrom : Option Pending → List UInt8 → Option Text
  | none, [] => some []
  | some _, [] => none
  | none, byte :: rest =>
    if byte.toNat < 0x80 then (decodeFrom none rest).map (Char.ofNat byte.toNat :: ·)
    else
      match begin? byte.toNat with
      | none => none
      | some pending => decodeFrom (some pending) rest
  | some pending, byte :: rest =>
    if pending.low ≤ byte.toNat && byte.toNat ≤ pending.high then
      let bits := pending.bits * 64 + (byte.toNat - 0x80)
      if pending.left ≤ 1 then (decodeFrom none rest).map (Char.ofNat bits :: ·)
      else decodeFrom (some ⟨pending.left - 1, bits, 0x80, 0xBF⟩) rest
    else none

def decode (bytes : List UInt8) : Option Text :=
  decodeFrom none bytes

def byteChars (bytes : List UInt8) : Text :=
  bytes.map Char.ofUInt8

/-- The text that bytes spell which are given as characters. -/
def ofByteChars? (chars : Text) : Option Text :=
  decode (chars.map fun c => UInt8.ofNat c.toNat)

end MappedTrace.Utf8
