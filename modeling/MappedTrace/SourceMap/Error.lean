import MappedTrace.Numeral

/-!
# Faults of a source map

Why data is no source map, with the words that say so.
-/

namespace MappedTrace.SourceMap

inductive DecodeError where
  | badJson
  | missingNewline
  | unfinishedNumber
  | numberOverflow
  | segmentSize (count : Nat)
  | sourceReference (index : UInt32)
  | nameReference (index : UInt32)
  | rangeDigit (sign : Char)
  | dataUrl
deriving DecidableEq, Repr

def DecodeError.message : DecodeError → Text
  | badJson => "bad json".toList
  | missingNewline => "expected newline".toList
  | unfinishedNumber => "leftover cur/shift in vlq decode".toList
  | numberOverflow => "vlq decode caused an overflow".toList
  | segmentSize count =>
    "got ".toList ++ Nat.toDigits 10 count ++ " segments, expected 4 or 5".toList
  | sourceReference index => "bad reference to source #".toList ++ Numeral.write index
  | nameReference index => "bad reference to name #".toList ++ Numeral.write index
  | rangeDigit sign => "invalid base64 character: ".toList ++ [sign]
  | dataUrl => "the provided data URL is invalid".toList

end MappedTrace.SourceMap
