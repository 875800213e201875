import MappedTrace.Text.Digit

/-!
# Debug identifiers

What a build is known by: 32 hexadecimal digits, or 8 in the old form. The count of rebuilds may
follow, and has to in the old form. With a hyphen after the first 8 digits, the 32 come in five
groups with hyphens between, and a hyphen stands before the count.
-/

namespace MappedTrace.SourceMap.DebugId

/-- Hexadecimal digits, at least one, with an optional plus sign in front. -/
def isNumber (text : Text) : Bool :=
  let digits :=
    match text with
    | '+' :: digits => digits
    | digits => digits
  !digits.isEmpty && digits.all Text.isHexDigit

/-- The 32 digits, in one group or in five. -/
def isUnique (hyphenated : Bool) (text : Text) : Bool :=
  let groups := text.splitOn '-'
  groups.map List.length = (if hyphenated then [8, 4, 4, 4, 12] else [32]) &&
    groups.all fun group => group.all Text.isHexDigit

/-- Of the count that follows 32 digits only the first eight signs are looked at. -/
def isValid (text : Text) : Bool :=
  let hyphenated := text[8]? = some '-'
  let mark : Text := if hyphenated then ['-'] else []
  if !text.all fun c => c.toNat < 128 then false
  else if 8 + mark.length < text.length && text.length ≤ 16 + mark.length then
    isNumber (text.take 8) && isNumber (text.drop (8 + mark.length))
  else
    let (unique, rest) := text.splitAt (if hyphenated then 36 else 32)
    isUnique hyphenated unique &&
      (rest.isEmpty ||
        match mark.isPrefixOf? rest with
        | none => false
        | some count => isNumber (count.take 8))

end MappedTrace.SourceMap.DebugId
