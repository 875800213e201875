import MappedTrace.Numeral

/-!
# JSON numbers

A number keeps the parts of its spelling. What is asked of it is whether it is a word, and whether
it stays within the range of binary floating point.
-/

namespace MappedTrace.Json

structure Number where
  negative : Bool
  whole : Text
  fraction : Text
  exponent : Option Int
deriving DecidableEq, Repr

namespace Number

/-- A run of digits in front of a text, which must not be empty, and what follows. -/
def digits? (text : Text) : Option (Text × Text) :=
  match text.takeWhile Char.isDigit with
  | [] => none
  | digits => some (digits, text.dropWhile Char.isDigit)

def exponent? (text : Text) : Option (Option Int) :=
  match text with
  | [] => some none
  | mark :: rest =>
    if mark = 'e' || mark = 'E' then
      let (negative, digits) :=
        match rest with
        | '-' :: digits => (true, digits)
        | '+' :: digits => (false, digits)
        | digits => (false, digits)
      if digits.isEmpty || !digits.all Char.isDigit then none
      else
        let size : Int := Nat.ofDigitChars 10 digits 0
        some (some (if negative then -size else size))
    else none

/-- Reads a number that fills the whole text. Leading zeros and bare points are refused. -/
def read? (text : Text) : Option Number := do
  let (negative, text) :=
    match text with
    | '-' :: rest => (true, rest)
    | rest => (false, rest)
  let (whole, text) ← digits? text
  if whole.head? = some '0' && whole.length ≠ 1 then none
  else
    let (fraction, text) ←
      match text with
      | '.' :: rest => digits? rest
      | rest => some ([], rest)
    let exponent ← exponent? text
    return ⟨negative, whole, fraction, exponent⟩

/-- The value of a number spelled with digits alone that fits into a word. -/
def word? (n : Number) : Option UInt32 :=
  if n.negative || !n.fraction.isEmpty || n.exponent.isSome then none
  else Numeral.ofDigits? n.whole

/-- The nearest number with at most 53 binary digits before its zeros, a half going to the even
neighbour. -/
def roundBinary (n : Nat) : Nat :=
  let unit := Nat.pow 2 (n.log2 + 1 - 53)
  let floor := n / unit
  let excess := n % unit
  if 2 * excess < unit || (2 * excess = unit && floor % 2 = 0) then floor * unit
  else (floor + 1) * unit

/-- The leading digits that fit into 64 bits, as a number, and how many digits come after them. -/
def significand (digits : Text) : Nat × Nat :=
  digits.foldl (fun (value, dropped) digit =>
    let longer := value * 10 + (digit.toNat - '0'.toNat)
    if dropped = 0 && longer < UInt64.size then (longer, 0) else (value, dropped + 1)) (0, 0)

/-- A number is finite when its leading digits times its power of ten, each rounded to binary and
rounded again when multiplied, stay below two to the 1024th. -/
def isFinite (n : Number) : Bool :=
  let (value, dropped) := significand (n.whole ++ n.fraction)
  let power : Int := n.exponent.getD 0 + dropped - n.fraction.length
  value = 0 || power < 0 ||
    (power ≤ 308 &&
      roundBinary (roundBinary value * roundBinary (Nat.pow 10 power.toNat)) < Nat.pow 2 1024)

end Number

end MappedTrace.Json
