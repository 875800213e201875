import MappedTrace.Text.Basic

/-!
# Numerals

Line and column numbers are words of 32 bits, written in decimal. A numeral is read with an
optional plus sign in front and any number of leading zeros, and is written with neither.
-/

namespace MappedTrace.Numeral

def write (n : UInt32) : Text :=
  Nat.toDigits 10 n.toNat

/-- The value of a text of ASCII digits that fits into a word. -/
def ofDigits? (digits : Text) : Option UInt32 :=
  if digits.isEmpty || !digits.all Char.isDigit then none
  else
    let value := Nat.ofDigitChars 10 digits 0
    if value < UInt32.size then some (UInt32.ofNat value) else none

def read? (text : Text) : Option UInt32 :=
  match text with
  | '+' :: digits => ofDigits? digits
  | digits => ofDigits? digits

theorem isDigit_of_mem_write {n : UInt32} {c : Char} (h : c ∈ write n) : c.isDigit = true :=
  Nat.isDigit_of_mem_toDigits (by decide) (by decide) h

theorem write_ne_nil (n : UInt32) : write n ≠ [] :=
  Nat.toDigits_ne_nil

theorem ofDigits?_write (n : UInt32) : ofDigits? (write n) = some n := by
  have filled : (write n).isEmpty = false := List.isEmpty_eq_false_iff.mpr (write_ne_nil n)
  have digits : (write n).all Char.isDigit = true :=
    List.all_eq_true.mpr fun c hc => isDigit_of_mem_write hc
  have value : Nat.ofDigitChars 10 (write n) 0 = n.toNat :=
    Nat.ofDigitChars_toDigits (by decide) (by decide)
  have small : n.toNat < UInt32.size := n.toNat_lt_size
  simp [ofDigits?, filled, digits, value, small]

theorem read?_write (n : UInt32) : read? (write n) = some n := by
  unfold read?
  split
  · rename_i digits heq
    have sign : Char.isDigit '+' = true := isDigit_of_mem_write (by rw [heq]; simp)
    simp at sign
  · exact ofDigits?_write n

end MappedTrace.Numeral
