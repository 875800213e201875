import MappedTrace.Text.Digit

/-!
# Quoted texts

A JSON string between its quotation marks. Only the quotation mark, the backslash and the control
characters below the blank are written as escapes, the common ones by a letter and the others by
number. Read are all escapes: any 16-bit number, where a character beyond those is the pair of a
high and a low surrogate. What is written reads back as the same text.
-/

namespace MappedTrace.Json

def escape (c : Char) : Text :=
  if c = '"' then ['\\', '"']
  else if c = '\\' then ['\\', '\\']
  else if c = '\x08' then ['\\', 'b']
  else if c = '\t' then ['\\', 't']
  else if c = '\n' then ['\\', 'n']
  else if c = '\x0c' then ['\\', 'f']
  else if c = '\r' then ['\\', 'r']
  else if c.toNat < 0x20 then
    ['\\', 'u', '0', '0', Nat.digitChar (c.toNat / 16), Nat.digitChar (c.toNat % 16)]
  else [c]

def quote (text : Text) : Text :=
  '"' :: text.flatMap escape ++ ['"']

def escaped? (letter : Char) : Option Char :=
  if letter = '"' || letter = '\\' || letter = '/' then some letter
  else if letter = 'b' then some '\x08'
  else if letter = 't' then some '\t'
  else if letter = 'n' then some '\n'
  else if letter = 'f' then some '\x0c'
  else if letter = 'r' then some '\r'
  else none

def unit? (a b c d : Char) : Option Nat := do
  let a ← Text.hexDigit? a
  let b ← Text.hexDigit? b
  let c ← Text.hexDigit? c
  let d ← Text.hexDigit? d
  return ((a * 16 + b) * 16 + c) * 16 + d

def isHighSurrogate (unit : Nat) : Bool :=
  0xD800 ≤ unit && unit < 0xDC00

def isLowSurrogate (unit : Nat) : Bool :=
  0xDC00 ≤ unit && unit < 0xE000

/-- The text that stands between quotation marks. Half a surrogate pair stands for nothing. -/
def unescape? : Text → Option Text
  | [] => some []
  | c :: rest =>
    if c ≠ '\\' then (unescape? rest).map (c :: ·)
    else
      match rest with
      | [] => none
      | 'u' :: p :: q :: r :: s :: rest =>
        match unit? p q r s with
        | none => none
        | some unit =>
          if isHighSurrogate unit then
            match rest with
            | '\\' :: 'u' :: p :: q :: r :: s :: rest =>
              match unit? p q r s with
              | none => none
              | some low =>
                if isLowSurrogate low then
                  let c := Char.ofNat (0x10000 + (unit - 0xD800) * 1024 + (low - 0xDC00))
                  (unescape? rest).map (c :: ·)
                else none
            | _ => none
          else if isLowSurrogate unit then none
          else (unescape? rest).map (Char.ofNat unit :: ·)
      | letter :: rest =>
        match escaped? letter with
        | none => none
        | some c => (unescape? rest).map (c :: ·)

private theorem unit?_control : ∀ n < 0x20,
    unit? '0' '0' (Nat.digitChar (n / 16)) (Nat.digitChar (n % 16)) = some n := by
  decide

theorem unescape?_escape_append (c : Char) (rest : Text) :
    unescape? (escape c ++ rest) = (unescape? rest).map (c :: ·) := by
  unfold escape
  split
  · subst c; rfl
  split
  · subst c; rfl
  split
  · subst c; rfl
  split
  · subst c; rfl
  split
  · subst c; rfl
  split
  · subst c; rfl
  split
  · subst c; rfl
  split
  · rename_i control
    have number := unit?_control c.toNat control
    have high : isHighSurrogate c.toNat = false := by simp [isHighSurrogate]; omega
    have low : isLowSurrogate c.toNat = false := by simp [isLowSurrogate]; omega
    simp [unescape?, number, high, low, Char.ofNat_toNat]
  · rename_i backslash _ _ _ _ _ _
    rw [List.singleton_append, unescape?.eq_def]
    simp only [ne_eq, backslash, not_false_eq_true, if_true]

/-- Reading gives back the text that was written. -/
theorem unescape?_flatMap_escape (text : Text) :
    unescape? (text.flatMap escape) = some text := by
  induction text with
  | nil => rfl
  | cons c rest ih => rw [List.flatMap_cons, unescape?_escape_append, ih, Option.map_some]

end MappedTrace.Json
