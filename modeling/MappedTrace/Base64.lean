import MappedTrace.Text.Basic

/-!
# Base64

The standard alphabet, padded. Reading is strict: the digits come in groups of four, a group may
end in one or two padding signs, and the bits of its last digit that belong to no byte are zero.
-/

namespace MappedTrace.Base64

def digit? (c : Char) : Option Nat :=
  let n := c.toNat
  if 65 ≤ n && n ≤ 90 then some (n - 65)
  else if 97 ≤ n && n ≤ 122 then some (n - 71)
  else if 48 ≤ n && n ≤ 57 then some (n + 4)
  else if n = 43 then some 62
  else if n = 47 then some 63
  else none

def digitChar (n : Nat) : Char :=
  if n < 26 then Char.ofNat (n + 65)
  else if n < 52 then Char.ofNat (n + 71)
  else if n < 62 then Char.ofNat (n - 4)
  else if n = 62 then '+'
  else '/'

def encode : List UInt8 → Text
  | [] => []
  | [a] => [digitChar (a.toNat / 4), digitChar (a.toNat % 4 * 16), '=', '=']
  | [a, b] =>
    [digitChar (a.toNat / 4), digitChar (a.toNat % 4 * 16 + b.toNat / 16),
      digitChar (b.toNat % 16 * 4), '=']
  | a :: b :: c :: rest =>
    digitChar (a.toNat / 4) :: digitChar (a.toNat % 4 * 16 + b.toNat / 16) ::
      digitChar (b.toNat % 16 * 4 + c.toNat / 64) :: digitChar (c.toNat % 64) :: encode rest

def group? (a b c d : Char) : Option (List UInt8) := do
  let p ← digit? a
  let q ← digit? b
  let first := UInt8.ofNat (p * 4 + q / 16)
  if c = '=' && d = '=' then
    if q % 16 = 0 then some [first] else none
  else
    let r ← digit? c
    let second := UInt8.ofNat (q % 16 * 16 + r / 4)
    if d = '=' then
      if r % 4 = 0 then some [first, second] else none
    else
      let s ← digit? d
      some [first, second, UInt8.ofNat (r % 4 * 64 + s)]

def decode? : Text → Option (List UInt8)
  | [] => some []
  | a :: b :: c :: d :: rest => do
    let bytes ← group? a b c d
    let others ← decode? rest
    return bytes ++ others
  | _ => none

theorem digit?_digitChar : ∀ n < 64, digit? (digitChar n) = some n := by
  decide

theorem digitChar_ne_padding : ∀ n < 64, digitChar n ≠ '=' := by
  decide

private theorem ofNat_eq {n : Nat} {byte : UInt8} (h : n = byte.toNat) : UInt8.ofNat n = byte := by
  rw [h, UInt8.ofNat_toNat]

theorem group?_one (a : UInt8) :
    group? (digitChar (a.toNat / 4)) (digitChar (a.toNat % 4 * 16)) '=' '=' = some [a] := by
  have := a.toNat_lt
  have p := digit?_digitChar (a.toNat / 4) (by omega)
  have q := digit?_digitChar (a.toNat % 4 * 16) (by omega)
  have first : UInt8.ofNat (a.toNat / 4 * 4 + a.toNat % 4 * 16 / 16) = a := ofNat_eq (by omega)
  have unused : a.toNat % 4 * 16 % 16 = 0 := by omega
  simp only [group?, p, q, first, unused, Option.bind_eq_bind, Option.bind_some, decide_true,
    Bool.and_self, if_true]

theorem group?_two (a b : UInt8) :
    group? (digitChar (a.toNat / 4)) (digitChar (a.toNat % 4 * 16 + b.toNat / 16))
      (digitChar (b.toNat % 16 * 4)) '=' = some [a, b] := by
  have := a.toNat_lt
  have := b.toNat_lt
  have p := digit?_digitChar (a.toNat / 4) (by omega)
  have q := digit?_digitChar (a.toNat % 4 * 16 + b.toNat / 16) (by omega)
  have r := digit?_digitChar (b.toNat % 16 * 4) (by omega)
  have digit := digitChar_ne_padding (b.toNat % 16 * 4) (by omega)
  have first : UInt8.ofNat (a.toNat / 4 * 4 + (a.toNat % 4 * 16 + b.toNat / 16) / 16) = a :=
    ofNat_eq (by omega)
  have second : UInt8.ofNat ((a.toNat % 4 * 16 + b.toNat / 16) % 16 * 16 +
      b.toNat % 16 * 4 / 4) = b := ofNat_eq (by omega)
  have unused : b.toNat % 16 * 4 % 4 = 0 := by omega
  simp only [group?, p, q, r, digit, first, second, unused, Option.bind_eq_bind, Option.bind_some,
    decide_true, decide_false, Bool.false_and, Bool.false_eq_true, if_false, if_true]

theorem group?_three (a b c : UInt8) :
    group? (digitChar (a.toNat / 4)) (digitChar (a.toNat % 4 * 16 + b.toNat / 16))
      (digitChar (b.toNat % 16 * 4 + c.toNat / 64)) (digitChar (c.toNat % 64)) =
      some [a, b, c] := by
  have := a.toNat_lt
  have := b.toNat_lt
  have := c.toNat_lt
  have p := digit?_digitChar (a.toNat / 4) (by omega)
  have q := digit?_digitChar (a.toNat % 4 * 16 + b.toNat / 16) (by omega)
  have r := digit?_digitChar (b.toNat % 16 * 4 + c.toNat / 64) (by omega)
  have s := digit?_digitChar (c.toNat % 64) (by omega)
  have digit := digitChar_ne_padding (c.toNat % 64) (by omega)
  have first : UInt8.ofNat (a.toNat / 4 * 4 + (a.toNat % 4 * 16 + b.toNat / 16) / 16) = a :=
    ofNat_eq (by omega)
  have second : UInt8.ofNat ((a.toNat % 4 * 16 + b.toNat / 16) % 16 * 16 +
      (b.toNat % 16 * 4 + c.toNat / 64) / 4) = b := ofNat_eq (by omega)
  have third : UInt8.ofNat ((b.toNat % 16 * 4 + c.toNat / 64) % 4 * 64 + c.toNat % 64) = c :=
    ofNat_eq (by omega)
  simp only [group?, p, q, r, s, digit, first, second, third, Option.bind_eq_bind,
    Option.bind_some, decide_false, Bool.and_false, Bool.false_eq_true, if_false]

theorem forall_mem_encode {p : Char → Prop} (hdigit : ∀ n < 64, p (digitChar n)) (hpadding : p '=')
    (bytes : List UInt8) : ∀ c ∈ encode bytes, p c := by
  have hfirst (a : UInt8) : p (digitChar (a.toNat / 4)) :=
    hdigit _ (by have := a.toNat_lt; omega)
  have hsecond (a b : UInt8) : p (digitChar (a.toNat % 4 * 16 + b.toNat / 16)) :=
    hdigit _ (by have := b.toNat_lt; omega)
  have hthird (b c : UInt8) : p (digitChar (b.toNat % 16 * 4 + c.toNat / 64)) :=
    hdigit _ (by have := c.toNat_lt; omega)
  fun_induction encode bytes with
  | case1 => simp
  | case2 a => simpa [hpadding] using ⟨hfirst a, hdigit (a.toNat % 4 * 16) (by omega)⟩
  | case3 a b =>
    simpa [hpadding] using ⟨hfirst a, hsecond a b, hdigit (b.toNat % 16 * 4) (by omega)⟩
  | case4 a b c rest ih =>
    have hfourth : p (digitChar (c.toNat % 64)) := hdigit _ (by omega)
    simpa using ⟨hfirst a, hsecond a b, hthird b c, hfourth, ih⟩

/-- Reading gives back the bytes that were written. -/
theorem decode?_encode (bytes : List UInt8) : decode? (encode bytes) = some bytes := by
  fun_induction encode bytes with
  | case1 => rfl
  | case2 a => simp [decode?, group?_one]
  | case3 a b => simp [decode?, group?_two]
  | case4 a b c rest ih => simp [decode?, group?_three, ih]

end MappedTrace.Base64
