import MappedTrace.Text.Utf8

/-!
# Writing and reading UTF-8

Pieces of a text are written apart as they are written together.

A character is written as one to four bytes. The first of them says how many follow and within which
bounds the next one lies, and each of those adds six bits. So a text is read back from its bytes.
-/

namespace MappedTrace.Utf8

theorem encode_append (text other : Text) :
    encode (text ++ other) = encode text ++ encode other :=
  List.flatMap_append

theorem encode_flatMap {α : Type} (items : List α) (write : α → Text) :
    encode (items.flatMap write) = items.flatMap fun item => encode (write item) :=
  List.flatMap_assoc

section

variable {b v : Nat} (rest : List UInt8)

private theorem toNat_byte (h : b < 256) : (UInt8.ofNat b).toNat = b :=
  UInt8.toNat_ofNat_of_lt' h

theorem decodeFrom_ascii (h : b < 0x80) :
    decodeFrom none (UInt8.ofNat b :: rest) =
      (decodeFrom none rest).map (Char.ofNat b :: ·) := by
  rw [decodeFrom, toNat_byte (by omega), if_pos h]

theorem decodeFrom_begin {pending : Pending} (hlow : 0x80 ≤ b) (hhigh : b < 256)
    (hbegin : begin? b = some pending) :
    decodeFrom none (UInt8.ofNat b :: rest) = decodeFrom (some pending) rest := by
  rw [decodeFrom, toNat_byte hhigh, if_neg (Nat.not_lt.mpr hlow), hbegin]

/-- The number that a character is made of so far goes before the next six bits. -/
theorem decodeFrom_six {left low high : Nat} (hlow : low ≤ v % 64 + 128)
    (hhigh : v % 64 + 128 ≤ high) :
    decodeFrom (some ⟨left, v / 64, low, high⟩) (UInt8.ofNat (v % 64 + 128) :: rest) =
      if left ≤ 1 then (decodeFrom none rest).map (Char.ofNat v :: ·)
      else decodeFrom (some ⟨left - 1, v, 0x80, 0xBF⟩) rest := by
  have hbounds : (low ≤ v % 64 + 128 && v % 64 + 128 ≤ high) = true := by
    simp [hlow, hhigh]
  rw [decodeFrom, toNat_byte (by omega), if_pos hbounds, Nat.add_sub_cancel]
  dsimp only
  rw [Nat.div_add_mod']

theorem decodeFrom_last (v : Nat) :
    decodeFrom (some ⟨1, v / 64, 0x80, 0xBF⟩) (UInt8.ofNat (v % 64 + 128) :: rest) =
      (decodeFrom none rest).map (Char.ofNat v :: ·) := by
  rw [decodeFrom_six rest (by omega) (by omega), if_pos (Nat.le_refl 1)]

theorem decodeFrom_two (hlow : 0x80 ≤ v) (hhigh : v < 0x800) :
    decodeFrom none
        (UInt8.ofNat (v / 64 % 32 + 192) :: UInt8.ofNat (v % 64 + 128) :: rest) =
      (decodeFrom none rest).map (Char.ofNat v :: ·) := by
  have hbits : v / 64 % 32 + 192 - 0xC0 = v / 64 := by omega
  have hbegin : begin? (v / 64 % 32 + 192) = some ⟨1, v / 64, 0x80, 0xBF⟩ := by
    rw [begin?, if_neg (by omega), if_pos (by omega), hbits]
  rw [decodeFrom_begin _ (by omega) (by omega) hbegin, decodeFrom_last]

theorem decodeFrom_three (hlow : 0x800 ≤ v) (hhigh : v < 0x10000)
    (hvalid : v < 0xD800 ∨ 0xDFFF < v) :
    decodeFrom none
        (UInt8.ofNat (v / 4096 % 16 + 224) :: UInt8.ofNat (v / 64 % 64 + 128) ::
          UInt8.ofNat (v % 64 + 128) :: rest) =
      (decodeFrom none rest).map (Char.ofNat v :: ·) := by
  have hbits : v / 4096 % 16 + 224 - 0xE0 = v / 64 / 64 := by omega
  have hbegin : begin? (v / 4096 % 16 + 224) =
      some ⟨2, v / 64 / 64, if v / 4096 % 16 + 224 = 0xE0 then 0xA0 else 0x80,
        if v / 4096 % 16 + 224 = 0xED then 0x9F else 0xBF⟩ := by
    rw [begin?, if_neg (by omega), if_neg (by omega), if_pos (by omega), hbits]
  rw [decodeFrom_begin _ (by omega) (by omega) hbegin,
    decodeFrom_six _ (by split <;> omega) (by split <;> omega), if_neg (by decide),
    decodeFrom_last]

theorem decodeFrom_four (hlow : 0x10000 ≤ v) (hhigh : v < 0x110000) :
    decodeFrom none
        (UInt8.ofNat (v / 262144 % 8 + 240) :: UInt8.ofNat (v / 4096 % 64 + 128) ::
          UInt8.ofNat (v / 64 % 64 + 128) :: UInt8.ofNat (v % 64 + 128) :: rest) =
      (decodeFrom none rest).map (Char.ofNat v :: ·) := by
  have hbits : v / 262144 % 8 + 240 - 0xF0 = v / 4096 / 64 := by omega
  have hbegin : begin? (v / 262144 % 8 + 240) =
      some ⟨3, v / 4096 / 64, if v / 262144 % 8 + 240 = 0xF0 then 0x90 else 0x80,
        if v / 262144 % 8 + 240 = 0xF4 then 0x8F else 0xBF⟩ := by
    rw [begin?, if_neg (by omega), if_neg (by omega), if_neg (by omega), if_pos (by omega), hbits]
  have hsecond : v / 4096 = v / 64 / 64 := (Nat.div_div_eq_div_mul v 64 64).symm
  rw [decodeFrom_begin _ (by omega) (by omega) hbegin,
    decodeFrom_six _ (by split <;> omega) (by split <;> omega), if_neg (by decide), hsecond,
    decodeFrom_six _ (by omega) (by omega), if_neg (by decide), decodeFrom_last]

end

theorem decodeFrom_encodeChar (c : Char) (rest : List UInt8) :
    decodeFrom none (String.utf8EncodeChar c ++ rest) =
      (decodeFrom none rest).map (c :: ·) := by
  have hsame : Char.ofNat c.val.toNat = c := Char.ofNat_toNat c
  have hvalid : c.val.toNat < 0xD800 ∨ 0xDFFF < c.val.toNat ∧ c.val.toNat < 0x110000 := c.valid
  unfold String.utf8EncodeChar
  dsimp only
  split
  · rw [List.singleton_append, decodeFrom_ascii _ (by omega), hsame]
  split
  · exact (decodeFrom_two rest (by omega) (by omega)).trans (by rw [hsame])
  split
  · exact (decodeFrom_three rest (by omega) (by omega) (by omega)).trans (by rw [hsame])
  · exact (decodeFrom_four rest (by omega) (by omega)).trans (by rw [hsame])

theorem decode_encode (text : Text) : decode (encode text) = some text := by
  unfold decode encode
  induction text with
  | nil => rfl
  | cons c rest ih => rw [List.flatMap_cons, decodeFrom_encodeChar, ih, Option.map_some]

end MappedTrace.Utf8
