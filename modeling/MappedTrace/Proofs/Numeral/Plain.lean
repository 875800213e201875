import MappedTrace.Numeral

/-!
# Numerals without leading zeros

Digits are read as a number that is written without leading zeros. So they are written back as they
were exactly if they had none.
-/

namespace MappedTrace.Numeral

/-- Only zero itself begins with a zero. -/
def IsPlain (digits : Text) : Prop :=
  digits.head? = some '0' → digits = ['0']

instance (digits : Text) : Decidable (IsPlain digits) :=
  inferInstanceAs (Decidable (_ → _))

section

variable {c : Char} {digits : Text}

private theorem value_lt (h : c.isDigit = true) : c.toNat - '0'.toNat < 10 := by
  have hbounds : 48 ≤ c.toNat ∧ c.toNat ≤ 57 := Char.isDigit_iff_toNat.mp h
  have hzero : '0'.toNat = 48 := rfl
  omega

private theorem digitChar_value (h : c.isDigit = true) :
    Nat.digitChar (c.toNat - '0'.toNat) = c := by
  have hbounds : 48 ≤ c.toNat ∧ c.toNat ≤ 57 := Char.isDigit_iff_toNat.mp h
  have hzero : '0'.toNat = 48 := rfl
  apply Char.toNat_inj.mp
  rw [Nat.toNat_digitChar_of_lt_ten (value_lt h)]
  omega

theorem toDigits_ofDigitChars (hdigits : ∀ c ∈ digits, c.isDigit = true) {n : Nat} (hn : 0 < n) :
    Nat.toDigits 10 (Nat.ofDigitChars 10 digits n) = Nat.toDigits 10 n ++ digits := by
  induction digits generalizing n with
  | nil => rw [Nat.ofDigitChars_nil, List.append_nil]
  | cons c rest ih =>
    obtain ⟨hc, hrest⟩ := List.forall_mem_cons.mp hdigits
    have hlast : Nat.toDigits 10 (c.toNat - '0'.toNat) = [c] := by
      rw [Nat.toDigits_of_lt_base (value_lt hc), digitChar_value hc]
    rw [Nat.ofDigitChars_cons, ih hrest (by omega),
      ← Nat.toDigits_append_toDigits (by decide) hn (value_lt hc), hlast, List.append_assoc,
      List.singleton_append]

theorem IsPlain.toDigits_eq (hplain : IsPlain digits) (hfilled : digits ≠ [])
    (hdigits : ∀ c ∈ digits, c.isDigit = true) :
    Nat.toDigits 10 (Nat.ofDigitChars 10 digits 0) = digits := by
  obtain ⟨c, rest, rfl⟩ := List.exists_cons_of_ne_nil hfilled
  obtain ⟨hc, hrest⟩ := List.forall_mem_cons.mp hdigits
  by_cases hzero : c = '0'
  · rw [hplain (congrArg some hzero)]
    rfl
  · have hpositive : 0 < c.toNat - '0'.toNat := by
      rw [Nat.pos_iff_ne_zero]
      intro hnone
      have hvalue := digitChar_value hc
      rw [hnone] at hvalue
      exact hzero hvalue.symm
    rw [Nat.ofDigitChars_cons, Nat.mul_zero, Nat.zero_add, toDigits_ofDigitChars hrest hpositive,
      Nat.toDigits_of_lt_base (value_lt hc), digitChar_value hc, List.singleton_append]

theorem isPlain_toDigits (n : Nat) : IsPlain (Nat.toDigits 10 n) := by
  induction n using Nat.strongRecOn with
  | ind n ih =>
    by_cases hsmall : n < 10
    · rw [Nat.toDigits_of_lt_base hsmall, IsPlain]
      simp
    · obtain ⟨d, front, hcons⟩ := List.exists_cons_of_ne_nil (Nat.toDigits_ne_nil (n := n / 10))
      rw [Nat.toDigits_of_base_le (by decide) (by omega), hcons]
      intro hzero
      have hfront := ih (n / 10) (by omega) (hcons ▸ hzero)
      have hvalue := Nat.ofDigitChars_ten_toDigits (n := n / 10)
      rw [hfront] at hvalue
      have hnone : Nat.ofDigitChars 10 ['0'] 0 = 0 := rfl
      omega

end

variable {digits : Text} {n : UInt32}

theorem ofDigits?_eq_some (h : ofDigits? digits = some n) :
    digits ≠ [] ∧ (∀ c ∈ digits, c.isDigit = true) ∧ Nat.ofDigitChars 10 digits 0 = n.toNat := by
  unfold ofDigits? at h
  split at h
  · contradiction
  · rename_i hread
    simp only [Bool.or_eq_true, Bool.not_eq_true', not_or, List.isEmpty_iff,
      Bool.not_eq_false] at hread
    dsimp only at h
    split at h
    · rename_i hsmall
      refine ⟨hread.1, List.all_eq_true.mp hread.2, ?_⟩
      rw [← Option.some.inj h, UInt32.toNat_ofNat_of_lt' hsmall]
    · contradiction

theorem write_eq_iff (h : ofDigits? digits = some n) : write n = digits ↔ IsPlain digits := by
  obtain ⟨hfilled, hdigits, hvalue⟩ := ofDigits?_eq_some h
  constructor
  · rintro rfl
    exact isPlain_toDigits n.toNat
  · intro hplain
    rw [write, ← hvalue, hplain.toDigits_eq hfilled hdigits]

end MappedTrace.Numeral
