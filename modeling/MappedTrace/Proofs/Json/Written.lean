import MappedTrace.Json.Parser
import MappedTrace.Proofs.Numeral.Plain
import Mathlib.Algebra.GroupWithZero.Nat
import Mathlib.Data.List.TakeWhile

/-!
# Reading what was written

A quoted text is read as one string, up to its closing quotation mark, since the escapes keep every
other one from being taken for it. A written number is read as one too, up to what follows it. Each
is a value that may be looked at, and so is an object of them.
-/

namespace MappedTrace.Json

open Text (isHexDigit)

/-! ### Strings -/

/-- The three ways in which a character is written in a string. -/
inductive Escaped (c : Char) : Text → Prop
  | plain (inside : c ≠ '"') (alone : c ≠ '\\') (visible : 0x20 ≤ c.toNat) : Escaped c [c]
  | letter {letter : Char} (known : (escaped? letter).isSome) (named : letter ≠ 'u') :
    Escaped c ['\\', letter]
  | number {high low : Char} (first : isHexDigit high) (second : isHexDigit low) :
    Escaped c ['\\', 'u', '0', '0', high, low]

theorem escaped_escape (c : Char) : Escaped c (escape c) := by
  unfold escape
  split
  · exact .letter rfl (by decide)
  split
  · exact .letter rfl (by decide)
  split
  · exact .letter rfl (by decide)
  split
  · exact .letter rfl (by decide)
  split
  · exact .letter rfl (by decide)
  split
  · exact .letter rfl (by decide)
  split
  · exact .letter rfl (by decide)
  split
  · have hdigit {n : Nat} (h : n < 16) : isHexDigit (Nat.digitChar n) := by
      rw [isHexDigit, Text.hexDigit?_digitChar n h]
      rfl
    have hhigh : c.toNat / 16 < 16 := by omega
    have hlow : c.toNat % 16 < 16 := Nat.mod_lt _ (by decide)
    exact .number (hdigit hhigh) (hdigit hlow)
  · rename_i hinside halone _ _ _ _ _ hvisible
    exact .plain hinside halone (Nat.not_lt.mp hvisible)

theorem Escaped.lineFeed_not_mem {c : Char} {body : Text} (h : Escaped c body) : '\n' ∉ body := by
  have hdigit {d : Char} (h : isHexDigit d) : d ≠ '\n' := by
    rintro rfl
    contradiction
  cases h with
  | plain _ _ hvisible =>
    rw [List.mem_singleton]
    rintro rfl
    revert hvisible
    decide
  | @letter letter hknown _ =>
    have hletter : letter ≠ '\n' := by
      rintro rfl
      exact absurd hknown (by decide)
    simp [Ne.symm hletter]
  | number hfirst hsecond => simp [Ne.symm (hdigit hfirst), Ne.symm (hdigit hsecond)]

theorem lineFeed_not_mem_quote (text : Text) : '\n' ∉ quote text := by
  have hbody : '\n' ∉ text.flatMap escape := by
    intro hmem
    obtain ⟨c, -, hc⟩ := List.mem_flatMap.mp hmem
    exact (escaped_escape c).lineFeed_not_mem hc
  simp [quote, hbody]

/-! ### Numbers -/

namespace Number

def ofWord (n : UInt32) : Number where
  negative := false
  whole := Numeral.write n
  fraction := []
  exponent := none

theorem word?_ofWord (n : UInt32) : (ofWord n).word? = some n :=
  Numeral.ofDigits?_write n

theorem roundBinary_of_lt {n : Nat} (h : n < 2 ^ 53) : roundBinary n = n := by
  have hbits : n.log2 + 1 - 53 = 0 := by
    by_cases hzero : n = 0
    · subst hzero
      rfl
    · have hlog := (Nat.log2_lt hzero).mpr h
      omega
  have hunit : Nat.pow 2 0 = 1 := rfl
  rw [roundBinary, hbits, hunit]
  simp [Nat.mod_one]

theorem le_ofDigitChars (digits : Text) (value : Nat) :
    value ≤ Nat.ofDigitChars 10 digits value := by
  induction digits generalizing value with
  | nil => exact Nat.le_refl value
  | cons c rest ih =>
    rw [Nat.ofDigitChars_cons]
    have hrest := ih (10 * value + (c.toNat - '0'.toNat))
    omega

private theorem foldl_significand (digits : Text) (value : Nat)
    (h : Nat.ofDigitChars 10 digits value < UInt64.size) :
    digits.foldl (fun (value, dropped) digit =>
      let longer := value * 10 + (digit.toNat - '0'.toNat)
      if dropped = 0 && longer < UInt64.size then (longer, 0) else (value, dropped + 1))
        (value, 0) = (Nat.ofDigitChars 10 digits value, 0) := by
  induction digits generalizing value with
  | nil => rfl
  | cons c rest ih =>
    rw [Nat.ofDigitChars_cons, Nat.mul_comm] at h ⊢
    have hfits := Nat.lt_of_le_of_lt (le_ofDigitChars rest _) h
    have hkept : (decide (0 = 0) &&
        decide (value * 10 + (c.toNat - '0'.toNat) < UInt64.size)) = true := by
      simpa using hfits
    rw [List.foldl_cons]
    dsimp only
    rw [if_pos hkept, ih _ h]

theorem significand_write (n : UInt32) : significand (Numeral.write n) = (n.toNat, 0) := by
  have hvalue : Nat.ofDigitChars 10 (Numeral.write n) 0 = n.toNat :=
    Nat.ofDigitChars_ten_toDigits
  have hfits : n.toNat < UInt64.size := Nat.lt_trans n.toNat_lt_size (by decide)
  rw [significand, foldl_significand _ _ (hvalue ▸ hfits), hvalue]

theorem isFinite_ofWord (n : UInt32) : (ofWord n).isFinite = true := by
  have hsmall : n.toNat < 2 ^ 53 := Nat.lt_trans n.toNat_lt_size (by decide)
  have hone : roundBinary (Nat.pow 10 (Int.toNat 0)) = 1 := roundBinary_of_lt (by decide)
  have hsignificand : significand ((ofWord n).whole ++ (ofWord n).fraction) = (n.toNat, 0) := by
    rw [ofWord, List.append_nil, significand_write]
  have hpower : (ofWord n).exponent.getD 0 + ((0 : Nat) : Int) - (ofWord n).fraction.length = 0 :=
    rfl
  obtain ⟨limit, hlimit, hbound⟩ : ∃ limit, limit = 1024 ∧ 53 ≤ limit := ⟨1024, rfl, by decide⟩
  have hlarge : n.toNat < Nat.pow 2 limit :=
    Nat.lt_of_lt_of_le hsmall (Nat.pow_le_pow_right (by decide) hbound)
  rw [isFinite, hsignificand, ← hlimit]
  dsimp only
  rw [hpower, hone, roundBinary_of_lt hsmall, Nat.mul_one, roundBinary_of_lt hsmall,
    decide_eq_true hlarge]
  simp

theorem read?_write (n : UInt32) : read? (Numeral.write n) = some (ofWord n) := by
  have hfilled := Numeral.write_ne_nil n
  have hdigits : ∀ c ∈ Numeral.write n, c.isDigit = true := fun _ => Numeral.isDigit_of_mem_write
  have hplain : Numeral.IsPlain (Numeral.write n) := Numeral.isPlain_toDigits n.toNat
  have hwhole : ofWord n = ⟨false, Numeral.write n, [], none⟩ := rfl
  rw [hwhole]
  generalize Numeral.write n = digits at *
  have hsplit : digits? digits = some (digits, []) := by
    rw [digits?, List.takeWhile_eq_self_iff.mpr hdigits, List.dropWhile_eq_nil_iff.mpr hdigits]
    cases digits with
    | nil => exact absurd rfl hfilled
    | cons c rest => rfl
  have hspelled : (digits.head? = some '0' && digits.length ≠ 1) = false := by
    by_cases hzero : digits.head? = some '0'
    · rw [hplain hzero]
      rfl
    · simp [hzero]
  cases digits with
  | nil => exact absurd rfl hfilled
  | cons c rest =>
    have hunsigned : c ≠ '-' := by
      rintro rfl
      have hminus := hdigits '-' List.mem_cons_self
      contradiction
    rw [read?, hsplit]
    · rw [Option.bind_eq_bind, Option.bind_some]
      dsimp only
      rw [hspelled]
      rfl
    · intro other hcons
      exact hunsigned (List.cons.inj hcons).1

end Number

/-! ### Tokens -/

namespace Token

theorem scan_of_step {state next : State} {c : Char} {tokens : List Token}
    (h : step state c = some (tokens, next)) (rest : Text) :
    scan state (c :: rest) = (scan next rest).map (tokens ++ ·) := by
  rw [scan, h]

theorem scan_of_silent_step {state next : State} {c : Char} (h : step state c = some ([], next))
    (rest : Text) : scan state (c :: rest) = scan next rest := by
  rw [scan_of_step h]
  exact Option.map_id'

theorem scan_escaped {c : Char} {body : Text} (h : Escaped c body) (read rest : Text) :
    scan (.quoted read) (body ++ rest) = scan (.quoted (body.reverse ++ read)) rest := by
  have hbackslash (rest : Text) :
      scan (.quoted read) ('\\' :: rest) = scan (.escaped ('\\' :: read)) rest :=
    scan_of_silent_step rfl rest
  cases h with
  | plain hinside halone hvisible =>
    have hstep : step (.quoted read) c = some ([], .quoted (c :: read)) := by
      rw [step, if_neg hinside, if_neg halone, if_neg (Nat.not_lt.mpr hvisible)]
    exact scan_of_silent_step hstep rest
  | @letter letter hknown hnamed =>
    have hstep : step (.escaped ('\\' :: read)) letter =
        some ([], .quoted (letter :: '\\' :: read)) := by
      rw [step, if_neg hnamed, if_pos hknown]
    exact (hbackslash _).trans (scan_of_silent_step hstep rest)
  | @number high low hfirst hsecond =>
    have hhigh (read : Text) : step (.unit read 2) high = some ([], .unit (high :: read) 1) := by
      simp [step, hfirst]
    have hlow (read : Text) : step (.unit read 1) low = some ([], .quoted (low :: read)) := by
      simp [step, hsecond]
    calc scan (.quoted read) ('\\' :: 'u' :: '0' :: '0' :: high :: low :: rest)
        = scan (.unit ('0' :: '0' :: 'u' :: '\\' :: read) 2) (high :: low :: rest) := by
          rw [hbackslash, scan_of_silent_step rfl, scan_of_silent_step rfl,
            scan_of_silent_step rfl]
      _ = scan (.quoted (low :: high :: '0' :: '0' :: 'u' :: '\\' :: read)) rest := by
          rw [scan_of_silent_step (hhigh _), scan_of_silent_step (hlow _)]

theorem scan_escapes (read text rest : Text) :
    scan (.quoted read) (text.flatMap escape ++ rest) =
      scan (.quoted ((text.flatMap escape).reverse ++ read)) rest := by
  induction text generalizing read with
  | nil => rfl
  | cons c text ih =>
    rw [List.flatMap_cons, List.append_assoc, scan_escaped (escaped_escape c), ih,
      List.reverse_append, List.append_assoc]

theorem scan_quote (text rest : Text) :
    scan .between (quote text ++ rest) =
      (scan .between rest).map (.scalar (.string (text.flatMap escape)) :: ·) := by
  have hopen : step .between '"' = some ([], .quoted []) := rfl
  have hclose (read : Text) : step (.quoted read) '"' =
    some ([.scalar (.string read.reverse)], .between) := rfl
  rw [quote, List.append_assoc, List.cons_append, scan_of_silent_step hopen, scan_escapes,
    List.append_nil, List.singleton_append, scan_of_step (hclose _), List.reverse_reverse]
  rfl

theorem isSpace_eq_true_iff {c : Char} :
    isSpace c = true ↔ c = ' ' ∨ c = '\t' ∨ c = '\n' ∨ c = '\r' := by
  simp [isSpace, or_assoc]

theorem step_of_isDigit {c : Char} (h : c.isDigit = true) :
    step .between c = some ([], .bare [c]) ∧
      ∀ read, step (.bare read) c = some ([], .bare (c :: read)) := by
  have hspace : isSpace c = false := by
    rw [← Bool.not_eq_true, isSpace_eq_true_iff]
    rintro (rfl | rfl | rfl | rfl) <;> contradiction
  have hquote : c ≠ '"' := by
    rintro rfl
    contradiction
  have hmark : punctuation? c = none := by
    unfold punctuation?
    repeat
      split
      · subst c
        contradiction
    rfl
  simp [step, startStep, hspace, hquote, hmark]

theorem scan_digits {digits : Text} (h : ∀ c ∈ digits, c.isDigit = true) (read rest : Text) :
    scan (.bare read) (digits ++ rest) = scan (.bare (digits.reverse ++ read)) rest := by
  induction digits generalizing read with
  | nil => rfl
  | cons c digits ih =>
    obtain ⟨hc, hdigits⟩ := List.forall_mem_cons.mp h
    rw [List.cons_append, scan_of_silent_step ((step_of_isDigit hc).2 read), ih hdigits,
      List.reverse_cons, List.append_assoc, List.singleton_append]

theorem startStep_of_punctuation {mark : Char} {token : Token}
    (h : punctuation? mark = some token) : startStep mark = ([token], .between) := by
  have hspace : isSpace mark = false := by
    rw [← Bool.not_eq_true, isSpace_eq_true_iff]
    rintro (rfl | rfl | rfl | rfl) <;> contradiction
  have hquote : mark ≠ '"' := by
    rintro rfl
    contradiction
  rw [startStep, hspace, if_neg Bool.false_ne_true, if_neg hquote, h]

theorem scan_mark {mark : Char} {token : Token} (h : punctuation? mark = some token)
    (rest : Text) : scan .between (mark :: rest) = (scan .between rest).map (token :: ·) := by
  have hstep : step .between mark = some ([token], .between) := by
    rw [step, startStep_of_punctuation h]
  rw [scan_of_step hstep]
  rfl

theorem bare?_write (n : UInt32) :
    bare? (Numeral.write n) = some (.number (.ofWord n)) := by
  have hword (word : Text) (h : word.all Char.isDigit = false) : Numeral.write n ≠ word := by
    rintro rfl
    rw [List.all_eq_true.mpr fun _ => Numeral.isDigit_of_mem_write] at h
    contradiction
  rw [bare?, if_neg (hword _ (by decide)), if_neg (hword _ (by decide)),
    if_neg (hword _ (by decide)), Number.read?_write, Option.map_some]

theorem scan_write {mark : Char} {token : Token} (h : punctuation? mark = some token) (n : UInt32)
    (rest : Text) :
    scan .between (Numeral.write n ++ mark :: rest) =
      (scan .between rest).map ([.scalar (.number (.ofWord n)), token] ++ ·) := by
  have hdigits : ∀ c ∈ Numeral.write n, c.isDigit = true := fun _ => Numeral.isDigit_of_mem_write
  have hends : (isSpace mark || mark = '"' || (punctuation? mark).isSome) = true := by
    simp [h]
  have hstep : step (.bare (Numeral.write n).reverse) mark =
      some ([.scalar (.number (.ofWord n)), token], .between) := by
    rw [step, if_pos hends, List.reverse_reverse, bare?_write, startStep_of_punctuation h]
  have hread : scan .between (Numeral.write n ++ mark :: rest) =
      scan (.bare (Numeral.write n).reverse) (mark :: rest) := by
    have hfilled := Numeral.write_ne_nil n
    generalize Numeral.write n = digits at *
    cases digits with
    | nil => exact absurd rfl hfilled
    | cons c digits =>
      obtain ⟨hc, hothers⟩ := List.forall_mem_cons.mp hdigits
      rw [List.cons_append, scan_of_silent_step (step_of_isDigit hc).1, scan_digits hothers,
        List.reverse_cons]
  rw [hread, scan_of_step hstep]

end Token

/-! ### Values -/

namespace Reader

theorem scalar?_string (text : Text) :
    whole.scalar? (some ()) (.string (text.flatMap escape)) = some (.string text) :=
  congrArg (Option.map Json.string) (unescape?_flatMap_escape text)

theorem scalar?_ofWord (n : UInt32) :
    whole.scalar? (some ()) (.number (.ofWord n)) = some (.number (.ofWord n)) :=
  if_pos (Number.isFinite_ofWord n)

/-- A member of an object is read from the key to where the next comma or bracket has to stand. -/
theorem foldlM_member {value : Scalar} {json : Json}
    (h : whole.scalar? (some ()) value = some json) (name : Text) (members : List (Text × Json))
    (stack : List (Frame Unit)) (rest : List Token) :
    (.scalar (.string (name.flatMap escape)) :: .colon :: .scalar value :: rest).foldlM whole.step
        (.key (some ()) members stack) =
      rest.foldlM whole.step (.separator json (.object (some ()) members name :: stack)) := by
  have hname : whole.step (.key (some ()) members stack)
      (.scalar (.string (name.flatMap escape))) = some (.colon (some ()) members name stack) :=
    congrArg (Option.map (Expecting.colon (some ()) members · stack)) (unescape?_flatMap_escape name)
  have hcolon : whole.step (.colon (some ()) members name stack) .colon =
      some (.value (some ()) (.object (some ()) members name :: stack)) := rfl
  have hvalue : whole.step (.value (some ()) (.object (some ()) members name :: stack))
      (.scalar value) = some (.separator json (.object (some ()) members name :: stack)) :=
    congrArg (Option.map (Expecting.separator · (.object (some ()) members name :: stack))) h
  rw [List.foldlM_cons, hname, Option.bind_eq_bind, Option.bind_some, List.foldlM_cons, hcolon,
    Option.bind_eq_bind, Option.bind_some, List.foldlM_cons, hvalue, Option.bind_eq_bind,
    Option.bind_some]

end Reader

end MappedTrace.Json
