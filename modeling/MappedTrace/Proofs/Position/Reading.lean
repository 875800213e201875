import MappedTrace.Proofs.Numeral.Plain
import MappedTrace.Proofs.Position.Rendering
import MappedTrace.Proofs.Text.Lines

/-!
# Reading positions

A text is read as a position if, without the blanks around it, it is a source and two numerals, each
behind a colon. The source may hold colons of its own, and the numerals hold none, so the text is
cut in one way only. Any other text is refused for one fault: for its form before its line, and for
its line before its column. What is written of a position is read as the same position, unless its
source is empty or begins with a blank.
-/

namespace MappedTrace

namespace Numeral

/-- Decimal digits, perhaps behind a plus sign, for a number that fits into a word. -/
def Spells (text : Text) (n : UInt32) : Prop :=
  ∃ digits, (text = digits ∨ text = '+' :: digits) ∧ digits ≠ [] ∧
    (∀ c ∈ digits, c.isDigit = true) ∧ Nat.ofDigitChars 10 digits 0 = n.toNat

variable {text digits : Text} {n : UInt32}

theorem ofDigits?_eq_some_iff :
    ofDigits? digits = some n ↔
      digits ≠ [] ∧ (∀ c ∈ digits, c.isDigit = true) ∧
        Nat.ofDigitChars 10 digits 0 = n.toNat := by
  refine ⟨ofDigits?_eq_some, ?_⟩
  rintro ⟨hfilled, hdigits, hvalue⟩
  have hempty : digits.isEmpty = false := List.isEmpty_eq_false_iff.mpr hfilled
  have hall : digits.all Char.isDigit = true := List.all_eq_true.mpr hdigits
  have hsmall : n.toNat < UInt32.size := n.toNat_lt_size
  simp [ofDigits?, hempty, hall, hvalue, hsmall]

theorem read?_eq_some_iff : read? text = some n ↔ Spells text n := by
  constructor
  · intro h
    unfold read? at h
    split at h
    · exact ⟨_, .inr rfl, ofDigits?_eq_some h⟩
    · exact ⟨_, .inl rfl, ofDigits?_eq_some h⟩
  · rintro ⟨digits, hsign, hspelled⟩
    have hread := ofDigits?_eq_some_iff.mpr hspelled
    rcases hsign with rfl | rfl
    · unfold read?
      split
      · have hplus : Char.isDigit '+' = true := hspelled.2.1 '+' List.mem_cons_self
        contradiction
      · exact hread
    · exact hread

theorem read?_eq_none_iff : read? text = none ↔ ∀ n, ¬ Spells text n := by
  rw [Option.eq_none_iff_forall_ne_some]
  exact forall_congr' fun n => not_congr read?_eq_some_iff

end Numeral

namespace Text

theorem trimStart_append_cons {c : Char} (h : isBlank c = false) (front rest : Text) :
    trimStart (front ++ c :: rest) = trimStart front ++ c :: rest := by
  have hstays : (c :: rest).dropWhile isBlank = c :: rest :=
    List.dropWhile_cons_of_neg (by simp [h])
  rw [trimStart, trimStart, List.dropWhile_append]
  split
  · rename_i hempty
    rw [hstays, List.isEmpty_iff.mp hempty, List.nil_append]
  · rfl

theorem trimStart_eq_self_iff {text : Text} :
    trimStart text = text ↔ ∀ c, text.head? = some c → isBlank c = false := by
  rw [trimStart, List.dropWhile_eq_self_iff]
  cases text <;> simp

end Text

namespace Position

/-- The text at its last two colons: what is in front of them, between them and behind them. -/
structure SplitsInto (text source line column : Text) : Prop where
  whole : text = source ++ ':' :: line ++ ':' :: column
  line : ':' ∉ line
  column : ':' ∉ column

/-- What comes of reading a text: a position, or the fault for which it is refused. -/
inductive Reading (text : Text) : Except ParseError Position → Prop
  | position {source line column : Text} {l c : UInt32}
    (split : SplitsInto text.trim source line column) (named : source ≠ [])
    (lineSpelled : Numeral.Spells line l) (columnSpelled : Numeral.Spells column c) :
    Reading text (.ok ⟨source, l, c⟩)
  | fewColons (few : text.trim.count ':' < 2) : Reading text (.error (.malformed text))
  | unnamed {line column : Text} (split : SplitsInto text.trim [] line column) :
    Reading text (.error (.malformed text))
  | badLine {source line column : Text} (split : SplitsInto text.trim source line column)
    (named : source ≠ []) (lineBad : ∀ l, ¬ Numeral.Spells line l) :
    Reading text (.error (.badLine line))
  | badColumn {source line column : Text} {l : UInt32}
    (split : SplitsInto text.trim source line column) (named : source ≠ [])
    (lineSpelled : Numeral.Spells line l) (columnBad : ∀ c, ¬ Numeral.Spells column c) :
    Reading text (.error (.badColumn column))

section

variable {text source line column : Text}

theorem cut?_eq_some_iff :
    cut? text = some (source, line, column) ↔ SplitsInto text source line column := by
  constructor
  · intro h
    simp only [cut?, Option.bind_eq_bind, Option.bind_eq_some_iff, Prod.exists] at h
    obtain ⟨front, back, hcolumn, whole, middle, hline, h⟩ := h
    obtain ⟨rfl, rfl, rfl⟩ : whole = source ∧ middle = line ∧ back = column := by simpa using h
    obtain ⟨hwhole, hback⟩ := Text.cutLast?_singleton_eq_some_iff.mp hcolumn
    obtain ⟨hfront, hmiddle⟩ := Text.cutLast?_singleton_eq_some_iff.mp hline
    exact ⟨by rw [hwhole, hfront], hmiddle, hback⟩
  · rintro ⟨rfl, hline, hcolumn⟩
    rw [cut?, Text.cutLast?_append_cons _ hcolumn]
    dsimp only [Option.bind_eq_bind, Option.bind_some]
    rw [Text.cutLast?_append_cons _ hline]
    rfl

theorem cut?_eq_none_iff : cut? text = none ↔ text.count ':' < 2 := by
  rw [cut?]
  cases hcolumn : Text.cutLast? [':'] text with
  | none =>
    have hnone := List.count_eq_zero.mpr (Text.cutLast?_singleton_eq_none_iff.mp hcolumn)
    exact iff_of_true rfl (by omega)
  | some parts =>
    obtain ⟨front, column⟩ := parts
    obtain ⟨rfl, hlast⟩ := Text.cutLast?_singleton_eq_some_iff.mp hcolumn
    dsimp only [Option.bind_eq_bind, Option.bind_some]
    rw [List.count_append, List.count_cons_self, List.count_eq_zero.mpr hlast]
    cases hline : Text.cutLast? [':'] front with
    | none =>
      have hnone := List.count_eq_zero.mpr (Text.cutLast?_singleton_eq_none_iff.mp hline)
      exact iff_of_true rfl (by omega)
    | some parts =>
      have hmem : ':' ∈ front := by
        rw [Text.eq_append_of_cutLast? hline]
        simp
      have hpos := List.count_pos_iff.mpr hmem
      exact iff_of_false (Option.some_ne_none _) (by omega)

theorem parse_of_splitsInto (h : SplitsInto text.trim source line column) (hnamed : source ≠ []) :
    parse text =
      match Numeral.read? line, Numeral.read? column with
      | none, _ => .error (.badLine line)
      | some _, none => .error (.badColumn column)
      | some l, some c => .ok ⟨source, l, c⟩ := by
  rw [parse, cut?_eq_some_iff.mpr h]
  have hfilled : ¬ source.isEmpty = true := by simpa using hnamed
  exact if_neg hfilled

end

variable {text : Text} {result : Except ParseError Position}

theorem Reading.parse_eq (h : Reading text result) : parse text = result := by
  cases h with
  | position split named line column =>
    rw [parse_of_splitsInto split named, Numeral.read?_eq_some_iff.mpr line,
      Numeral.read?_eq_some_iff.mpr column]
  | fewColons few => rw [parse, cut?_eq_none_iff.mpr few]
  | unnamed split =>
    rw [parse, cut?_eq_some_iff.mpr split]
    rfl
  | badLine split named line =>
    rw [parse_of_splitsInto split named, Numeral.read?_eq_none_iff.mpr line]
  | badColumn split named line column =>
    rw [parse_of_splitsInto split named, Numeral.read?_eq_some_iff.mpr line,
      Numeral.read?_eq_none_iff.mpr column]

theorem exists_reading (text : Text) : ∃ result, Reading text result := by
  cases hcut : cut? text.trim with
  | none => exact ⟨_, .fewColons (cut?_eq_none_iff.mp hcut)⟩
  | some parts =>
    obtain ⟨source, line, column⟩ := parts
    have hsplit := cut?_eq_some_iff.mp hcut
    by_cases hnamed : source = []
    · exact ⟨_, .unnamed (hnamed ▸ hsplit)⟩
    · cases hline : Numeral.read? line with
      | none => exact ⟨_, .badLine hsplit hnamed (Numeral.read?_eq_none_iff.mp hline)⟩
      | some l =>
        have hspelled := Numeral.read?_eq_some_iff.mp hline
        cases hcolumn : Numeral.read? column with
        | none =>
          exact ⟨_, .badColumn hsplit hnamed hspelled (Numeral.read?_eq_none_iff.mp hcolumn)⟩
        | some c =>
          exact ⟨_, .position hsplit hnamed hspelled (Numeral.read?_eq_some_iff.mp hcolumn)⟩

theorem parse_eq_ok_iff {source : Text} {line column : UInt32} :
    parse text = .ok ⟨source, line, column⟩ ↔
      source ≠ [] ∧ ∃ first second, SplitsInto text.trim source first second ∧
        Numeral.read? first = some line ∧ Numeral.read? second = some column := by
  constructor
  · intro h
    obtain ⟨result, hresult⟩ := exists_reading text
    obtain rfl := hresult.parse_eq.symm.trans h
    cases hresult with
    | position split named first second =>
      exact ⟨named, _, _, split, Numeral.read?_eq_some_iff.mpr first,
        Numeral.read?_eq_some_iff.mpr second⟩
  · rintro ⟨hnamed, first, second, hsplit, hfirst, hsecond⟩
    rw [parse_of_splitsInto hsplit hnamed, hfirst, hsecond]

/-- Every text is read in just the one way that its form allows. -/
theorem parse_eq_iff_reading (text : Text) (result : Except ParseError Position) :
    parse text = result ↔ Reading text result := by
  refine ⟨?_, Reading.parse_eq⟩
  rintro rfl
  obtain ⟨result, hresult⟩ := exists_reading text
  rwa [hresult.parse_eq]

/-- The source holds a colon, and neither numeral is written as it would be. -/
example : parse " C:\\a.js:+3:007\n".toList = .ok ⟨"C:\\a.js".toList, 3, 7⟩ := by
  decide

/-! ### What was written -/

theorem endsVisibly_render (position : Position) : position.render.EndsVisibly := by
  obtain ⟨c, hdigit, hlast⟩ := exists_getLast?_render position
  exact ⟨c, hlast, Text.isBlank_of_isDigit hdigit⟩

theorem trim_render (position : Position) :
    position.render.trim = render { position with source := Text.trimStart position.source } := by
  have hstart : Text.trimStart position.render =
      render { position with source := Text.trimStart position.source } := by
    rw [render, List.append_assoc, List.cons_append, Text.trimStart_append_cons (by decide), render,
      List.append_assoc, List.cons_append]
  rw [Text.trim, hstart, (endsVisibly_render _).trimEnd_eq]

theorem splitsInto_render (position : Position) :
    SplitsInto position.render position.source (Numeral.write position.line)
      (Numeral.write position.column) :=
  cut?_eq_some_iff.mp (cut?_render position)

theorem parse_render (position : Position) :
    parse position.render =
      if Text.trimStart position.source = [] then .error (.malformed position.render)
      else .ok { position with source := Text.trimStart position.source } := by
  have hsplit := splitsInto_render { position with source := Text.trimStart position.source }
  rw [← trim_render] at hsplit
  split
  · rename_i hempty
    exact (Reading.unnamed (hempty ▸ hsplit)).parse_eq
  · rename_i hnamed
    rw [parse_of_splitsInto hsplit hnamed, Numeral.read?_write, Numeral.read?_write]

/-- A position is read back from what is written of it exactly if it has a source, and this begins
with no blank. -/
theorem reads_back_iff (position : Position) :
    parse position.render = .ok position ↔
      position.source ≠ [] ∧ ∀ c, position.source.head? = some c → Text.isBlank c = false := by
  rw [parse_render, ← Text.trimStart_eq_self_iff]
  obtain ⟨source, line, column⟩ := position
  dsimp only
  split
  · rename_i hempty
    refine iff_of_false (fun h => nomatch h) ?_
    rintro ⟨hnamed, hstays⟩
    exact hnamed (hstays.symm.trans hempty)
  · rename_i hnamed
    rw [Except.ok.injEq, Position.mk.injEq]
    constructor
    · rintro ⟨hstays, -, -⟩
      exact ⟨fun hempty => hnamed (hstays.trans hempty), hstays⟩
    · rintro ⟨-, hstays⟩
      exact ⟨hstays, rfl, rfl⟩

end Position

end MappedTrace
