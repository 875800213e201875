import MappedTrace.Proofs.SourceMap.SourceLines

/-!
# Lookups that overflow

Lines are counted from one where an answer is given, so the last line that a token can hold is no
word then. A lookup that comes to this line overflows, and so does one that comes to a range of a line
above it from in front of the column where that begins, but no other. Since nothing keeps the source
lines of a map that is accepted within a word, the first does happen.
-/

namespace MappedTrace.SourceMap

theorem ofInt_eq_zero_iff (total : Int) :
    UInt32.ofInt total = 0 ↔ (UInt32.size : Int) ∣ total := by
  have hvalue : (UInt32.ofInt total).toNat = (total % 2 ^ 32).toNat % 2 ^ 32 := by
    rw [UInt32.ofInt, UInt32.toNat_ofNat']
  rw [← UInt32.toNat_inj, hvalue, UInt32.toNat_zero, UInt32.size]
  omega

theorem one_le_iff (line : UInt32) : 1 ≤ line ↔ line ≠ 0 := by
  rw [UInt32.le_iff_toNat_le, Ne, ← UInt32.toNat_inj]
  exact Nat.one_le_iff_ne_zero

theorem one_le_add_one_iff (line : UInt32) : 1 ≤ line + 1 ↔ line.toNat + 1 < UInt32.size := by
  have hlt := line.toNat_lt
  rw [UInt32.le_iff_toNat_le, UInt32.toNat_add, UInt32.toNat_one, UInt32.size]
  omega

theorem add_one_eq_zero {line : UInt32} (h : line.toNat + 1 = UInt32.size) : line + 1 = 0 := by
  rw [← UInt32.toNat_inj, UInt32.toNat_add, UInt32.toNat_one, h]
  rfl

theorem ofInt_add_one {line : UInt32} {total : Int} (h : line = UInt32.ofInt total) :
    line + 1 = UInt32.ofInt (total + 1) := by
  rw [UInt32.ofInt_add, UInt32.ofInt_one, h]

theorem Origin.answer_eq_ok_iff {origin : Origin} {found : Option Position} :
    origin.answer = .ok found ↔
      origin.line.toNat + 1 < UInt32.size ∧
        some ⟨origin.source, origin.line + 1, origin.column⟩ = found := by
  unfold answer
  dsimp only
  split
  · rename_i hword
    simp [hword]
  · rename_i hword
    simp [hword]

theorem Origin.answer_eq_error_iff {origin : Origin} {overflow : Overflow} :
    origin.answer = .error overflow ↔
      origin.line.toNat + 1 = UInt32.size ∧ ⟨some ⟨origin.source, 0, origin.column⟩⟩ = overflow := by
  have hlt : origin.line.toNat < UInt32.size := origin.line.toNat_lt_size
  unfold answer
  dsimp only
  split
  · rename_i hword
    simp [hword.ne]
  · rename_i hword
    have hlast : origin.line.toNat + 1 = UInt32.size := by omega
    simp [hlast, add_one_eq_zero hlast]

theorem Token.answer_eq_ok_some_iff {token : Token} {place : Place} {position : Position} :
    token.answer place = .ok (some position) ↔
      token.place.line = place.line ∧
        ∃ origin, token.origin = some origin ∧ origin.answer = .ok (some position) := by
  unfold answer
  split
  · rename_i hsame
    cases token.origin with
    | none => simp
    | some origin => simp [hsame]
  · rename_i hother
    split
    · simp [hother]
    · simp [hother]

theorem Token.answer_eq_error_iff {token : Token} {place : Place} {overflow : Overflow} :
    token.answer place = .error overflow ↔
      (token.place.line = place.line ∧
        ∃ origin, token.origin = some origin ∧ origin.answer = .error overflow) ∨
      (token.place.line ≠ place.line ∧ token.isRange = true ∧ place.column < token.place.column ∧
        ⟨none⟩ = overflow) := by
  unfold answer
  split
  · rename_i hsame
    cases token.origin with
    | none => simp [hsame]
    | some origin => simp [hsame]
  · rename_i hother
    split
    · rename_i hbehind
      rw [Bool.and_eq_true, decide_eq_true_iff] at hbehind
      simp [hother, hbehind]
    · rename_i hbehind
      rw [Bool.and_eq_true, decide_eq_true_iff] at hbehind
      simp only [hother, false_and, false_or, reduceCtorEq, false_iff]
      exact fun h => hbehind ⟨h.2.1, h.2.2.1⟩

theorem answer_eq_iff {map : SourceMap} {generated : Position} {result : Answer}
    (hresult : result ≠ .ok none) :
    answer map generated = result ↔
      generated.line ≠ 0 ∧ ∃ token, token? map (askedPlace generated) = some token ∧
        token.answer (askedPlace generated) = result := by
  unfold answer
  split
  · rename_i hline
    simp [hline, hresult.symm]
  · rename_i hline
    cases token? map (askedPlace generated) with
    | none => simp [hresult.symm]
    | some token => simp [hline]

/-- How an answer comes to a number that is no word: by a source line right below the size of a word,
or by a range that was begun on a line above, at a column behind the one that is asked for. -/
inductive Overflows (map : SourceMap) (generated : Position) : Overflow → Prop where
  | line {token : Token} {origin : Origin} (hline : generated.line ≠ 0)
      (htoken : token? map (askedPlace generated) = some token)
      (hsame : token.place.line = generated.line - 1) (horigin : token.origin = some origin)
      (hlast : origin.line.toNat + 1 = UInt32.size) :
      Overflows map generated ⟨some ⟨origin.source, 0, origin.column⟩⟩
  | column {token : Token} (hline : generated.line ≠ 0)
      (htoken : token? map (askedPlace generated) = some token)
      (hother : token.place.line ≠ generated.line - 1) (hrange : token.isRange = true)
      (hbehind : generated.column < token.place.column) : Overflows map generated ⟨none⟩

theorem answer_eq_error_iff {map : SourceMap} {generated : Position} {overflow : Overflow} :
    answer map generated = .error overflow ↔ Overflows map generated overflow := by
  rw [answer_eq_iff (by simp)]
  constructor
  · rintro ⟨hline, token, htoken, h⟩
    rcases Token.answer_eq_error_iff.mp h with
      ⟨hsame, origin, horigin, h⟩ | ⟨hother, hrange, hbehind, rfl⟩
    · obtain ⟨hlast, rfl⟩ := Origin.answer_eq_error_iff.mp h
      exact .line hline htoken hsame horigin hlast
    · exact .column hline htoken hother hrange hbehind
  · rintro (⟨hline, htoken, hsame, horigin, hlast⟩ | ⟨hline, htoken, hother, hrange, hbehind⟩)
    · have hanswer := Origin.answer_eq_error_iff.mpr ⟨hlast, rfl⟩
      exact ⟨hline, _, htoken, Token.answer_eq_error_iff.mpr (.inl ⟨hsame, _, horigin, hanswer⟩)⟩
    · exact ⟨hline, _, htoken,
        Token.answer_eq_error_iff.mpr (.inr ⟨hother, hrange, hbehind, rfl⟩)⟩

/-- What an accepted map answers without overflow has a line of at least one, which is one more than a
source line that the map names. It overflows in two ways only. If it does by the line, the map names a
source line one below a multiple of the size of a word, and a run that does not check its numbers
answers with line zero. -/
theorem answers_within_words {bytes : List UInt8} {map : SourceMap}
    (haccepted : ofBytes bytes = .ok map) (generated : Position) :
    ∃ document, spelled? bytes = some document ∧
      (∀ position, answer map generated = .ok (some position) →
        1 ≤ position.line ∧ ∃ total ∈ document.sourceLines,
          position.line = UInt32.ofInt (total + 1) ∧ ¬ (UInt32.size : Int) ∣ total + 1) ∧
      (∀ overflow, answer map generated = .error overflow ↔ Overflows map generated overflow) ∧
      ∀ position, answer map generated = .error ⟨some position⟩ →
        origin? map generated = some position ∧ position.line = 0 ∧
          ∃ total ∈ document.sourceLines, (UInt32.size : Int) ∣ total + 1 := by
  obtain ⟨document, hspelled, hdecode⟩ := ofBytes_eq_ok_iff.mp haccepted
  refine ⟨document, hspelled, fun position hanswer => ?_, fun overflow => answer_eq_error_iff,
    fun position hanswer => ?_⟩
  · obtain ⟨-, token, htoken, hanswer⟩ := (answer_eq_iff (by simp)).mp hanswer
    obtain ⟨-, origin, horigin, hanswer⟩ := Token.answer_eq_ok_some_iff.mp hanswer
    obtain ⟨hword, hposition⟩ := Origin.answer_eq_ok_iff.mp hanswer
    obtain rfl := Option.some.inj hposition
    obtain ⟨total, htotal, hheld⟩ := exists_sourceLine_of_token? hdecode htoken horigin
    have hcounted : 1 ≤ origin.line + 1 := (one_le_add_one_iff origin.line).mpr hword
    have hshown := ofInt_add_one hheld
    refine ⟨hcounted, total, htotal, hshown, ?_⟩
    rwa [hshown, one_le_iff, Ne, ofInt_eq_zero_iff] at hcounted
  · have hunchecked : origin? map generated = some position := by
      rw [origin?, hanswer, Answer.unchecked]
    cases answer_eq_error_iff.mp hanswer with
    | line hline htoken hsame horigin hlast =>
      obtain ⟨total, htotal, hheld⟩ := exists_sourceLine_of_token? hdecode htoken horigin
      refine ⟨hunchecked, rfl, total, htotal, ?_⟩
      rw [← ofInt_eq_zero_iff, ← ofInt_add_one hheld, add_one_eq_zero hlast]

/-- The one segment of a map goes back one line from the first. A run that checks its numbers comes
to no answer, and one that does not to a line that is none. -/
theorem sourceLine_before_first :
    (¬ ∀ (bytes : List UInt8) (map : SourceMap) (generated : Position),
      ofBytes bytes = .ok map → ∃ found, answer map generated = .ok found) ∧
    ¬ ∀ (bytes : List UInt8) (map : SourceMap) (generated position : Position),
      ofBytes bytes = .ok map → origin? map generated = some position → 1 ≤ position.line := by
  let bytes := Utf8.encode "\x7b\"sources\":[\"a.ts\"],\"mappings\":\"AADA\"\x7d".toList
  let map : SourceMap := .whole [⟨⟨0, 0⟩, some ⟨"a.ts".toList, 4294967295, 0⟩, false⟩]
  let generated : Position := ⟨"b.js".toList, 1, 0⟩
  let position : Position := ⟨"a.ts".toList, 0, 0⟩
  have haccepted : ofBytes bytes = .ok map := plainTokens?_eq_some_iff.mp (by decide +kernel)
  have hstopped : answer map generated = .error ⟨some position⟩ := by decide +kernel
  refine ⟨fun h => ?_, fun h => ?_⟩
  · obtain ⟨found, hfound⟩ := h bytes map generated haccepted
    cases hstopped.symm.trans hfound
  · have hunchecked : origin? map generated = some position := by
      rw [origin?, hstopped, Answer.unchecked]
    exact absurd (h bytes map generated position haccepted hunchecked) (by decide)

/-- The first segment goes back one line from the first, and the second two lines on. -/
theorem answers_around_first_line :
    let bytes := Utf8.encode "\x7b\"sources\":[\"a.ts\"],\"mappings\":\"AADA,CAEA\"\x7d".toList
    let map : SourceMap :=
      .whole [⟨⟨0, 0⟩, some ⟨"a.ts".toList, 4294967295, 0⟩, false⟩,
        ⟨⟨0, 1⟩, some ⟨"a.ts".toList, 1, 0⟩, false⟩]
    let position : Position := ⟨"a.ts".toList, 2, 0⟩
    ofBytes bytes = .ok map ∧ (spelled? bytes).map Document.sourceLines = some [-1, 1] ∧
      (answer map ⟨"b.js".toList, 1, 7⟩ = .ok (some position) ∧
        ∃ total ∈ ([-1, 1] : List Int), position.line = UInt32.ofInt (total + 1) ∧
          ¬ (UInt32.size : Int) ∣ total + 1) ∧
      Overflows map ⟨"b.js".toList, 1, 0⟩ ⟨some ⟨"a.ts".toList, 0, 0⟩⟩ := by
  intro bytes map position
  have haccepted : ofBytes bytes = .ok map := plainTokens?_eq_some_iff.mp (by decide +kernel)
  have hlines : (spelled? bytes).map Document.sourceLines = some [-1, 1] := by decide +kernel
  have hanswer : answer map ⟨"b.js".toList, 1, 7⟩ = .ok (some position) := by decide +kernel
  have hstopped : answer map ⟨"b.js".toList, 1, 0⟩ = .error ⟨some ⟨"a.ts".toList, 0, 0⟩⟩ := by
    decide +kernel
  obtain ⟨document, hspelled, hfound, -⟩ := answers_within_words haccepted ⟨"b.js".toList, 1, 7⟩
  obtain ⟨-, -, -, hoverflows, -⟩ := answers_within_words haccepted ⟨"b.js".toList, 1, 0⟩
  rw [hspelled, Option.map_some, Option.some.injEq] at hlines
  refine ⟨haccepted, ?_, ⟨hanswer, ?_⟩, (hoverflows _).mp hstopped⟩
  · rw [hspelled, Option.map_some, hlines]
  · exact hlines ▸ (hfound position hanswer).2

end MappedTrace.SourceMap
