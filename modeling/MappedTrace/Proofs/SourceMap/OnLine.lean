import Mathlib.Algebra.GroupWithZero.Nat
import MappedTrace.Proofs.SourceMap.Decoded

/-!
# Lookups stay on their line

The tokens of a plain map are searched over all lines, and what is found may stand on an earlier line
than the one that was asked for. Such an answer is dropped, so that a lookup comes to this: of the
tokens on the line itself, and no further right than the column, the one furthest right decides.
-/

namespace MappedTrace.SourceMap

/-- A token on the line of a place and no further right than it, which no other such token stands
further right than. -/
structure ClosestOnLine (tokens : List Token) (place : Place) (token : Token) : Prop where
  mem : token ∈ tokens
  line : token.place.line = place.line
  reached : token.place.column ≤ place.column
  furthest : ∀ other ∈ tokens, other.place.line = place.line →
    other.place.column ≤ place.column → other.place.column ≤ token.place.column

/-- A position is the origin of a token, its line counted from one. -/
structure Origin.IsShownAs (origin : Origin) (position : Position) : Prop where
  source : position.source = origin.source
  line : position.line.toNat = origin.line.toNat + 1
  column : position.column = origin.column

theorem Place.isBefore_eq_false_iff_of_line_eq {p q : Place} (h : p.line = q.line) :
    p.isBefore q = false ↔ q.column ≤ p.column := by
  have hline := congrArg UInt32.toNat h
  rw [← Bool.not_eq_true, isBefore_iff, UInt32.le_iff_toNat_le]
  omega

section

variable {tokens : List Token} {place : Place} {token : Token}

theorem closestOnLine_of_closest? (hordered : Place.Ordered Token.place tokens)
    (h : Place.closest? Token.place place tokens = some token)
    (hline : token.place.line = place.line) : ClosestOnLine tokens place token := by
  obtain ⟨hmem, hreached⟩ := Place.mem_of_closest? h
  refine ⟨hmem, hline, (Place.isBefore_eq_false_iff_of_line_eq hline.symm).mp hreached, ?_⟩
  intro other hother hotherLine hcolumn
  have hotherReached := (Place.isBefore_eq_false_iff_of_line_eq hotherLine.symm).mpr hcolumn
  have hnotAfter := Place.isBefore_closest? hordered h hother hotherReached
  exact (Place.isBefore_eq_false_iff_of_line_eq (hline.trans hotherLine.symm)).mp hnotAfter

/-- A lookup that reaches a token on the line finds one there. -/
theorem exists_closest?_on_line (hordered : Place.Ordered Token.place tokens)
    (hmem : token ∈ tokens) (hline : token.place.line = place.line)
    (hcolumn : token.place.column ≤ place.column) :
    ∃ found, Place.closest? Token.place place tokens = some found ∧
      found.place.line = place.line := by
  have hreached := (Place.isBefore_eq_false_iff_of_line_eq hline.symm).mpr hcolumn
  cases hfound : Place.closest? Token.place place tokens with
  | none =>
    rw [Place.isBefore_of_closest?_eq_none hordered hfound hmem] at hreached
    contradiction
  | some found =>
    have hnotBefore := Place.isBefore_closest? hordered hfound hmem hreached
    have hlow := Place.line_le_of_isBefore_eq_false hnotBefore
    have hhigh := Place.line_le_of_isBefore_eq_false (Place.mem_of_closest? hfound).2
    rw [hline] at hlow
    exact ⟨found, rfl, UInt32.le_antisymm hhigh hlow⟩

end

theorem origin?_whole (tokens : List Token) {generated : Position} (hline : generated.line ≠ 0) :
    origin? (.whole tokens) generated =
      (Place.closest? Token.place (askedPlace generated) tokens).bind fun token =>
        if token.place.line = generated.line - 1 then
          (token.advanced generated.column).origin.map fun origin =>
            ⟨origin.source, origin.line + 1, origin.column⟩
        else none := by
  rw [origin?_eq_bind _ hline, token?, Token.closest?]
  cases Place.closest? Token.place (askedPlace generated) tokens with
  | none => rfl
  | some token => simp only [Option.map_some, Option.bind_some, Token.advanced_place, askedPlace]

theorem Token.advanced_eq_self {token : Token} (h : token.isRange = false) (column : UInt32) :
    token.advanced column = token := by
  simp [advanced, h]

theorem Origin.isShownAs {origin : Origin} (h : origin.line.toNat ≠ 2 ^ 32 - 1) :
    origin.IsShownAs ⟨origin.source, origin.line + 1, origin.column⟩ := by
  refine ⟨rfl, ?_, rfl⟩
  have hlt := origin.line.toNat_lt
  rw [UInt32.toNat_add, UInt32.toNat_one, Nat.mod_eq_of_lt]
  omega

/-- A plain map answers by the closest token on the line that is asked for, and not at all where
there is none or the line is zero. If several stand in one place, only the one that is chosen has to
be no range and to have a line that can be counted from one. -/
theorem origin?_by_closest_on_line {bytes : List UInt8} {tokens : List Token}
    (hdecoded : ofBytes bytes = .ok (.whole tokens)) (generated : Position) :
    let map : SourceMap := .whole tokens
    let reached := ∃ token ∈ tokens, token.place.line = generated.line - 1 ∧
      token.place.column ≤ generated.column
    let chosen := Place.closest? Token.place (askedPlace generated) tokens
    (generated.line = 0 → origin? map generated = none) ∧
    (generated.line ≠ 0 → ¬ reached → origin? map generated = none) ∧
    (generated.line ≠ 0 → reached →
      (∀ token, chosen = some token → token.isRange = false ∧
        ∀ origin, token.origin = some origin → origin.line.toNat ≠ 2 ^ 32 - 1) →
      ∃ token, chosen = some token ∧ ClosestOnLine tokens (askedPlace generated) token ∧
        (token.origin = none → origin? map generated = none) ∧
        ∀ origin, token.origin = some origin →
          ∃ position, origin? map generated = some position ∧ origin.IsShownAs position) := by
  intro map reached chosen
  have hordered := ordered_of_ofBytes hdecoded
  refine ⟨origin?_of_line_eq_zero map, ?_, ?_⟩
  · intro hline hnone
    rw [origin?_whole tokens hline, Option.bind_eq_none_iff]
    intro token hfound
    apply if_neg
    intro htokenLine
    have hclosest := closestOnLine_of_closest? hordered hfound htokenLine
    exact hnone ⟨token, hclosest.mem, hclosest.line, hclosest.reached⟩
  · rintro hline ⟨near, hnear, hnearLine, hnearColumn⟩ hplain
    obtain ⟨token, hfound, htokenLine⟩ : ∃ token,
        Place.closest? Token.place (askedPlace generated) tokens = some token ∧
          token.place.line = generated.line - 1 :=
      exists_closest?_on_line hordered hnear hnearLine hnearColumn
    have hclosest := closestOnLine_of_closest? hordered hfound htokenLine
    obtain ⟨hrange, hbounded⟩ := hplain token hfound
    have hanswer : origin? map generated = token.origin.map fun origin =>
        ⟨origin.source, origin.line + 1, origin.column⟩ := by
      rw [origin?_whole tokens hline, hfound, Option.bind_some, if_pos htokenLine,
        Token.advanced_eq_self hrange]
    refine ⟨token, hfound, hclosest, fun hnone => ?_, fun origin horigin => ?_⟩
    · rw [hanswer, hnone, Option.map_none]
    · rw [horigin, Option.map_some] at hanswer
      exact ⟨_, hanswer, Origin.isShownAs (hbounded origin horigin)⟩

/-- The segments of the first line are out of order, and one of them has no source. -/
theorem closest_on_line_out_of_order :
    let bytes := Utf8.encode "\x7b\"sources\":[\"a.ts\"],\"mappings\":\"IAAA,JAEC,K;;EAAE\"\x7d".toList
    let first : Token := ⟨⟨0, 0⟩, some ⟨"a.ts".toList, 2, 1⟩, false⟩
    let second : Token := ⟨⟨0, 4⟩, some ⟨"a.ts".toList, 0, 0⟩, false⟩
    let third : Token := ⟨⟨0, 5⟩, none, false⟩
    let last : Token := ⟨⟨2, 2⟩, some ⟨"a.ts".toList, 2, 3⟩, false⟩
    let tokens := [first, second, third, last]
    let generated : Position := ⟨"b.js".toList, 1, 3⟩
    ofBytes bytes = .ok (.whole tokens) ∧
      origin? (.whole tokens) ⟨"b.js".toList, 0, 3⟩ = none ∧
      origin? (.whole tokens) ⟨"b.js".toList, 2, 3⟩ = none ∧
      ∃ token, ClosestOnLine tokens (askedPlace generated) token ∧
        ∃ origin position, token.origin = some origin ∧ origin.IsShownAs position ∧
          origin? (.whole tokens) generated = some position := by
  intro bytes first second third last tokens generated
  have hdecoded : ofBytes bytes = .ok (.whole tokens) :=
    plainTokens?_eq_some_iff.mp (by decide +kernel)
  have hlookups := origin?_by_closest_on_line hdecoded
  have hempty : ¬ ∃ token ∈ tokens, token.place.line = 2 - 1 ∧ token.place.column ≤ 3 := by
    decide +kernel
  have hreached : ∃ token ∈ tokens, token.place.line = generated.line - 1 ∧
      token.place.column ≤ generated.column := by decide +kernel
  have hplain : ∀ token ∈ tokens, token.isRange = false ∧
      ∀ origin ∈ token.origin, origin.line.toNat ≠ 2 ^ 32 - 1 := by decide +kernel
  have hlocated : ∀ token ∈ tokens, token.place.line = generated.line - 1 →
      token.place.column ≤ generated.column → token.origin.isSome := by decide +kernel
  refine ⟨hdecoded, (hlookups _).1 rfl, (hlookups _).2.1 (by decide) hempty, ?_⟩
  obtain ⟨token, -, hclosest, -, hshown⟩ := (hlookups generated).2.2 (by decide) hreached
    fun token hchosen => hplain token (Place.mem_of_closest? hchosen).1
  obtain ⟨origin, horigin⟩ := Option.isSome_iff_exists.mp
    (hlocated token hclosest.mem hclosest.line hclosest.reached)
  obtain ⟨position, hanswer, hsame⟩ := hshown origin horigin
  exact ⟨token, hclosest, origin, position, horigin, hsame, hanswer⟩

end MappedTrace.SourceMap
