import MappedTrace.Proofs.EvalOrigin.Core
import MappedTrace.Proofs.Numeral.Plain
import Mathlib.Data.List.Basic

/-!
# Eval origins that are written back

An origin whose position stays where it is gets written back, and its numbers with it. It is the
same text again exactly if these had no leading zeros. If they had, the two texts differ before
either of them ends.
-/

namespace MappedTrace

/-- A position as it may be written, its numbers with leading zeros. -/
def Position.spelled (source line column : Text) : Text :=
  source ++ ':' :: (line ++ ':' :: column)

theorem Position.eq_spelled_of_cut? {text source line column : Text}
    (h : cut? text = some (source, line, column)) : text = spelled source line column := by
  simp only [cut?, Option.bind_eq_bind, Option.bind_eq_some_iff] at h
  obtain ⟨⟨front, last⟩, hlast, ⟨first, middle⟩, hmiddle, h⟩ := h
  simp only [Option.pure_def, Option.some.injEq, Prod.mk.injEq] at h
  obtain ⟨rfl, rfl, rfl⟩ := h
  have hfront : front = first ++ [':'] ++ middle := Text.eq_append_of_cutLast? hmiddle
  rw [Text.eq_append_of_cutLast? hlast, hfront, spelled]
  simp

theorem Position.render_eq_spelled (position : Position) :
    position.render =
      spelled position.source (Numeral.write position.line) (Numeral.write position.column) := by
  rw [render, spelled, List.append_assoc]
  rfl

namespace EvalOrigin

/-- The line and the column at the core of an origin, as they are written there. -/
def coreNumbersWithin? : Nat → Text → Option (Text × Text)
  | 0, _ => none
  | levels + 1, origin =>
    match parts? origin with
    | none => none
    | some (_, inside) =>
      match position? inside with
      | some _ => (Position.cut? inside).map Prod.snd
      | none => coreNumbersWithin? levels inside

/-- The numbers at the core of an origin, if it has one, have no leading zeros. -/
def IsPlain (origin : Text) : Prop :=
  ∀ numbers ∈ coreNumbersWithin? maxNesting origin,
    Numeral.IsPlain numbers.1 ∧ Numeral.IsPlain numbers.2

instance (origin : Text) : Decidable (IsPlain origin) :=
  inferInstanceAs (Decidable (∀ numbers ∈ coreNumbersWithin? maxNesting origin, _))

theorem spelled_of_position? {inside : Text} {position : Position}
    (h : position? inside = some position) :
    ∃ line column, Position.cut? inside = some (position.source, line, column) ∧
      position.source ≠ [] ∧ Numeral.ofDigits? line = some position.line ∧
      Numeral.ofDigits? column = some position.column := by
  simp only [position?, Option.bind_eq_bind, Option.bind_eq_some_iff] at h
  obtain ⟨⟨source, line, column⟩, hcut, h⟩ := h
  split at h
  · contradiction
  · rename_i hfilled
    simp only [Option.bind_eq_some_iff] at h
    obtain ⟨l, hline, c, hcolumn, h⟩ := h
    obtain rfl := Option.some.inj h
    exact ⟨line, column, hcut, by simpa using hfilled, hline, hcolumn⟩

/-- What an origin with a core is made of. -/
structure Spelled (origin : Text) (labels : List Text) (position : Position)
    (line column : Text) : Prop where
  labelled : labels ≠ []
  eq_nest : origin = nest labels (Position.spelled position.source line column)
  line : Numeral.ofDigits? line = some position.line
  column : Numeral.ofDigits? column = some position.column

theorem exists_spelled {levels : Nat} {origin : Text} {labels : List Text} {position : Position}
    (h : coreWithin? levels origin = some (labels, position)) :
    ∃ line column, coreNumbersWithin? levels origin = some (line, column) ∧
      Spelled origin labels position line column := by
  induction levels generalizing origin labels with
  | zero => simp [coreWithin?] at h
  | succ levels ih =>
    rw [coreWithin?] at h
    rw [coreNumbersWithin?]
    cases hparts : parts? origin with
    | none => simp [hparts] at h
    | some parts =>
      obtain ⟨label, inside⟩ := parts
      have hwrite := write_of_parts? hparts
      simp only [hparts] at h ⊢
      cases hposition : position? inside with
      | some found =>
        simp only [hposition, Option.some.injEq, Prod.mk.injEq] at h
        obtain ⟨rfl, rfl⟩ := h
        obtain ⟨line, column, hcut, -, hline, hcolumn⟩ := spelled_of_position? hposition
        refine ⟨line, column, by rw [hcut]; rfl, by simp, ?_, hline, hcolumn⟩
        rw [← hwrite, Position.eq_spelled_of_cut? hcut]
        rfl
      | none =>
        simp only [hposition, Option.map_eq_some_iff, Prod.mk.injEq, Prod.exists] at h
        obtain ⟨others, core, hcore, rfl, rfl⟩ := h
        obtain ⟨line, column, hnumbers, hspelled⟩ := ih hcore
        refine ⟨line, column, hnumbers, by simp, ?_, hspelled.line, hspelled.column⟩
        rw [← hwrite, hspelled.eq_nest]
        rfl

theorem coreNumbersWithin?_eq_none {levels : Nat} {origin : Text}
    (h : coreWithin? levels origin = none) : coreNumbersWithin? levels origin = none := by
  induction levels generalizing origin with
  | zero => rfl
  | succ levels ih =>
    rw [coreWithin?] at h
    rw [coreNumbersWithin?]
    cases hparts : parts? origin with
    | none => rfl
    | some parts =>
      simp only [hparts] at h ⊢
      cases hposition : position? parts.2 with
      | some found => simp [hposition] at h
      | none =>
        simp only [hposition, Option.map_eq_none_iff] at h
        exact ih h

private theorem colon_not_mem {digits : Text} {n : UInt32}
    (h : Numeral.ofDigits? digits = some n) : ':' ∉ digits := by
  intro hmem
  have hdigit := (Numeral.ofDigits?_eq_some h).2.1 ':' hmem
  contradiction

private theorem parenthesis_not_mem {digits : Text} {n : UInt32}
    (h : Numeral.ofDigits? digits = some n) : ')' ∉ digits := by
  intro hmem
  have hdigit := (Numeral.ofDigits?_eq_some h).2.1 ')' hmem
  contradiction

variable {origin : Text} {labels : List Text} {position : Position} {line column : Text}

theorem Spelled.numbers_eq (h : Spelled origin labels position line column)
    {behind rest : Text}
    (heq : nest labels position.render ++ behind = origin ++ rest) :
    Numeral.write position.line = line ∧ Numeral.write position.column = column := by
  obtain ⟨count, hcount⟩ : ∃ count, labels.length = count + 1 :=
    ⟨labels.length - 1, by have := List.length_pos_iff.mpr h.labelled; omega⟩
  have hline := Numeral.ofDigits?_write position.line
  have hcolumn := Numeral.ofDigits?_write position.column
  rw [h.eq_nest, nest_eq, nest_eq, Position.render_eq_spelled, Position.spelled, Position.spelled,
    hcount, List.replicate_succ] at heq
  simp only [List.append_assoc, List.append_cancel_left_eq, List.cons_append,
    List.cons.injEq, true_and] at heq
  obtain ⟨hl, heq⟩ := Text.append_cons_inj (colon_not_mem hline) (colon_not_mem h.line) heq
  have hc := Text.append_cons_inj (parenthesis_not_mem hcolumn) (parenthesis_not_mem h.column) heq
  exact ⟨hl, hc.1⟩

theorem Spelled.nest_eq_iff (h : Spelled origin labels position line column) :
    nest labels position.render = origin ↔ Numeral.IsPlain line ∧ Numeral.IsPlain column := by
  rw [← Numeral.write_eq_iff h.line, ← Numeral.write_eq_iff h.column]
  constructor
  · intro heq
    have hwhole : nest labels position.render ++ [] = origin ++ [] := by rw [heq]
    exact h.numbers_eq hwhole
  · rintro ⟨hline, hcolumn⟩
    rw [h.eq_nest, Position.render_eq_spelled, hline, hcolumn]

/-- An origin that is moved nowhere is the same text exactly if its numbers are plain. -/
theorem movedBy_id_eq_iff (origin : Text) : movedBy id origin = origin ↔ IsPlain origin := by
  unfold movedBy IsPlain
  cases hcore : core? origin with
  | none => simp [coreNumbersWithin?_eq_none hcore]
  | some core =>
    obtain ⟨labels, position⟩ := core
    obtain ⟨line, column, hnumbers, hspelled⟩ := exists_spelled hcore
    rw [hnumbers]
    simpa using hspelled.nest_eq_iff

/-- An origin and what it becomes when it is moved nowhere differ before either of them ends, or not
at all. -/
theorem movedBy_id_eq_of_append_eq {behind rest : Text}
    (h : movedBy id origin ++ behind = origin ++ rest) : movedBy id origin = origin := by
  revert h
  unfold movedBy
  cases hcore : core? origin with
  | none => exact fun _ => rfl
  | some core =>
    obtain ⟨labels, position⟩ := core
    obtain ⟨line, column, -, hspelled⟩ := exists_spelled hcore
    intro heq
    obtain ⟨hline, hcolumn⟩ := hspelled.numbers_eq heq
    exact hspelled.nest_eq_iff.mpr
      ⟨(Numeral.write_eq_iff hspelled.line).mp hline,
        (Numeral.write_eq_iff hspelled.column).mp hcolumn⟩

theorem prefix_movedBy (move : Position → Position) (h : "eval at ".toList <+: origin) :
    "eval at ".toList <+: movedBy move origin := by
  unfold movedBy
  cases hcore : core? origin with
  | none => exact h
  | some core =>
    obtain ⟨labels, position⟩ := core
    obtain ⟨line, column, -, hspelled⟩ := exists_spelled hcore
    obtain ⟨label, rest, rfl⟩ := List.exists_cons_of_ne_nil hspelled.labelled
    exact ⟨_, (write_eq label (nest rest (move position).render)).symm⟩

end EvalOrigin

end MappedTrace
