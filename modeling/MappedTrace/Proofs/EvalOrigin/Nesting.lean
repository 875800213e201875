import MappedTrace.Proofs.EvalOrigin.Plain
import MappedTrace.Proofs.Position.Rendering

/-!
# Nested eval origins

An origin that was written from labels and a position can be read in one way only: a label ends
before the first parenthesis, and what is inside is closed by the last one. A position ends in a
digit and another origin in a parenthesis, so neither is taken for the other. The labels come back
as they were, however many there are, up to the deepest nesting that is looked into.
-/

namespace MappedTrace.EvalOrigin

/-- Labels and a position that an origin may be written from. Line feeds may only stand in the
outermost label. -/
structure WellNested (labels : List Text) (position : Position) : Prop where
  labelled : labels ≠ []
  readable : ∀ label ∈ labels, label ≠ [] ∧ '(' ∉ label
  inner : ∀ label ∈ labels.tail, '\n' ∉ label
  source : position.source ≠ [] ∧ '\n' ∉ position.source

instance (labels : List Text) (position : Position) : Decidable (WellNested labels position) :=
  decidable_of_iff (labels ≠ [] ∧ (∀ label ∈ labels, label ≠ [] ∧ '(' ∉ label) ∧
      (∀ label ∈ labels.tail, '\n' ∉ label) ∧ position.source ≠ [] ∧ '\n' ∉ position.source)
    ⟨fun ⟨labelled, readable, inner, source⟩ => ⟨labelled, readable, inner, source⟩,
      fun h => ⟨h.labelled, h.readable, h.inner, h.source⟩⟩

section

variable {label inside next : Text} {labels : List Text} {position : Position}

theorem nest_cons (label : Text) (labels : List Text) (inside : Text) :
    nest (label :: labels) inside = write label (nest labels inside) :=
  rfl

theorem parts?_write (hlabel : label ≠ []) (hopen : '(' ∉ label) (hinside : inside ≠ [])
    (hline : '\n' ∉ inside) : parts? (write label inside) = some (label, inside) := by
  have hcut : Text.cutFirst? ['('] ((label ++ [' ']) ++ ['('] ++ (inside ++ [')'])) =
      some (label ++ [' '], inside ++ [')']) := by
    apply Text.cutFirst?_append (List.cons_ne_nil _ _)
    rw [List.singleton_infix_iff]
    simpa using hopen
  have hbody : label ++ (" (".toList ++ (inside ++ [')'])) =
      (label ++ [' ']) ++ ['('] ++ (inside ++ [')']) := by
    simp only [List.append_assoc]
    rfl
  have hname : [' '].isSuffixOf? (label ++ [' ']) = some label :=
    List.isSuffixOf?_eq_some_iff_append_eq.mpr rfl
  have hcontent : [')'].isSuffixOf? (inside ++ [')']) = some inside :=
    List.isSuffixOf?_eq_some_iff_append_eq.mpr rfl
  rw [parts?, write_eq, Text.isPrefixOf?_append, hbody]
  simp only [Option.bind_eq_bind, Option.bind_some, hcut, hname, hcontent]
  simp [hlabel, hinside, hline]

theorem position?_render (hsource : position.source ≠ []) :
    position? position.render = some position := by
  rw [position?, Position.cut?_render]
  simp [hsource, Numeral.ofDigits?_write]

theorem position?_write (label inside : Text) : position? (write label inside) = none := by
  rw [Option.eq_none_iff_forall_ne_some]
  intro position hposition
  obtain ⟨line, column, hcut, -, -, hcolumn⟩ := spelled_of_position? hposition
  obtain ⟨hfilled, hdigits, -⟩ := Numeral.ofDigits?_eq_some hcolumn
  have hends : [')'] <:+ Position.spelled position.source line column := by
    rw [← Position.eq_spelled_of_cut? hcut]
    exact List.suffix_append _ _
  have hshorter : column <:+ Position.spelled position.source line column :=
    ⟨position.source ++ ':' :: line ++ [':'], by simp [Position.spelled]⟩
  have hlast : [')'] <:+ column :=
    List.suffix_of_suffix_length_le hends hshorter (List.length_pos_iff.mpr hfilled)
  have hdigit := hdigits ')' (hlast.subset List.mem_cons_self)
  contradiction

theorem nest_ne_nil (hinside : inside ≠ []) : nest labels inside ≠ [] := by
  rw [nest_eq]
  simp [hinside]

theorem lineFeed_not_mem_nest (hlabels : ∀ label ∈ labels, '\n' ∉ label) (hinside : '\n' ∉ inside) :
    '\n' ∉ nest labels inside := by
  induction labels with
  | nil => exact hinside
  | cons label rest ih =>
    obtain ⟨hlabel, hrest⟩ := List.forall_mem_cons.mp hlabels
    have hnest := ih hrest
    have hmark : '\n' ∉ "eval at ".toList ∧ '\n' ∉ " (".toList := by decide
    simp only [nest_cons, write_eq, List.mem_append, hlabel, hnest, hmark, List.mem_singleton]
    decide

theorem WellNested.lineFeed_not_mem_render (h : WellNested labels position) :
    '\n' ∉ position.render :=
  Position.not_mem_render h.source.2 (by decide) (by decide)

theorem WellNested.tail (h : WellNested (label :: next :: labels) position) :
    WellNested (next :: labels) position where
  labelled := List.cons_ne_nil _ _
  readable := (List.forall_mem_cons.mp h.readable).2
  inner := (List.forall_mem_cons.mp h.inner).2
  source := h.source

theorem WellNested.parts?_nest (h : WellNested (label :: labels) position) :
    parts? (nest (label :: labels) position.render) = some (label, nest labels position.render) := by
  obtain ⟨hlabel, hopen⟩ := h.readable label List.mem_cons_self
  exact parts?_write hlabel hopen (nest_ne_nil (by simp [Position.render]))
    (lineFeed_not_mem_nest h.inner h.lineFeed_not_mem_render)

/-- The labels and the position are read back, if there are not too many levels. -/
theorem WellNested.coreWithin?_nest (h : WellNested labels position) (levels : Nat) :
    coreWithin? levels (nest labels position.render) =
      if labels.length ≤ levels then some (labels, position) else none := by
  induction labels generalizing levels with
  | nil => exact absurd rfl h.labelled
  | cons label rest ih =>
    cases levels with
    | zero => rfl
    | succ levels =>
      rw [coreWithin?, h.parts?_nest]
      dsimp only
      cases rest with
      | nil =>
        rw [show nest [] position.render = position.render from rfl, position?_render h.source.1]
        simp
      | cons next others =>
        rw [nest_cons, position?_write, ← nest_cons]
        dsimp only
        rw [ih h.tail]
        simp only [List.length_cons, Nat.add_le_add_iff_right]
        split <;> rfl

end

/-- An origin with at most a hundred labels is moved at its position, and its labels stay as they
are. A deeper one is given back without any lookup. -/
theorem relocate_nest (files : FileSystem) {labels : List Text} {position : Position}
    (h : WellNested labels position) (cache : MapCache) :
    (labels.length ≤ 100 →
      (relocate files (nest labels position.render)).run cache =
        (nest labels ((MapCache.relocate files position).run cache).1.render,
          ((MapCache.relocate files position).run cache).2)) ∧
    (100 < labels.length →
      (relocate files (nest labels position.render)).run cache =
        (nest labels position.render, cache)) := by
  have hcore : core? (nest labels position.render) =
      if labels.length ≤ 100 then some (labels, position) else none := h.coreWithin?_nest 100
  constructor
  · intro hshallow
    rw [relocate_eq, hcore, if_pos hshallow]
    rfl
  · intro hdeep
    rw [relocate_eq, hcore, if_neg (Nat.not_le.mpr hdeep)]
    rfl

/-- Parentheses and colons in a source are no trouble, and one label too many is too many. -/
theorem relocate_nest_twice_and_too_often :
    let memory : FileSystem.Memory :=
      { files := [("c:(1).js".toList, "//# sourceMappingURL=m".toList),
          ("m".toList, "\x7b\"sources\":[\"a.ts\"],\"mappings\":\"IACC\"\x7d".toList)] }
    let position : Position := ⟨"c:(1).js".toList, 1, 5⟩
    let labels := ["T.<anonymous>".toList, "go [as f]".toList]
    let deep := List.replicate 101 "f".toList
    WellNested labels position ∧ WellNested deep position ∧
      ((relocate memory.fileSystem (nest labels position.render)).run {}).1 =
        "eval at T.<anonymous> (eval at go [as f] (a.ts:2:1))".toList ∧
      (relocate memory.fileSystem (nest deep position.render)).run {} =
        (nest deep position.render, {}) := by
  intro memory position labels deep
  have hlabels : WellNested labels position := by decide
  have hdeep : WellNested deep position := by decide +kernel
  refine ⟨hlabels, hdeep, ?_, ?_⟩
  · rw [(relocate_nest memory.fileSystem hlabels {}).1 (by decide)]
    decide +kernel
  · exact (relocate_nest memory.fileSystem hdeep {}).2 (by decide)

end MappedTrace.EvalOrigin
