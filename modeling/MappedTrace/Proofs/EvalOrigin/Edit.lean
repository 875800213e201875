import MappedTrace.Proofs.EvalOrigin.Plain
import MappedTrace.Proofs.MapCache.Lookup

/-!
# One position in an eval origin

Whatever text an origin is, moving it writes another position in the place of one that stands there,
behind all the labels and in front of nothing but parentheses, or gives the text back. Only the
source of that position is looked up. Which of the two happens, and where, the text alone decides.
-/

namespace MappedTrace.EvalOrigin

/-- An origin holds a position, in front of which stand so many labels and behind which as many
parentheses. Its numbers are spelled in ASCII digits, with or without leading zeros. -/
structure HoldsPosition (origin front : Text) (position : Position) (depth : Nat) : Prop where
  starts : "eval at ".toList <+: front
  ends : " (".toList <:+ front
  filled : position.source ≠ []
  positive : 1 ≤ depth
  bounded : depth ≤ 100
  spelled : ∃ line column, Numeral.ofDigits? line = some position.line ∧
    Numeral.ofDigits? column = some position.column ∧
    origin =
      front ++ (Position.spelled position.source line column ++ List.replicate depth ')')

section

variable {levels : Nat} {origin : Text} {labels : List Text} {position : Position}

theorem prefix_opening (h : labels ≠ []) : "eval at ".toList <+: opening labels := by
  obtain ⟨label, rest, rfl⟩ := List.exists_cons_of_ne_nil h
  rw [opening, List.flatMap_cons]
  exact (List.prefix_append _ _).trans (List.prefix_append _ _)

theorem suffix_opening (h : labels ≠ []) : " (".toList <:+ opening labels := by
  rw [← List.dropLast_concat_getLast h, opening, List.flatMap_append, List.flatMap_singleton]
  exact ((List.suffix_append _ _).trans (List.suffix_append _ _)).trans (List.suffix_append _ _)

theorem bounds_of_coreWithin? (h : coreWithin? levels origin = some (labels, position)) :
    labels.length ≤ levels ∧ position.source ≠ [] := by
  induction levels generalizing origin labels with
  | zero => contradiction
  | succ levels ih =>
    rw [coreWithin?] at h
    cases hparts : parts? origin with
    | none => simp [hparts] at h
    | some parts =>
      simp only [hparts] at h
      cases hposition : position? parts.2 with
      | some found =>
        simp only [hposition, Option.some.injEq, Prod.mk.injEq] at h
        obtain ⟨rfl, rfl⟩ := h
        obtain ⟨line, column, -, hsource, -, -⟩ := spelled_of_position? hposition
        exact ⟨Nat.le_add_left 1 levels, hsource⟩
      | none =>
        simp only [hposition, Option.map_eq_some_iff, Prod.mk.injEq, Prod.exists] at h
        obtain ⟨others, core, hcore, rfl, rfl⟩ := h
        obtain ⟨hlength, hsource⟩ := ih hcore
        exact ⟨Nat.succ_le_succ hlength, hsource⟩

theorem holdsPosition_of_core? (h : core? origin = some (labels, position)) :
    HoldsPosition origin (opening labels) position labels.length := by
  obtain ⟨line, column, -, hspelled⟩ := exists_spelled h
  obtain ⟨hbounded, hsource⟩ := bounds_of_coreWithin? h
  refine ⟨prefix_opening hspelled.labelled, suffix_opening hspelled.labelled, hsource,
    List.length_pos_iff.mpr hspelled.labelled, hbounded, line, column, hspelled.line,
    hspelled.column, ?_⟩
  rw [← nest_eq]
  exact hspelled.eq_nest

end

/-- Moving an origin leaves it as it is and looks up nothing, or it moves one position that the
origin holds and looks up its source. -/
theorem relocate_moves_at_most_one_position (files : FileSystem) (origin : Text) :
    (∀ cache, (relocate files origin).run cache = (origin, cache)) ∨
      ∃ front position depth, HoldsPosition origin front position depth ∧
        ∀ cache, (relocate files origin).run cache =
          (front ++ (((MapCache.relocate files position).run cache).1.render ++
              List.replicate depth ')'),
            ((MapCache.sourceMapFor files position.source).run cache).2) := by
  rw [relocate_eq]
  cases hcore : core? origin with
  | none => exact .inl fun cache => rfl
  | some core =>
    obtain ⟨labels, position⟩ := core
    refine .inr ⟨opening labels, position, labels.length, holdsPosition_of_core? hcore, ?_⟩
    intro cache
    dsimp only
    rw [← nest_eq]
    rfl

end MappedTrace.EvalOrigin
