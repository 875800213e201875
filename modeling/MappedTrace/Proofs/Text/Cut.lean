import MappedTrace.Text.Basic
import Mathlib.Data.List.Infix

/-!
# Where a text is cut

A text that is cut at a mark is what stands before, the mark, and what stands after. A text with a
mark put into it is cut at that mark again, provided that the mark does not occur where it would be
found before.
-/

namespace MappedTrace.Text

variable {mark text before after : Text} {c : Char}

theorem isPrefixOf?_eq_none_iff : mark.isPrefixOf? text = none ↔ ¬ mark <+: text := by
  rw [Option.eq_none_iff_forall_ne_some]
  constructor
  · rintro h ⟨after, happend⟩
    exact h after (List.isPrefixOf?_eq_some_iff_append_eq.mpr happend)
  · intro h after hsome
    exact h ⟨after, List.isPrefixOf?_eq_some_iff_append_eq.mp hsome⟩

theorem isPrefixOf?_append (mark after : Text) : mark.isPrefixOf? (mark ++ after) = some after :=
  List.isPrefixOf?_eq_some_iff_append_eq.mpr rfl

theorem eq_append_of_cutFirst? (h : cutFirst? mark text = some (before, after)) :
    text = before ++ mark ++ after := by
  induction text generalizing before with
  | nil => simp [cutFirst?] at h
  | cons c rest ih =>
    rw [cutFirst?] at h
    split at h
    · rename_i heq
      simp only [Option.some.injEq, Prod.mk.injEq] at h
      rw [← h.1, ← h.2, ← List.isPrefixOf?_eq_some_iff_append_eq.mp heq, List.nil_append]
    · obtain ⟨⟨front, back⟩, hcut, heq⟩ := Option.map_eq_some_iff.mp h
      simp only [Prod.mk.injEq] at heq
      obtain ⟨rfl, rfl⟩ := heq
      rw [ih hcut, List.cons_append, List.cons_append]

theorem eq_append_of_cutLast? (h : cutLast? mark text = some (before, after)) :
    text = before ++ mark ++ after := by
  induction text generalizing before with
  | nil => simp [cutLast?] at h
  | cons c rest ih =>
    rw [cutLast?] at h
    split at h
    · rename_i front back hcut
      simp only [Option.some.injEq, Prod.mk.injEq] at h
      obtain ⟨rfl, rfl⟩ := h
      rw [ih hcut, List.cons_append, List.cons_append]
    · obtain ⟨back, hbegins, heq⟩ := Option.map_eq_some_iff.mp h
      simp only [Prod.mk.injEq] at heq
      obtain ⟨rfl, rfl⟩ := heq
      rw [← List.isPrefixOf?_eq_some_iff_append_eq.mp hbegins, List.nil_append]

theorem cutFirst?_eq_none (h : ¬ mark <:+: text) : cutFirst? mark text = none := by
  rw [Option.eq_none_iff_forall_ne_some]
  rintro ⟨before, after⟩ hcut
  exact h ⟨before, after, (eq_append_of_cutFirst? hcut).symm⟩

/-- The first cut is at a mark that does not begin any earlier. -/
theorem cutFirst?_append (hmark : mark ≠ []) (h : ¬ mark <:+: before ++ mark.dropLast) :
    cutFirst? mark (before ++ mark ++ after) = some (before, after) := by
  induction before with
  | nil =>
    obtain ⟨m, rest, rfl⟩ := List.exists_cons_of_ne_nil hmark
    have hbegins := isPrefixOf?_append (m :: rest) after
    rw [List.cons_append] at hbegins
    rw [List.nil_append, List.cons_append, cutFirst?, hbegins]
  | cons c before ih =>
    have hnone : mark.isPrefixOf? (c :: (before ++ mark ++ after)) = none := by
      rw [isPrefixOf?_eq_none_iff]
      intro hbegins
      have hfront : c :: before ++ mark.dropLast <+: c :: (before ++ mark ++ after) := by
        rw [← List.cons_append, ← List.cons_append, List.append_assoc]
        exact List.prefix_append_right_inj _ |>.mpr
          ((List.dropLast_prefix mark).trans (List.prefix_append mark after))
      have hlength : mark.length ≤ (c :: before ++ mark.dropLast).length := by
        simp only [List.length_append, List.length_cons, List.length_dropLast]
        omega
      exact h (List.prefix_of_prefix_length_le hbegins hfront hlength).isInfix
    have hrest : ¬ mark <:+: before ++ mark.dropLast := by
      intro hinside
      exact h (hinside.trans (List.suffix_cons c _).isInfix)
    rw [List.cons_append, List.cons_append, cutFirst?, hnone, ih hrest]
    rfl

theorem cutFirst?_eq_none_iff (hmark : mark ≠ []) :
    cutFirst? mark text = none ↔ ¬ mark <:+: text := by
  refine ⟨?_, cutFirst?_eq_none⟩
  intro h
  induction text with
  | nil => exact fun hinside => hmark (List.infix_nil.mp hinside)
  | cons c rest ih =>
    rw [cutFirst?] at h
    split at h
    · contradiction
    · rename_i hnone
      rw [List.infix_cons_iff, not_or]
      exact ⟨isPrefixOf?_eq_none_iff.mp hnone, ih (Option.map_eq_none_iff.mp h)⟩

/-- What is found is the first occurrence: none ends before the end of this one. -/
theorem not_infix_of_cutFirst? (hmark : mark ≠ [])
    (h : cutFirst? mark text = some (before, after)) : ¬ mark <:+: before ++ mark.dropLast := by
  induction text generalizing before with
  | nil => contradiction
  | cons c rest ih =>
    rw [cutFirst?] at h
    split at h
    · obtain ⟨rfl, -⟩ := Prod.mk.inj (Option.some.inj h)
      intro hinside
      have hlength := hinside.length_le
      have hpos := List.length_pos_of_ne_nil hmark
      rw [List.nil_append, List.length_dropLast] at hlength
      omega
    · rename_i hnone
      obtain ⟨⟨front, back⟩, hcut, heq⟩ := Option.map_eq_some_iff.mp h
      obtain ⟨rfl, rfl⟩ := Prod.mk.inj heq
      have hfront : c :: (front ++ mark.dropLast) <+: c :: rest := by
        rw [eq_append_of_cutFirst? hcut, List.append_assoc, List.cons_prefix_cons]
        refine ⟨rfl, (List.prefix_append_right_inj front).mpr ?_⟩
        exact (List.dropLast_prefix mark).trans (List.prefix_append mark back)
      rw [List.cons_append, List.infix_cons_iff, not_or]
      exact ⟨fun hbegins => isPrefixOf?_eq_none_iff.mp hnone (hbegins.trans hfront), ih hcut⟩

theorem eq_nil_iff_of_cutFirst? (hmark : mark ≠ [])
    (h : cutFirst? mark text = some (before, after)) :
    after = [] ↔ ¬ mark <:+: text.dropLast := by
  have hfirst := not_infix_of_cutFirst? hmark h
  rw [eq_append_of_cutFirst? h]
  rcases List.eq_nil_or_concat after with rfl | ⟨rest, c, rfl⟩
  · rw [List.append_nil, List.dropLast_append_of_ne_nil hmark]
    exact iff_of_true rfl hfirst
  · rw [List.concat_eq_append, ← List.append_assoc, List.dropLast_concat]
    exact iff_of_false (by simp) (not_not_intro ⟨before, rest, rfl⟩)

theorem cutFirst?_singleton_eq_none (h : c ∉ text) : cutFirst? [c] text = none := by
  apply cutFirst?_eq_none
  intro hinside
  exact h (hinside.subset List.mem_cons_self)

theorem cutFirst?_singleton_eq_some_iff :
    cutFirst? [c] text = some (before, after) ↔ text = before ++ c :: after ∧ c ∉ before := by
  have hcut {front back : Text} (hfront : c ∉ front) :
      cutFirst? [c] (front ++ c :: back) = some (front, back) := by
    have hwhole : cutFirst? [c] (front ++ [c] ++ back) = some (front, back) := by
      apply cutFirst?_append (List.cons_ne_nil c [])
      intro hinside
      rw [List.dropLast_singleton, List.append_nil] at hinside
      exact hfront (hinside.subset List.mem_cons_self)
    rwa [List.append_assoc] at hwhole
  constructor
  · intro h
    have hmem : c ∈ text := by
      rw [eq_append_of_cutFirst? h]
      simp
    obtain ⟨front, back, rfl, hfront⟩ := List.eq_append_cons_of_mem hmem
    rw [hcut hfront, Option.some.injEq, Prod.mk.injEq] at h
    obtain ⟨rfl, rfl⟩ := h
    exact ⟨rfl, hfront⟩
  · rintro ⟨rfl, hbefore⟩
    exact hcut hbefore

theorem cutLast?_append_of_cutLast? (front : Text) (h : cutLast? mark text = some (before, after)) :
    cutLast? mark (front ++ text) = some (front ++ before, after) := by
  induction front with
  | nil => exact h
  | cons c front ih => rw [List.cons_append, cutLast?, ih, List.cons_append]

theorem cutLast?_eq_none (h : ¬ mark <:+: text) : cutLast? mark text = none := by
  induction text with
  | nil => rfl
  | cons c rest ih =>
    rw [List.infix_cons_iff, not_or] at h
    rw [cutLast?, ih h.2, isPrefixOf?_eq_none_iff.mpr h.1]
    rfl

/-- The last cut is at a mark whose first character does not occur again. -/
theorem cutLast?_append (before : Text) (h : c ∉ mark ++ after) :
    cutLast? (c :: mark) (before ++ c :: mark ++ after) = some (before, after) := by
  have hnone : cutLast? (c :: mark) (mark ++ after) = none := by
    apply cutLast?_eq_none
    intro hinside
    exact h (hinside.subset List.mem_cons_self)
  have hhere : cutLast? (c :: mark) (c :: (mark ++ after)) = some ([], after) := by
    have hbegins := isPrefixOf?_append (c :: mark) after
    rw [List.cons_append] at hbegins
    rw [cutLast?, hnone, hbegins]
    rfl
  rw [List.append_assoc, List.cons_append, cutLast?_append_of_cutLast? before hhere,
    List.append_nil]

theorem cutLast?_append_cons (before : Text) (h : c ∉ after) :
    cutLast? [c] (before ++ c :: after) = some (before, after) := by
  have hcut := cutLast?_append before (show c ∉ [] ++ after from h)
  rwa [List.append_assoc] at hcut

theorem cutLast?_singleton_eq_none_iff : cutLast? [c] text = none ↔ c ∉ text := by
  constructor
  · intro h
    induction text with
    | nil => exact List.not_mem_nil
    | cons d rest ih =>
      rw [cutLast?] at h
      split at h
      · contradiction
      · rename_i hrest
        have hbegins := isPrefixOf?_eq_none_iff.mp (Option.map_eq_none_iff.mp h)
        rw [List.mem_cons, not_or]
        refine ⟨?_, ih hrest⟩
        rintro rfl
        exact hbegins ⟨rest, rfl⟩
  · intro h
    apply cutLast?_eq_none
    intro hinside
    exact h (hinside.subset List.mem_cons_self)

theorem cutLast?_singleton_eq_some_iff :
    cutLast? [c] text = some (before, after) ↔ text = before ++ c :: after ∧ c ∉ after := by
  constructor
  · intro h
    refine ⟨(eq_append_of_cutLast? h).trans (List.append_assoc before [c] after), ?_⟩
    induction text generalizing before with
    | nil => contradiction
    | cons d rest ih =>
      rw [cutLast?] at h
      split at h
      · rename_i hrest
        obtain ⟨-, rfl⟩ := Prod.mk.inj (Option.some.inj h)
        exact ih hrest
      · rename_i hnone
        obtain ⟨back, hbegins, heq⟩ := Option.map_eq_some_iff.mp h
        obtain ⟨-, rfl⟩ := Prod.mk.inj heq
        have hrest := List.isPrefixOf?_eq_some_iff_append_eq.mp hbegins
        rw [← (List.cons.inj hrest).2] at hnone
        exact cutLast?_singleton_eq_none_iff.mp hnone
  · rintro ⟨rfl, hafter⟩
    exact cutLast?_append_cons before hafter

theorem not_infix_append_singleton (h : ¬ mark <:+: text) (hlast : mark.getLast? ≠ some c) :
    ¬ mark <:+: text ++ [c] := by
  rw [List.infix_concat_iff, not_or]
  refine ⟨?_, h⟩
  rintro ⟨front, happend⟩
  have hsame := congrArg List.getLast? happend
  rw [List.getLast?_append, List.getLast?_concat] at hsame
  cases hmark : mark.getLast? with
  | none =>
    rw [List.getLast?_eq_none_iff.mp hmark] at h
    exact h List.nil_infix
  | some d =>
    rw [hmark, Option.some_or] at hsame
    exact hlast (hmark.trans hsame)

theorem append_cons_inj {other behind : Text} (htext : c ∉ text) (hother : c ∉ other)
    (h : text ++ c :: after = other ++ c :: behind) : text = other ∧ after = behind := by
  induction text generalizing other with
  | nil =>
    cases other with
    | nil => exact ⟨rfl, (List.cons.inj h).2⟩
    | cons d rest => exact absurd (List.cons.inj h).1 (List.ne_of_not_mem_cons hother)
  | cons d text ih =>
    obtain ⟨hd, htext⟩ := List.ne_and_not_mem_of_not_mem_cons htext
    cases other with
    | nil => exact absurd (List.cons.inj h).1.symm hd
    | cons e other =>
      obtain ⟨rfl, hrest⟩ := List.cons.inj h
      obtain ⟨rfl, hafter⟩ := ih htext (List.ne_and_not_mem_of_not_mem_cons hother).2 hrest
      exact ⟨rfl, hafter⟩

theorem append_cons_last_inj {other behind : Text} (hafter : c ∉ after) (hbehind : c ∉ behind)
    (h : text ++ c :: after = other ++ c :: behind) : text = other ∧ after = behind := by
  have hcut := congrArg (cutLast? [c]) h
  rw [cutLast?_append_cons text hafter, cutLast?_append_cons other hbehind] at hcut
  exact Prod.mk.inj (Option.some.inj hcut)

theorem prefix_of_prefix_append_cons (hc : c ∉ mark) (h : mark <+: text ++ c :: after) :
    mark <+: text := by
  rcases List.prefix_or_prefix_of_prefix h (List.prefix_append text (c :: after)) with hle | hle
  · exact hle
  · obtain ⟨rest, rfl⟩ := hle
    cases rest with
    | nil => simp
    | cons d rest =>
      have hcons := (List.prefix_append_right_inj text).mp h
      obtain rfl := (List.cons_prefix_cons.mp hcons).1
      simp at hc

end MappedTrace.Text
