import MappedTrace.Proofs.Text.Lines

/-!
# The ends of lines

A line ends at a carriage return, at a line feed, or at both in this order. A text keeps its lines
when each end is replaced by a line feed, and a text without carriage returns is cut at its line feeds
alone.
-/

namespace MappedTrace.Text

variable {text : Text} {c : Char}

/-- A text with each carriage return replaced by a line feed, together with the line feed right
behind it if there is one. -/
def withLineFeeds : Text → Text
  | [] => []
  | '\r' :: '\n' :: rest => '\n' :: withLineFeeds rest
  | '\r' :: rest => '\n' :: withLineFeeds rest
  | c :: rest => c :: withLineFeeds rest

theorem isLineEnd_eq_false (hreturn : c ≠ '\r') (hfeed : c ≠ '\n') : isLineEnd c = false := by
  simp [isLineEnd, hreturn, hfeed]

theorem lines_lineFeed_cons (rest : Text) : lines ('\n' :: rest) = [] :: lines rest := by
  rw [lines]
  · exact if_pos rfl
  · intro other heq
    contradiction

theorem lines_cons (h : isLineEnd c = false) (rest : Text) :
    lines (c :: rest) = (lines rest).modifyHead (c :: ·) := by
  rw [lines]
  · exact if_neg (Bool.not_eq_true _ ▸ h)
  · rintro other rfl
    contradiction

/-- No mixture of ends makes a line of its own, or joins two lines. -/
theorem lines_withLineFeeds (text : Text) : lines (withLineFeeds text) = lines text := by
  fun_induction withLineFeeds text with
  | case1 => rfl
  | case2 rest ih => rw [lines_lineFeed_cons, lines, ih]
  | case3 rest hpair ih =>
    rw [lines_lineFeed_cons, ih, lines]
    · exact (if_pos rfl).symm
    · rintro other - rfl
      exact hpair other rfl
  | case4 c rest hpair hreturn ih =>
    by_cases hfeed : c = '\n'
    · rw [hfeed, lines_lineFeed_cons, lines_lineFeed_cons, ih]
    · have hinside := isLineEnd_eq_false hreturn hfeed
      rw [lines_cons hinside, lines_cons hinside, ih]

theorem lines_eq_splitOn (h : '\r' ∉ text) : lines text = text.splitOn '\n' := by
  induction text with
  | nil => rfl
  | cons c rest ih =>
    obtain ⟨hreturn, hrest⟩ := List.ne_and_not_mem_of_not_mem_cons h
    rw [List.splitOn_cons_eq_if_modifyHead, ← ih hrest]
    by_cases hfeed : c = '\n'
    · rw [hfeed, lines_lineFeed_cons, if_pos (beq_self_eq_true '\n')]
    · rw [lines_cons (isLineEnd_eq_false (Ne.symm hreturn) hfeed), if_neg (by simpa using hfeed)]

theorem not_mem_intercalate {texts : List Text} (hc : c ≠ '\n') (h : ∀ text ∈ texts, c ∉ text) :
    c ∉ ['\n'].intercalate texts := by
  cases texts with
  | nil => exact List.not_mem_nil
  | cons first others =>
    obtain ⟨hfirst, hothers⟩ := List.forall_mem_cons.mp h
    have happend := intercalate_append (List.cons_ne_nil first []) others
    rw [List.singleton_append, List.intercalate_singleton] at happend
    rw [happend, List.mem_append, List.mem_flatMap]
    rintro (hmem | ⟨text, htext, hmem⟩)
    · exact hfirst hmem
    · exact (List.mem_cons.mp hmem).elim hc (hothers text htext)

theorem lines_intercalate {texts : List Text} (hfilled : texts ≠ [])
    (h : ∀ text ∈ texts, '\r' ∉ text ∧ '\n' ∉ text) :
    lines (['\n'].intercalate texts) = texts := by
  have hreturn : '\r' ∉ ['\n'].intercalate texts :=
    not_mem_intercalate (by decide) fun text htext => (h text htext).1
  rw [lines_eq_splitOn hreturn,
    List.splitOn_intercalate '\n' (fun text htext => (h text htext).2) hfilled]

end MappedTrace.Text
