import MappedTrace.Text.Blank
import MappedTrace.Text.Lines
import Mathlib.Algebra.GroupWithZero.Nat
import Mathlib.Data.List.TakeWhile

/-!
# Line by line

A text is a last line, or a line and a line feed in front of another text. What is done to each
line, and keeps its line feed where it is, is done between the line feeds.
-/

namespace MappedTrace.Text

variable {text line blanks : Text} {c : Char}

@[elab_as_elim]
theorem lineInduction {motive : Text → Prop} (last : ∀ line, '\n' ∉ line → motive line)
    (next : ∀ line rest, '\n' ∉ line → motive rest → motive (line ++ '\n' :: rest))
    (text : Text) : motive text := by
  by_cases h : '\n' ∈ text
  · obtain ⟨line, rest, hsplit, hline⟩ := List.eq_append_cons_of_mem h
    have hshorter : rest.length < text.length := by
      rw [hsplit, List.length_append, List.length_cons]
      omega
    rw [hsplit]
    exact next line rest hline (lineInduction last next rest)
  · exact last text h
termination_by text.length

theorem linesWithEnds_append_cons (h : '\n' ∉ line) (rest : Text) :
    linesWithEnds (line ++ '\n' :: rest) = (line ++ ['\n']) :: linesWithEnds rest := by
  induction line with
  | nil => simp [linesWithEnds]
  | cons c line ih =>
    obtain ⟨hc, hline⟩ := List.ne_and_not_mem_of_not_mem_cons h
    rw [List.cons_append, linesWithEnds, if_neg (Ne.symm hc), ih hline, List.cons_append]

theorem linesWithEnds_of_not_mem (h : '\n' ∉ line) (hfilled : line ≠ []) :
    linesWithEnds line = [line] := by
  induction line with
  | nil => contradiction
  | cons c line ih =>
    obtain ⟨hc, hline⟩ := List.ne_and_not_mem_of_not_mem_cons h
    rw [linesWithEnds, if_neg (Ne.symm hc)]
    cases line with
    | nil => rfl
    | cons d rest => rw [ih hline (List.cons_ne_nil d rest)]

/-- Every line of a text is ended, the last one too. -/
def CompleteLines (text : Text) : Prop :=
  text = [] ∨ text.getLast? = some '\n'

instance (text : Text) : Decidable text.CompleteLines :=
  inferInstanceAs (Decidable (_ ∨ _))

theorem CompleteLines.of_suffix {rest : Text} (h : text.CompleteLines) (hsuffix : rest <:+ text) :
    rest.CompleteLines := by
  obtain ⟨front, rfl⟩ := hsuffix
  by_cases hempty : rest = []
  · exact .inl hempty
  · have hlast := List.getLast?_eq_some_getLast hempty
    rcases h with hnone | hfeed
    · exact .inl (List.append_eq_nil_iff.mp hnone).2
    · rw [List.getLast?_append, hlast, Option.some_or] at hfeed
      exact .inr (hlast.trans hfeed)

/-- No line of the first text goes on in the second. -/
theorem linesWithEnds_append {front : Text} (h : front.CompleteLines) (rest : Text) :
    linesWithEnds (front ++ rest) = linesWithEnds front ++ linesWithEnds rest := by
  induction front using lineInduction with
  | last line hline =>
    obtain rfl : line = [] := h.resolve_right fun hlast => hline (List.mem_of_getLast? hlast)
    rfl
  | next line others hline ih =>
    have hothers : others.CompleteLines := h.of_suffix ⟨line ++ ['\n'], by simp⟩
    rw [List.append_assoc, List.cons_append, linesWithEnds_append_cons hline,
      linesWithEnds_append_cons hline, ih hothers, List.cons_append]

theorem flatMap_linesWithEnds_of_not_mem {f : Text → Text} (hempty : f [] = [])
    (h : '\n' ∉ line) : (linesWithEnds line).flatMap f = f line := by
  by_cases hfilled : line = []
  · rw [hfilled, hempty]
    rfl
  · rw [linesWithEnds_of_not_mem h hfilled, List.flatMap_singleton]

/-- What is done to each line, and leaves a character behind it, leaves that character at the end of
a text. -/
theorem flatMap_linesWithEnds_append_singleton {f : Text → Text} (hempty : f [] = [])
    (hend : ∀ line, f (line ++ [c]) = f line ++ [c]) (text : Text) :
    (linesWithEnds (text ++ [c])).flatMap f = (linesWithEnds text).flatMap f ++ [c] := by
  induction text using lineInduction with
  | last line h =>
    rw [flatMap_linesWithEnds_of_not_mem hempty h, ← hend]
    by_cases hc : c = '\n'
    · rw [hc, linesWithEnds_append_cons h]
      exact List.append_nil _
    · apply flatMap_linesWithEnds_of_not_mem hempty
      simp [h, Ne.symm hc]
  | next line rest h ih =>
    rw [List.append_assoc, List.cons_append, linesWithEnds_append_cons h,
      linesWithEnds_append_cons h, List.flatMap_cons, List.flatMap_cons, ih, List.append_assoc]

theorem flatMap_linesWithEnds {f : Text → Text} (hempty : f [] = [])
    (hend : ∀ line, f (line ++ ['\n']) = f line ++ ['\n']) (text : Text) :
    (linesWithEnds text).flatMap f = ['\n'].intercalate ((text.splitOn '\n').map f) := by
  induction text using lineInduction with
  | last line h =>
    rw [List.splitOn_eq_singleton h, List.map_singleton, List.intercalate_singleton,
      flatMap_linesWithEnds_of_not_mem hempty h]
  | next line rest h ih =>
    have hrest : (rest.splitOn '\n').map f ≠ [] := by simp
    rw [linesWithEnds_append_cons h, List.flatMap_cons, hend, ih,
      List.splitOn_append_cons_self_of_not_mem h, List.map_cons,
      List.intercalate_cons_of_ne_nil hrest]

theorem intercalate_append {lines : List Text} (h : lines ≠ []) (others : List Text) :
    ['\n'].intercalate (lines ++ others) =
      ['\n'].intercalate lines ++ others.flatMap ('\n' :: ·) := by
  induction lines with
  | nil => contradiction
  | cons line rest ih =>
    cases rest with
    | nil =>
      clear ih
      induction others generalizing line with
      | nil => simp
      | cons other others ih =>
        have hrest := ih other (List.cons_ne_nil _ _)
        simp only [List.singleton_append, List.intercalate_singleton] at hrest
        simp [hrest]
    | cons next rest =>
      have hrest := ih (List.cons_ne_nil next rest)
      simp only [List.cons_append] at hrest
      simp [hrest]

theorem count_intercalate {lines : List Text} (h : lines ≠ []) :
    (['\n'].intercalate lines).count '\n' + 1 =
      lines.length + (lines.map (List.count '\n')).sum := by
  induction lines with
  | nil => contradiction
  | cons line rest ih =>
    cases rest with
    | nil =>
      simp only [List.intercalate_singleton, List.map_cons, List.map_nil, List.sum_cons,
        List.sum_nil, List.length_cons, List.length_nil]
      omega
    | cons next rest =>
      have hrest := ih (List.cons_ne_nil next rest)
      rw [List.intercalate_cons_of_ne_nil (List.cons_ne_nil next rest), List.count_append,
        List.count_append, List.count_singleton_self, List.map_cons, List.sum_cons,
        List.length_cons]
      omega

theorem intercalate_inj {lines others : List Text} (hlength : lines.length = others.length)
    (hothers : ∀ line ∈ others, '\n' ∉ line)
    (h : ['\n'].intercalate lines = ['\n'].intercalate others) : lines = others := by
  by_cases hempty : others = []
  · rw [hempty, List.length_nil] at hlength
    rw [hempty, List.eq_nil_of_length_eq_zero hlength]
  · have hfilled : lines ≠ [] := by
      rintro rfl
      exact hempty (List.eq_nil_of_length_eq_zero hlength.symm)
    have hnone : (others.map (List.count '\n')).sum = 0 := by
      rw [List.sum_eq_zero_iff_forall_eq_nat]
      simpa [List.count_eq_zero] using hothers
    have hcount := count_intercalate hfilled
    rw [h, count_intercalate hempty, hlength, hnone, Nat.add_zero, Nat.left_eq_add,
      List.sum_eq_zero_iff_forall_eq_nat] at hcount
    have hlines : ∀ line ∈ lines, '\n' ∉ line := by
      simpa [List.count_eq_zero] using hcount
    rw [← List.splitOn_intercalate '\n' hlines hfilled, h,
      List.splitOn_intercalate '\n' hothers hempty]

theorem not_mem_of_mem_splitOn (c : Char) (text : Text) : ∀ piece ∈ text.splitOn c, c ∉ piece := by
  induction text with
  | nil => simp
  | cons d rest ih =>
    rw [List.splitOn_cons_eq_if_modifyHead]
    split
    · exact List.forall_mem_cons.mpr ⟨List.not_mem_nil, ih⟩
    · rename_i hother
      cases hpieces : rest.splitOn c with
      | nil => simp
      | cons first others =>
        rw [hpieces] at ih
        obtain ⟨hfirst, hothers⟩ := List.forall_mem_cons.mp ih
        refine List.forall_mem_cons.mpr ⟨?_, hothers⟩
        rw [List.mem_cons, not_or]
        exact ⟨fun heq => hother (beq_iff_eq.mpr heq.symm), hfirst⟩

theorem lineFeed_not_mem_of_mem_splitOn (text : Text) :
    ∀ line ∈ text.splitOn '\n', '\n' ∉ line :=
  not_mem_of_mem_splitOn '\n' text

/-- What is done to each line does nothing to a text exactly if it does nothing to any line. -/
theorem intercalate_map_eq_iff {f : Text → Text} (text : Text) :
    ['\n'].intercalate ((text.splitOn '\n').map f) = text ↔
      ∀ line ∈ text.splitOn '\n', f line = line := by
  have htext : ['\n'].intercalate (text.splitOn '\n') = text := List.intercalate_splitOn '\n'
  have hsame : (text.splitOn '\n').map f = text.splitOn '\n' ↔
      ∀ line ∈ text.splitOn '\n', f line = line := by
    have hmap := List.map_inj_left (l := text.splitOn '\n') (f := f) (g := id)
    rwa [List.map_id] at hmap
  rw [← hsame]
  constructor
  · intro heq
    exact intercalate_inj (List.length_map f) (lineFeed_not_mem_of_mem_splitOn text)
      (heq.trans htext.symm)
  · intro hkept
    rw [hkept, htext]

theorem isLineEnd_of_mem_lines (text : Text) :
    ∀ line ∈ lines text, ∀ c ∈ line, isLineEnd c = false := by
  fun_induction lines text with
  | case1 => simp
  | case2 rest ih => simpa using ih
  | case3 c rest hpair hend ih => simpa using ih
  | case4 c rest hpair hinside ih =>
    have hc : isLineEnd c = false := Bool.not_eq_true _ ▸ hinside
    cases hlines : lines rest with
    | nil => simp
    | cons first others =>
      rw [hlines] at ih
      obtain ⟨hfirst, hothers⟩ := List.forall_mem_cons.mp ih
      exact List.forall_mem_cons.mpr ⟨List.forall_mem_cons.mpr ⟨hc, hfirst⟩, hothers⟩

/-! ### Ends of lines -/

theorem isBlank_of_isLineEnd (h : isLineEnd c = true) : isBlank c = true := by
  simp only [isLineEnd, Bool.or_eq_true, decide_eq_true_eq] at h
  rcases h with rfl | rfl <;> decide

theorem trim_append (text : Text) (h : ∀ c ∈ blanks, isBlank c = true) :
    trim (text ++ blanks) = trim text := by
  have hstart : trimStart blanks = [] := List.dropWhile_eq_nil_iff.mpr h
  have hend (front : Text) : trimEnd (front ++ blanks) = trimEnd front := by
    rw [trimEnd, trimEnd, List.reverse_append, List.dropWhile_append_of_pos (by simpa using h)]
  rw [trim, trimStart, List.dropWhile_append]
  split
  · rename_i hempty
    rw [show blanks.dropWhile isBlank = [] from hstart, trim, trimStart, List.isEmpty_iff.mp hempty]
  · exact hend _

theorem exists_eq_trim (text : Text) :
    ∃ behind, text = text.takeWhile isBlank ++ (trim text ++ behind) := by
  refine ⟨((trimStart text).reverse.takeWhile isBlank).reverse, ?_⟩
  rw [trim, trimEnd, ← List.reverse_append, List.takeWhile_append_dropWhile, List.reverse_reverse,
    trimStart, List.takeWhile_append_dropWhile]

theorem trim_eq_self (h : text.any isBlank = false) : trim text = text := by
  have hstays : ∀ part : Text, part.any isBlank = false → part.dropWhile isBlank = part := by
    intro part hpart
    cases part with
    | nil => rfl
    | cons c rest =>
      exact List.dropWhile_cons_of_neg (List.any_eq_false.mp hpart c List.mem_cons_self)
  have hreversed : text.reverse.any isBlank = false := by rw [List.any_reverse, h]
  rw [trim, trimStart, hstays text h, trimEnd, hstays text.reverse hreversed, List.reverse_reverse]

def EndsVisibly (text : Text) : Prop :=
  ∃ c, text.getLast? = some c ∧ isBlank c = false

theorem EndsVisibly.append (h : EndsVisibly text) (front : Text) : EndsVisibly (front ++ text) := by
  obtain ⟨c, hlast, hc⟩ := h
  exact ⟨c, by rw [List.getLast?_append, hlast, Option.some_or], hc⟩

theorem EndsVisibly.trimEnd_eq (h : EndsVisibly text) : trimEnd text = text := by
  obtain ⟨c, hlast, hc⟩ := h
  obtain ⟨front, rfl⟩ := List.getLast?_eq_some_iff.mp hlast
  simp [trimEnd, hc]

theorem endsVisibly_trim (h : trim text ≠ []) : EndsVisibly (trim text) := by
  have hlast : (trim text).getLast? = ((trimStart text).reverse.dropWhile isBlank).head? :=
    List.getLast?_reverse
  have hvisible := List.head?_dropWhile_not isBlank (trimStart text).reverse
  have hsome := List.getLast?_eq_some_getLast h
  rw [← hlast, hsome] at hvisible
  exact ⟨_, hsome, by simpa using hvisible⟩

theorem cutEnds_eq_self (h : ∀ c, text.getLast? = some c → isLineEnd c = false) :
    cutEnds text = (text, []) := by
  cases hlast : text.getLast? with
  | none =>
    rw [List.getLast?_eq_none_iff.mp hlast]
    rfl
  | some c =>
    obtain ⟨front, rfl⟩ := List.getLast?_eq_some_iff.mp hlast
    simp [cutEnds, h c hlast]

theorem EndsVisibly.cutEnds_eq (h : EndsVisibly text) : cutEnds text = (text, []) := by
  obtain ⟨c, hlast, hvisible⟩ := h
  apply cutEnds_eq_self
  intro d hd
  obtain rfl := Option.some.inj (hlast.symm.trans hd)
  rw [← Bool.not_eq_true]
  intro hend
  rw [isBlank_of_isLineEnd hend] at hvisible
  contradiction

theorem cutEnds_append_lineEnd (h : isLineEnd c = true) (line : Text) :
    cutEnds (line ++ [c]) = ((cutEnds line).1, (cutEnds line).2 ++ [c]) := by
  simp [cutEnds, h]

theorem trim_cutEnds (line : Text) : trim (cutEnds line).1 = trim line := by
  have hblanks : ∀ c ∈ (cutEnds line).2, isBlank c = true := by
    intro c hc
    apply isBlank_of_isLineEnd
    exact List.all_eq_true.mp List.all_takeWhile c (List.mem_reverse.mp hc)
  rw [← trim_append _ hblanks, cutEnds_append]

end MappedTrace.Text
