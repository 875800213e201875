import MappedTrace.Proofs.Text.Cut
import MappedTrace.Proofs.Text.Lines
import MappedTrace.Report

/-!
# The line of the top frame

The top frame of a stack is looked for behind its first line: a mark that starts a line, a name up
to the first parenthesis, and a position behind that. The name may go on over the ends of lines. So
a frame without parentheses lends its mark to the first line below it that has one, whatever that
line is, and what is found there is the position of a frame only if that line is one.
-/

namespace MappedTrace.Report

def mark : Text :=
  "    at ".toList

def IsNumber (text : Text) : Prop :=
  text ≠ [] ∧ ∀ c ∈ text, Text.isDecimalDigit c = true

instance (text : Text) : Decidable (IsNumber text) :=
  decidable_of_iff (text ≠ [] ∧ text.all Text.isDecimalDigit = true) (by rw [List.all_eq_true]; rfl)

/-- A line with a position in parentheses behind a front without any. -/
structure Notes (front text source line column : Text) : Prop where
  closed : '(' ∉ front
  numbers : IsNumber line ∧ IsNumber column
  whole : ∃ rest, text =
    front ++ " (".toList ++ (source ++ ':' :: line ++ ':' :: column ++ ')' :: rest)

/-- A frame on one line: the mark, a name, and a position in parentheses. -/
def IsFrame (text source line column : Text) : Prop :=
  ∃ name, name ≠ [] ∧ Notes (mark ++ name) text source line column

def IsFrameLine (text : Text) : Prop :=
  ∃ source line column, IsFrame text source line column

def IsBare (text : Text) : Prop :=
  mark <+: text ∧ '(' ∉ text

/-- The last of some lines that is a frame or has a parenthesis is a frame without any. -/
def EndsBare (lines : List Text) : Prop :=
  ∃ before bare between, lines = before ++ bare :: between ∧ IsBare bare ∧
    ∀ text ∈ between, '(' ∉ text

def linesBelow (stack : Text) : List Text :=
  (stack.splitOn '\n').tail

/-- A line of a stack, not the first, and the lines above it but for the first: none is a frame. -/
structure NoFrameAbove (stack : Text) (before : List Text) (text : Text) : Prop where
  stands : ∃ after, linesBelow stack = before ++ text :: after
  first : ∀ other ∈ before, ¬ IsFrameLine other

/-! ### Numbers -/

section

variable {text source line column rest : Text}

theorem IsNumber.takeWhile_append (h : IsNumber line) {c : Char}
    (hc : Text.isDecimalDigit c = false) :
    (line ++ c :: rest).takeWhile Text.isDecimalDigit = line := by
  rw [List.takeWhile_append_of_pos h.2, List.takeWhile_cons_of_neg (by simp [hc]), List.append_nil]

theorem IsNumber.dropWhile_append (h : IsNumber line) {c : Char}
    (hc : Text.isDecimalDigit c = false) :
    (line ++ c :: rest).dropWhile Text.isDecimalDigit = c :: rest := by
  rw [List.dropWhile_append_of_pos h.2, List.dropWhile_cons_of_neg (by simp [hc])]

theorem isNumber_of_filled? (h : Text.filled? (text.takeWhile Text.isDecimalDigit) = some line) :
    IsNumber line ∧ text = line ++ text.dropWhile Text.isDecimalDigit := by
  obtain ⟨rfl, hfilled⟩ := Text.filled?_eq_some_iff.mp h
  exact ⟨⟨hfilled, List.all_eq_true.mp List.all_takeWhile⟩, List.takeWhile_append_dropWhile.symm⟩

theorem numbers?_eq_some_iff :
    numbers? text = some (line, column) ↔
      IsNumber line ∧ IsNumber column ∧
        ∃ rest, text = ':' :: line ++ ':' :: column ++ ')' :: rest := by
  constructor
  · intro h
    simp only [numbers?, Option.bind_eq_bind, Option.bind_eq_some_iff] at h
    obtain ⟨front, hfront, number, hline, back, hback, other, hcolumn, rest, hrest, h⟩ := h
    obtain ⟨rfl, rfl⟩ := Prod.mk.inj (Option.some.inj h)
    obtain ⟨hnumber, hfrontEq⟩ := isNumber_of_filled? hline
    obtain ⟨hother, hbackEq⟩ := isNumber_of_filled? hcolumn
    have hfront := List.isPrefixOf?_eq_some_iff_append_eq.mp hfront
    have hback := List.isPrefixOf?_eq_some_iff_append_eq.mp hback
    have hrest := List.isPrefixOf?_eq_some_iff_append_eq.mp hrest
    refine ⟨hnumber, hother, rest, ?_⟩
    rw [← hfront, hfrontEq, ← hback, hbackEq, ← hrest]
    simp
  · rintro ⟨hline, hcolumn, rest, rfl⟩
    have hcolon : Text.isDecimalDigit ':' = false := by decide
    have hparenthesis : Text.isDecimalDigit ')' = false := by decide
    have hfilled {number : Text} (h : IsNumber number) : Text.filled? number = some number :=
      Text.filled?_eq_some_iff.mpr ⟨rfl, h.1⟩
    simp [numbers?, List.isPrefixOf?, hline.takeWhile_append hcolon,
      hline.dropWhile_append hcolon, hcolumn.takeWhile_append hparenthesis,
      hcolumn.dropWhile_append hparenthesis, hfilled hline, hfilled hcolumn]

theorem eq_append_of_lastNumbers? (h : lastNumbers? text = some (source, line, column)) :
    (IsNumber line ∧ IsNumber column) ∧
      ∃ rest, text = source ++ ':' :: line ++ ':' :: column ++ ')' :: rest := by
  induction text generalizing source with
  | nil => contradiction
  | cons c text ih =>
    rw [lastNumbers?] at h
    split at h
    · rename_i before number other hrest
      simp only [Option.some.injEq, Prod.mk.injEq] at h
      obtain ⟨rfl, rfl, rfl⟩ := h
      obtain ⟨hnumbers, rest, rfl⟩ := ih hrest
      exact ⟨hnumbers, rest, rfl⟩
    · obtain ⟨⟨number, other⟩, hnumbers, heq⟩ := Option.map_eq_some_iff.mp h
      simp only [Prod.mk.injEq] at heq
      obtain ⟨rfl, rfl, rfl⟩ := heq
      obtain ⟨hnumber, hother, rest, hwhole⟩ := numbers?_eq_some_iff.mp hnumbers
      exact ⟨⟨hnumber, hother⟩, rest, hwhole⟩

theorem lastNumbers?_ne_none (source : Text) (hline : IsNumber line) (hcolumn : IsNumber column) :
    lastNumbers? (source ++ ':' :: line ++ ':' :: column ++ ')' :: rest) ≠ none := by
  induction source with
  | nil =>
    have hnumbers : numbers? (':' :: line ++ ':' :: column ++ ')' :: rest) = some (line, column) :=
      numbers?_eq_some_iff.mpr ⟨hline, hcolumn, rest, rfl⟩
    simp only [List.nil_append, List.cons_append] at hnumbers ⊢
    rw [lastNumbers?, hnumbers]
    split <;> simp
  | cons c source ih =>
    simp only [List.cons_append]
    rw [lastNumbers?]
    split
    · exact Option.some_ne_none _
    · rename_i hnone
      exact absurd hnone ih

end

/-! ### Fronts -/

/-- The position behind the first parenthesis of a text, on the same line and after a blank. -/
def closing? (text : Text) : Option (Text × Text × Text) :=
  match Text.cutFirst? ['('] text with
  | none => none
  | some (front, rest) =>
    if front.getLast? = some ' ' then lastNumbers? (rest.takeWhile (· ≠ '\n')) else none

section

variable {front line rest : Text} {found : Text × Text × Text}

theorem closing?_eq_none (h : '(' ∉ line) : closing? line = none := by
  rw [closing?, Text.cutFirst?_singleton_eq_none h]

theorem mem_of_closing? (h : closing? line = some found) : '(' ∈ line := by
  apply Decidable.of_not_not
  intro hnone
  rw [closing?_eq_none hnone] at h
  contradiction

theorem closing?_append (h : '(' ∉ front) (rest : Text) :
    closing? (front ++ '(' :: rest) =
      if front.getLast? = some ' ' then lastNumbers? (rest.takeWhile (· ≠ '\n')) else none := by
  rw [closing?, Text.cutFirst?_singleton_eq_some_iff.mpr ⟨rfl, h⟩]

theorem closing?_line_append (h : '(' ∉ line) (rest : Text) :
    closing? (line ++ '\n' :: rest) = closing? rest := by
  by_cases hrest : '(' ∈ rest
  · obtain ⟨front, behind, rfl, hfront⟩ := List.eq_append_cons_of_mem hrest
    have hwhole : '(' ∉ line ++ '\n' :: front := by simp [h, hfront]
    have hlast : (line ++ '\n' :: front).getLast? = some ' ' ↔ front.getLast? = some ' ' := by
      cases hlast : front.getLast? <;> simp [List.getLast?_append, List.getLast?_cons, hlast]
    rw [← List.cons_append, ← List.append_assoc, closing?_append hwhole, closing?_append hfront]
    simp only [hlast]
  · rw [closing?_eq_none hrest, closing?_eq_none (by simp [h, hrest])]

theorem closing?_append_line (hline : '(' ∈ line) (rest : Text) :
    closing? (line ++ '\n' :: rest) = closing? line := by
  obtain ⟨front, behind, rfl, hfront⟩ := List.eq_append_cons_of_mem hline
  rw [List.append_assoc, List.cons_append, closing?_append hfront, closing?_append hfront]
  have hsame : (behind ++ '\n' :: rest).takeWhile (· ≠ '\n') = behind.takeWhile (· ≠ '\n') := by
    rw [List.takeWhile_append]
    split
    · rename_i hlength
      rw [(List.takeWhile_prefix _).eq_of_length hlength]
      simp
    · rfl
  rw [hsame]

theorem frame?_eq (text : Text) :
    frame? text = (mark.isPrefixOf? text).bind fun body =>
      (Text.cutFirst? ['('] body).bind fun (front, rest) =>
        ([' '].isSuffixOf? front).bind fun name =>
          (Text.filled? name).bind fun _ => lastNumbers? (rest.takeWhile (· ≠ '\n')) :=
  rfl

theorem frame?_eq_none (h : ¬ mark <+: line) : frame? line = none := by
  rw [frame?_eq, Text.isPrefixOf?_eq_none_iff.mpr h, Option.bind_none]

theorem blank_prefix_iff (h : '(' ∉ front) :
    " (".toList <+: front ++ '(' :: rest ↔ front = [' '] := by
  match front with
  | [] => simp
  | [c] => simp [eq_comm]
  | c :: d :: front =>
    have hd : '(' ≠ d := by
      rintro rfl
      simp at h
    simp [hd]

/-- Behind the mark the position is found as in any line, but for a name of its own. -/
theorem frame?_mark_append (text : Text) :
    frame? (mark ++ text) = if " (".toList <+: text then none else closing? text := by
  rw [frame?_eq, Text.isPrefixOf?_append, Option.bind_some]
  by_cases hopen : '(' ∈ text
  · obtain ⟨front, rest, rfl, hfront⟩ := List.eq_append_cons_of_mem hopen
    rw [Text.cutFirst?_singleton_eq_some_iff.mpr ⟨rfl, hfront⟩, Option.bind_some,
      closing?_append hfront]
    by_cases hlast : front.getLast? = some ' '
    · obtain ⟨name, rfl⟩ := List.getLast?_eq_some_iff.mp hlast
      have hsuffix : [' '].isSuffixOf? (name ++ [' ']) = some name :=
        List.isSuffixOf?_eq_some_iff_append_eq.mpr rfl
      simp only [blank_prefix_iff hfront, hsuffix, hlast, Option.bind_some, if_true]
      cases name with
      | nil => rfl
      | cons c name => simp [Text.filled?]
    · have hsuffix : [' '].isSuffixOf? front = none := by
        rw [Option.eq_none_iff_forall_ne_some]
        intro name hname
        apply hlast
        rw [← List.isSuffixOf?_eq_some_iff_append_eq.mp hname, List.getLast?_concat]
      simp [hsuffix, hlast]
  · have hblank : ¬ " (".toList <+: text := by
      intro hfront
      exact hopen (hfront.subset (by decide))
    rw [Text.cutFirst?_singleton_eq_none hopen, closing?_eq_none hopen, if_neg hblank]
    rfl

theorem frame?_append_line (hfeed : '\n' ∉ line) (hline : '(' ∈ line) (rest : Text) :
    frame? (line ++ '\n' :: rest) = frame? line := by
  by_cases hmark : mark <+: line
  · obtain ⟨body, rfl⟩ := hmark
    have hbody : '(' ∈ body := (List.mem_append.mp hline).resolve_left (by decide)
    have hblank : " (".toList <+: body ++ '\n' :: rest ↔ " (".toList <+: body :=
      ⟨Text.prefix_of_prefix_append_cons (by decide), fun h => h.trans (List.prefix_append _ _)⟩
    rw [List.append_assoc, frame?_mark_append, frame?_mark_append, closing?_append_line hbody]
    simp only [hblank]
  · have hlonger : ¬ mark <+: line ++ '\n' :: rest :=
      fun h => hmark (Text.prefix_of_prefix_append_cons (by decide) h)
    rw [frame?_eq_none hmark, frame?_eq_none hlonger]

/-- A frame without parentheses lends its mark to the lines below it. -/
theorem frame?_line_append (hline : '(' ∉ line) (rest : Text) :
    frame? (line ++ '\n' :: rest) = if mark <+: line then closing? rest else none := by
  split
  · rename_i hmark
    obtain ⟨body, rfl⟩ := hmark
    have hbody : '(' ∉ body := fun h => hline (List.mem_append_right mark h)
    have hblank : ¬ " (".toList <+: body ++ '\n' :: rest := by
      intro h
      exact hbody ((Text.prefix_of_prefix_append_cons (by decide) h).subset (by decide))
    rw [List.append_assoc, frame?_mark_append, if_neg hblank, closing?_line_append hbody]
  · rename_i hmark
    exact frame?_eq_none fun h => hmark (Text.prefix_of_prefix_append_cons (by decide) h)

theorem frame?_eq_none_of_not_mem (hline : '(' ∉ line) : frame? line = none := by
  by_cases hmark : mark <+: line
  · obtain ⟨body, rfl⟩ := hmark
    have hbody : '(' ∉ body := fun h => hline (List.mem_append_right mark h)
    rw [frame?_mark_append, closing?_eq_none hbody, ite_self]
  · exact frame?_eq_none hmark

/-- A frame is found by its front like any other position in parentheses. -/
theorem closing?_of_frame? (h : frame? line = some found) : closing? line = some found := by
  by_cases hmark : mark <+: line
  · obtain ⟨body, rfl⟩ := hmark
    rw [frame?_mark_append] at h
    split at h
    · contradiction
    · have hopen : '(' ∈ body := by
        rw [← Decidable.not_not (p := _ ∈ _)]
        intro hnone
        rw [closing?_eq_none hnone] at h
        contradiction
      obtain ⟨front, rest, rfl, hfront⟩ := List.eq_append_cons_of_mem hopen
      rw [closing?_append hfront] at h
      split at h
      · rename_i hlast
        have hwhole : '(' ∉ mark ++ front := by
          rw [List.mem_append, not_or]
          exact ⟨by decide, hfront⟩
        rw [← List.append_assoc, closing?_append hwhole, List.getLast?_append, hlast,
          Option.some_or, if_pos rfl, h]
      · contradiction
  · rw [frame?_eq_none hmark] at h
    contradiction

theorem frame?_eq_none_of_closing? (h : closing? line = none) : frame? line = none := by
  rw [Option.eq_none_iff_forall_ne_some]
  intro found hfound
  rw [closing?_of_frame? hfound] at h
  contradiction

theorem closing?_or_frame? (line : Text) (other : Option (Text × Text × Text)) :
    (closing? line).or ((frame? line).or other) = (closing? line).or other := by
  cases hclosing : closing? line with
  | some found => rfl
  | none =>
    rw [frame?_eq_none_of_closing? hclosing, Option.none_or, Option.none_or]

theorem topFrame?_line (h : '\n' ∉ line) : topFrame? line = none := by
  induction line with
  | nil => rfl
  | cons c line ih =>
    obtain ⟨hc, hline⟩ := List.ne_and_not_mem_of_not_mem_cons h
    rw [topFrame?, if_neg (Ne.symm hc), ih hline]

theorem topFrame?_line_append (h : '\n' ∉ line) (rest : Text) :
    topFrame? (line ++ '\n' :: rest) = (frame? rest).or (topFrame? rest) := by
  induction line with
  | nil => rw [List.nil_append, topFrame?, if_pos rfl]
  | cons c line ih =>
    obtain ⟨hc, hline⟩ := List.ne_and_not_mem_of_not_mem_cons h
    rw [List.cons_append, topFrame?, if_neg (Ne.symm hc), ih hline]

/-! ### Line by line -/

/-- The search for the top frame, one line after the other: whether a frame without parentheses has
begun is all that one line leaves to the next. -/
def search : Bool → List Text → Option (Text × Text × Text)
  | _, [] => none
  | begun, line :: rest =>
    if '(' ∈ line then (if begun then closing? line else frame? line).or (search false rest)
    else search (begun || mark.isPrefixOf line) rest

theorem search_splitOn (begun : Bool) (text : Text) :
    search begun (text.splitOn '\n') =
      if begun then (closing? text).or ((frame? text).or (topFrame? text))
      else (frame? text).or (topFrame? text) := by
  induction text using Text.lineInduction generalizing begun with
  | last line hline =>
    rw [List.splitOn_eq_singleton hline, topFrame?_line hline, closing?_or_frame?, search]
    split
    · cases begun <;> rfl
    · rename_i hopen
      rw [closing?_eq_none hopen, frame?_eq_none_of_not_mem hopen, ite_self]
      rfl
  | next line rest hline ih =>
    rw [List.splitOn_append_cons_self_of_not_mem hline, topFrame?_line_append hline,
      closing?_or_frame?, search, ih, ih]
    split
    · rename_i hopen
      rw [closing?_append_line hopen, frame?_append_line hline hopen]
      cases begun <;> rfl
    · rename_i hopen
      rw [closing?_line_append hopen, frame?_line_append hopen]
      by_cases hmark : mark <+: line
      · rw [if_pos hmark, List.isPrefixOf_iff_prefix.mpr hmark, Bool.or_true, if_pos rfl,
          closing?_or_frame?, ite_self]
      · have hfalse : mark.isPrefixOf line = false := by
          rw [← Bool.not_eq_true, List.isPrefixOf_iff_prefix]
          exact hmark
        rw [if_neg hmark, hfalse, Bool.or_false, Option.none_or]

theorem topFrame?_eq_search (stack : Text) : topFrame? stack = search false (linesBelow stack) := by
  by_cases hfeed : '\n' ∈ stack
  · obtain ⟨first, rest, rfl, hfirst⟩ := List.eq_append_cons_of_mem hfeed
    rw [topFrame?_line_append hfirst, linesBelow, List.splitOn_append_cons_self_of_not_mem hfirst,
      List.tail_cons, search_splitOn]
    rfl
  · rw [topFrame?_line hfeed, linesBelow, List.splitOn_eq_singleton hfeed]
    rfl

/-- Where a search finds something: on a frame or, if a frame without parentheses has begun among
the lines above or in front of them, on the next line that has a parenthesis. No line above is a
frame. -/
structure FoundOn (begun : Bool) (before : List Text) (line : Text) (found : Text × Text × Text) :
    Prop where
  noFrame : ∀ other ∈ before, frame? other = none
  stands : frame? line = some found ∨
    closing? line = some found ∧ frame? line = none ∧
      (EndsBare before ∨ begun = true ∧ ∀ other ∈ before, '(' ∉ other)

theorem foundOn_nil {begun : Bool}
    (h : (if begun then closing? line else frame? line) = some found) :
    FoundOn begun [] line found := by
  refine ⟨by simp, ?_⟩
  cases begun with
  | false => exact Or.inl h
  | true =>
    rw [if_pos rfl] at h
    cases hframe : frame? line with
    | none => exact Or.inr ⟨h, rfl, Or.inr ⟨rfl, by simp⟩⟩
    | some other =>
      rw [closing?_of_frame? hframe] at h
      exact Or.inl h

/-- One more line above changes nothing, as long as what has begun behind it began on it or in front
of it. -/
theorem FoundOn.cons {begun next : Bool} {before : List Text} {text : Text}
    (h : FoundOn next before line found) (hframe : frame? text = none)
    (hnext : next = true → IsBare text ∨ begun = true ∧ '(' ∉ text) :
    FoundOn begun (text :: before) line found := by
  refine ⟨List.forall_mem_cons.mpr ⟨hframe, h.noFrame⟩, ?_⟩
  refine h.stands.imp_right fun ⟨hclosing, hno, hbegun⟩ => ⟨hclosing, hno, ?_⟩
  rcases hbegun with ⟨front, bare, between, rfl, hbare, hbetween⟩ | ⟨htrue, hbetween⟩
  · exact Or.inl ⟨text :: front, bare, between, rfl, hbare, hbetween⟩
  · rcases hnext htrue with hbare | ⟨hbegun, hopen⟩
    · exact Or.inl ⟨[], text, before, rfl, hbare, hbetween⟩
    · exact Or.inr ⟨hbegun, List.forall_mem_cons.mpr ⟨hopen, hbetween⟩⟩

theorem search_eq_some {begun : Bool} {lines : List Text} (h : search begun lines = some found) :
    ∃ before line after, lines = before ++ line :: after ∧ FoundOn begun before line found := by
  induction lines generalizing begun with
  | nil => contradiction
  | cons line rest ih =>
    rw [search] at h
    split at h
    · rcases Option.or_eq_some_iff.mp h with hhere | ⟨hnone, hbelow⟩
      · exact ⟨[], line, rest, rfl, foundOn_nil hhere⟩
      · have hframe : frame? line = none := by
          cases begun with
          | false => exact hnone
          | true => exact frame?_eq_none_of_closing? hnone
        obtain ⟨before, text, after, rfl, hfound⟩ := ih hbelow
        exact ⟨line :: before, text, after, rfl, hfound.cons hframe fun hfalse => nomatch hfalse⟩
    · rename_i hopen
      obtain ⟨before, text, after, rfl, hfound⟩ := ih h
      refine ⟨line :: before, text, after, rfl,
        hfound.cons (frame?_eq_none_of_not_mem hopen) fun hnext => ?_⟩
      rcases Bool.or_eq_true_iff.mp hnext with hbegun | hmark
      · exact Or.inr ⟨hbegun, hopen⟩
      · exact Or.inl ⟨List.isPrefixOf_iff_prefix.mp hmark, hopen⟩

theorem search_ne_none {begun : Bool} {lines : List Text}
    (h : ∃ line ∈ lines, frame? line ≠ none) : search begun lines ≠ none := by
  induction lines generalizing begun with
  | nil => simp at h
  | cons line rest ih =>
    obtain ⟨text, htext, hframe⟩ := h
    rw [search]
    rcases List.mem_cons.mp htext with rfl | hrest
    · obtain ⟨found, hfound⟩ := Option.ne_none_iff_exists'.mp hframe
      have hopen : '(' ∈ text :=
        Decidable.of_not_not fun hnone => hframe (frame?_eq_none_of_not_mem hnone)
      rw [if_pos hopen, hfound, closing?_of_frame? hfound, ite_self, Option.some_or]
      exact Option.some_ne_none found
    · split
      · intro hnone
        exact ih ⟨text, hrest, hframe⟩ (Option.or_eq_none_iff.mp hnone).2
      · exact ih ⟨text, hrest, hframe⟩

end

/-! ### Frames and notes -/

section

variable {front name text source line column : Text}

theorem takeWhile_ne_eq_self (h : '\n' ∉ text) : text.takeWhile (· ≠ '\n') = text := by
  rw [List.takeWhile_eq_self_iff]
  intro c hc
  simpa using fun hfeed : c = '\n' => h (hfeed ▸ hc)

theorem notes_of_closing? (h : closing? text = some (source, line, column)) (hfeed : '\n' ∉ text) :
    ∃ front, Notes front text source line column := by
  obtain ⟨front, rest, rfl, hfront⟩ := List.eq_append_cons_of_mem (mem_of_closing? h)
  have hrest : '\n' ∉ rest := fun hmem => hfeed (by simp [hmem])
  rw [closing?_append hfront, takeWhile_ne_eq_self hrest] at h
  split at h
  · rename_i hlast
    obtain ⟨front, rfl⟩ := List.getLast?_eq_some_iff.mp hlast
    obtain ⟨hnumbers, behind, rfl⟩ := eq_append_of_lastNumbers? h
    refine ⟨front, fun hmem => hfront (List.mem_append_left _ hmem), hnumbers, behind, ?_⟩
    simp
  · contradiction

theorem isFrame_of_frame? (h : frame? text = some (source, line, column)) (hfeed : '\n' ∉ text) :
    IsFrame text source line column := by
  by_cases hmark : mark <+: text
  · obtain ⟨body, rfl⟩ := hmark
    rw [frame?_mark_append] at h
    split at h
    · contradiction
    · rename_i hblank
      have hbody : '\n' ∉ body := fun hmem => hfeed (List.mem_append_right mark hmem)
      obtain ⟨name, hname, hnumbers, rest, rfl⟩ := notes_of_closing? h hbody
      refine ⟨name, ?_, ⟨?_, hnumbers, rest, by simp⟩⟩
      · rintro rfl
        exact hblank (List.prefix_append _ _)
      · rw [List.mem_append, not_or]
        exact ⟨by decide, hname⟩
  · rw [frame?_eq_none hmark] at h
    contradiction

theorem frame?_ne_none (h : IsFrameLine text) (hfeed : '\n' ∉ text) : frame? text ≠ none := by
  obtain ⟨source, line, column, name, hname, hclosed, ⟨hline, hcolumn⟩, rest, rfl⟩ := h
  have hopen : '(' ∉ name ++ [' '] := by
    intro hmem
    exact hclosed (List.mem_append_right mark (by simpa using hmem))
  generalize hbehind : source ++ ':' :: line ++ ':' :: column ++ ')' :: rest = behind at hfeed ⊢
  have hwhole : mark ++ name ++ " (".toList ++ behind =
      mark ++ ((name ++ [' ']) ++ '(' :: behind) := by
    simp
  have hblank : ¬ " (".toList <+: (name ++ [' ']) ++ '(' :: behind := by
    rw [blank_prefix_iff hopen]
    simpa using hname
  have hbelow : '\n' ∉ behind := fun hmem => hfeed (List.mem_append_right _ hmem)
  rw [hwhole, frame?_mark_append, if_neg hblank, closing?_append hopen, if_pos List.getLast?_concat,
    takeWhile_ne_eq_self hbelow, ← hbehind]
  exact lastNumbers?_ne_none source hline hcolumn

theorem IsFrame.opens (h : IsFrame text source line column) : mark <+: text ∧ '(' ∈ text := by
  obtain ⟨name, -, -, -, rest, rfl⟩ := h
  exact ⟨by simp [List.append_assoc], by simp⟩

/-- The top position stands in parentheses on one line, and no line above it is a frame. That line
is a frame itself, or it is none and has the mark of a frame without parentheses above it. -/
theorem topPosition?_stands_on_line (stack : Text) :
    (∀ position, topPosition? stack = some position →
      ∃ before text line column, NoFrameAbove stack before text ∧
        Numeral.read? line = some position.line ∧ Numeral.read? column = some position.column ∧
        (IsFrame text position.source line column ∨
          (∃ front, Notes front text position.source line column) ∧ ¬ IsFrameLine text ∧
            EndsBare before)) ∧
      ((∃ text ∈ linesBelow stack, IsFrameLine text) → topFrame? stack ≠ none) := by
  have hfeed : ∀ text ∈ linesBelow stack, '\n' ∉ text :=
    fun text htext => Text.lineFeed_not_mem_of_mem_splitOn stack text (List.mem_of_mem_tail htext)
  rw [topFrame?_eq_search]
  refine ⟨fun position h => ?_, fun ⟨text, htext, hframe⟩ => ?_⟩
  · simp only [topPosition?, Option.bind_eq_bind, Option.bind_eq_some_iff, topFrame?_eq_search] at h
    obtain ⟨⟨source, line, column⟩, hfound, number, hline, other, hcolumn, h⟩ := h
    obtain rfl := Option.some.inj h
    obtain ⟨before, text, after, hlines, hbefore, htext⟩ := search_eq_some hfound
    have hfeedText : '\n' ∉ text := hfeed text (by simp [hlines])
    have hfirst : ∀ other ∈ before, ¬ IsFrameLine other := fun other hother hframe =>
      frame?_ne_none hframe (hfeed other (by simp [hlines, hother])) (hbefore other hother)
    refine ⟨before, text, line, column, ⟨⟨after, hlines⟩, hfirst⟩, hline, hcolumn, ?_⟩
    rcases htext with hframe | ⟨hnotes, hnone, hbare⟩
    · exact Or.inl (isFrame_of_frame? hframe hfeedText)
    · have hends : EndsBare before := hbare.resolve_right fun hbegun => by simp at hbegun
      have hno : ¬ IsFrameLine text := fun hframe => frame?_ne_none hframe hfeedText hnone
      exact Or.inr ⟨notes_of_closing? hnotes hfeedText, hno, hends⟩
  · exact search_ne_none ⟨text, htext, frame?_ne_none hframe (hfeed text htext)⟩

/-- A frame without parentheses does no harm to a frame on the next line that has one. -/
theorem topPosition?_on_frame_below_bare :
    let stack := "Error: late\n    at a.js:1:2\n\n    at f (b.js:3:1)".toList
    let position := ⟨"b.js".toList, 3, 1⟩
    (topPosition? stack = some position ∧
      ∃ before text line column, NoFrameAbove stack before text ∧
        Numeral.read? line = some position.line ∧ Numeral.read? column = some position.column ∧
        (IsFrame text position.source line column ∨
          (∃ front, Notes front text position.source line column) ∧ ¬ IsFrameLine text ∧
            EndsBare before)) ∧
      (∃ text ∈ linesBelow stack, IsFrameLine text) ∧ topFrame? stack ≠ none := by
  intro stack position
  have htop : topPosition? stack = some position := by decide +kernel
  have hmem : "    at f (b.js:3:1)".toList ∈ linesBelow stack := by decide +kernel
  have hframe : IsFrame "    at f (b.js:3:1)".toList "b.js".toList ['3'] ['1'] :=
    ⟨['f'], by decide, ⟨by decide, by decide, [], by decide⟩⟩
  have hexists : ∃ text ∈ linesBelow stack, IsFrameLine text := ⟨_, hmem, _, _, _, hframe⟩
  exact ⟨⟨htop, (topPosition?_stands_on_line stack).1 position htop⟩, hexists,
    (topPosition?_stands_on_line stack).2 hexists⟩

/-- A line that is no frame is taken for one below a frame without parentheses. -/
theorem topPosition?_on_note_below_bare :
    let stack := "Error: late\n    at a.js:1:2\nsee note (b.js:3:1)".toList
    topPosition? stack = some ⟨"b.js".toList, 3, 1⟩ ∧
      ∀ text ∈ linesBelow stack, ¬ IsFrameLine text := by
  intro stack
  have hlines : ∀ text ∈ linesBelow stack, ¬ (mark.isPrefixOf text = true ∧ '(' ∈ text) := by
    decide +kernel
  refine ⟨by decide +kernel, fun text htext ⟨source, line, column, hframe⟩ => ?_⟩
  obtain ⟨hmark, hopen⟩ := hframe.opens
  exact hlines text htext ⟨List.isPrefixOf_iff_prefix.mpr hmark, hopen⟩

end

end MappedTrace.Report
