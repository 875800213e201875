import MappedTrace.Directive
import MappedTrace.Proofs.Text.Cut
import MappedTrace.Proofs.Text.Lines

/-!
# Where directives are found

A directive begins with a marker and ends with its line, where the search goes on. A marker may hold
line breaks, but it cannot reach from complete lines into a text that begins with a slash. So such a
text is searched as if it stood alone, and what its first directive names is found.
-/

namespace MappedTrace.Directive

variable {text front mark after rest url : Text}

/-- What opens a directive: a sign behind two slashes, and a name that blanks may stand before. -/
def IsMarker (mark : Text) : Prop :=
  ∃ sign blanks, (sign = '@' ∨ sign = '#') ∧ (∀ c ∈ blanks, Text.isBlank c = true) ∧
    mark = '/' :: '/' :: sign :: (blanks ++ "sourceMappingURL=".toList)

theorem afterMarker?_eq_some_iff :
    afterMarker? text = some after ↔ ∃ mark, IsMarker mark ∧ text = mark ++ after := by
  constructor
  · intro h
    unfold afterMarker? at h
    split at h
    · rename_i sign rest
      split at h
      · rename_i hsign
        simp only [Bool.or_eq_true, decide_eq_true_eq] at hsign
        have hname := List.isPrefixOf?_eq_some_iff_append_eq.mp h
        refine ⟨_, ⟨sign, rest.takeWhile Text.isBlank, hsign, ?_, rfl⟩, ?_⟩
        · exact List.all_eq_true.mp List.all_takeWhile
        · rw [List.cons_append, List.cons_append, List.cons_append, List.append_assoc, hname,
            Text.trimStart, List.takeWhile_append_dropWhile]
      · contradiction
    · contradiction
  · rintro ⟨mark, ⟨sign, blanks, hsign, hblanks, rfl⟩, rfl⟩
    have hname : Text.trimStart ((blanks ++ "sourceMappingURL=".toList) ++ after) =
        "sourceMappingURL=".toList ++ after := by
      rw [List.append_assoc, Text.trimStart, List.dropWhile_append_of_pos hblanks]
      rfl
    have hgiven : (decide (sign = '@') || decide (sign = '#')) = true := by simpa using hsign
    rw [List.cons_append, List.cons_append, List.cons_append, afterMarker?, if_pos hgiven, hname]
    exact List.isPrefixOf?_eq_some_iff_append_eq.mpr rfl

theorem IsMarker.afterMarker?_append (h : IsMarker mark) (after : Text) :
    afterMarker? (mark ++ after) = some after :=
  afterMarker?_eq_some_iff.mpr ⟨mark, h, rfl⟩

theorem IsMarker.getLast? (h : IsMarker mark) : mark.getLast? = some '=' := by
  obtain ⟨sign, blanks, -, -, rfl⟩ := h
  have hname : "sourceMappingURL=".toList.getLast? = some '=' := rfl
  rw [← List.cons_append, ← List.cons_append, ← List.cons_append, List.getLast?_append, hname,
    Option.some_or]

theorem IsMarker.exists_slashes (h : IsMarker mark) :
    ∃ others, mark = '/' :: '/' :: others ∧ '/' ∉ others := by
  obtain ⟨sign, blanks, hsign, hblanks, rfl⟩ := h
  refine ⟨_, rfl, ?_⟩
  have hblank : '/' ∉ blanks := by
    intro hmem
    exact absurd (hblanks '/' hmem) (by decide)
  rcases hsign with rfl | rfl <;> simp [hblank]

/-! ### The search -/

theorem urlsFrom_eq_drop (skip : Nat) (text : Text) :
    urlsFrom skip text = urlsFrom 0 (text.drop skip) := by
  induction text generalizing skip with
  | nil => simp [urlsFrom]
  | cons c rest ih =>
    cases skip with
    | zero => rfl
    | succ skip => rw [urlsFrom, ih, List.drop_succ_cons]

theorem urlsFrom_cons {c : Char} (h : afterMarker? (c :: rest) = none) :
    urlsFrom 0 (c :: rest) = urlsFrom 0 rest := by
  rw [urlsFrom, h]

theorem IsMarker.urlsFrom_append (h : IsMarker mark) (hurl : '\n' ∉ url)
    (hrest : rest = [] ∨ rest.head? = some '\n') :
    urlsFrom 0 (mark ++ (url ++ rest)) = url :: urlsFrom 0 rest := by
  have hbefore : ∀ c ∈ url, decide (c ≠ '\n') = true := by
    intro c hc
    exact decide_eq_true (ne_of_mem_of_not_mem hc hurl)
  have hline : line (url ++ rest) = url := by
    rw [line, List.takeWhile_append_of_pos hbefore]
    cases rest with
    | nil => exact List.append_nil url
    | cons c rest =>
      obtain rfl : c = '\n' := by simpa using hrest
      exact List.append_nil url
  have hafter := h.afterMarker?_append (url ++ rest)
  obtain ⟨others, rfl, -⟩ := h.exists_slashes
  simp only [List.cons_append] at hafter ⊢
  rw [urlsFrom, hafter]
  have hpassed : ('/' :: (others ++ (url ++ rest))).length - ((url ++ rest).length - url.length) =
      ('/' :: (others ++ url)).length := by
    simp only [List.length_append, List.length_cons]
    omega
  have hwhole : '/' :: (others ++ (url ++ rest)) = '/' :: (others ++ url) ++ rest := by
    rw [List.cons_append, List.append_assoc]
  dsimp only
  rw [hline, hpassed, urlsFrom_eq_drop, hwhole, List.drop_left]

theorem IsMarker.ne_append_slash (h : IsMarker mark) (hfront : front.getLast? = some '\n')
    (rest : Text) : mark ≠ front ++ '/' :: rest := by
  obtain ⟨others, rfl, hslash⟩ := h.exists_slashes
  intro heq
  cases front with
  | nil => contradiction
  | cons c front =>
    cases front with
    | nil =>
      obtain rfl : c = '\n' := Option.some.inj hfront
      exact absurd (List.cons.inj heq).1 (by decide)
    | cons d front =>
      have hothers : others = front ++ '/' :: rest := (List.cons.inj (List.cons.inj heq).2).2
      exact hslash (hothers ▸ List.mem_append_right front List.mem_cons_self)

theorem afterMarker?_append (hfront : front.getLast? = some '\n')
    (hrest : rest.head? = some '/') :
    afterMarker? (front ++ rest) = (afterMarker? front).map (· ++ rest) := by
  apply Option.ext
  intro found
  rw [Option.map_eq_some_iff]
  constructor
  · intro h
    obtain ⟨mark, hmark, htext⟩ := afterMarker?_eq_some_iff.mp h
    rcases List.append_eq_append_iff.mp htext with
      ⟨between, hcrossing, hfound⟩ | ⟨between, hinside, hfound⟩
    · exfalso
      cases between with
      | nil =>
        have hlast := hmark.getLast?
        rw [hcrossing, List.append_nil, hfront] at hlast
        contradiction
      | cons c between =>
        obtain rfl : c = '/' := by simpa [hfound] using hrest
        exact hmark.ne_append_slash hfront between hcrossing
    · exact ⟨between, afterMarker?_eq_some_iff.mpr ⟨mark, hmark, hinside⟩, hfound.symm⟩
  · rintro ⟨between, h, rfl⟩
    obtain ⟨mark, hmark, rfl⟩ := afterMarker?_eq_some_iff.mp h
    rw [List.append_assoc]
    exact hmark.afterMarker?_append _

/-- A text that begins with a slash is searched as if no lines stood before it. -/
theorem urlsFrom_append {front : Text} (hfront : front.CompleteLines)
    (hrest : rest.head? = some '/') :
    urlsFrom 0 (front ++ rest) = urlsFrom 0 front ++ urlsFrom 0 rest := by
  cases front with
  | nil => rfl
  | cons c others =>
    have hlast : (c :: others).getLast? = some '\n' := hfront.resolve_left (List.cons_ne_nil _ _)
    have happend := afterMarker?_append hlast hrest
    cases hmarker : afterMarker? (c :: others) with
    | none =>
      rw [hmarker, Option.map_none, List.cons_append] at happend
      rw [List.cons_append, urlsFrom_cons happend, urlsFrom_cons hmarker]
      exact urlsFrom_append (hfront.of_suffix (List.suffix_cons c others)) hrest
    | some after =>
      obtain ⟨mark, hmark, htext⟩ := afterMarker?_eq_some_iff.mp hmarker
      have hfeed : '\n' ∈ after := by
        rcases hfront.of_suffix (htext ▸ List.suffix_append mark after) with rfl | hfeed
        · rw [htext, List.append_nil, hmark.getLast?] at hlast
          contradiction
        · exact List.mem_of_getLast? hfeed
      obtain ⟨url, behind, hafter, hurl⟩ := List.eq_append_cons_of_mem hfeed
      have hshorter : ('\n' :: behind).length < (c :: others).length := by
        obtain ⟨slashes, rfl, -⟩ := hmark.exists_slashes
        rw [htext, hafter]
        simp only [List.length_append, List.length_cons]
        omega
      rw [htext, hafter] at hfront ⊢
      have hbehind : Text.CompleteLines ('\n' :: behind) :=
        hfront.of_suffix ⟨mark ++ url, by simp⟩
      rw [List.append_assoc, List.append_assoc, hmark.urlsFrom_append hurl (.inr rfl),
        hmark.urlsFrom_append hurl (.inr rfl), urlsFrom_append hbehind hrest, List.cons_append]
termination_by front.length

/-- What the last directive names is found, if its line begins with it. -/
theorem url?_append (hmark : IsMarker mark) (hfront : front.CompleteLines) (hurl : '\n' ∉ url)
    (hrest : rest = [] ∨ rest.head? = some '\n') (hlast : urlsFrom 0 rest = []) :
    url? (front ++ (mark ++ (url ++ rest))) = Text.filled? (Text.trim url) := by
  have hfound : urlsFrom 0 (mark ++ (url ++ rest)) = [url] := by
    rw [hmark.urlsFrom_append hurl hrest, hlast]
  obtain ⟨others, hslashes, -⟩ := hmark.exists_slashes
  have hslash : (mark ++ (url ++ rest)).head? = some '/' := by rw [hslashes]; rfl
  rw [url?, urlsFrom_append hfront hslash, hfound, List.getLast?_concat]
  rfl

end MappedTrace.Directive
