import MappedTrace.Proofs.Directive.Search

/-!
# The last directive

The search finds nothing exactly in a text without markers. So of all directives in a text, the last
one that begins a line and has no marker behind it decides alone: it names what stands behind its
marker, without the blanks around it, or nothing at all.
-/

namespace MappedTrace.Directive

variable {text front mark url rest : Text}

def Unmarked (text : Text) : Prop :=
  ∀ mark, IsMarker mark → ¬ mark <:+: text

theorem Unmarked.of_suffix (h : Unmarked text) (hsuffix : rest <:+ text) : Unmarked rest := by
  intro mark hmark hinside
  exact h mark hmark (hinside.trans hsuffix.isInfix)

theorem unmarked_nil : Unmarked [] := by
  intro mark hmark hinside
  obtain ⟨others, rfl, -⟩ := hmark.exists_slashes
  simp at hinside

theorem unmarked_cons_iff {c : Char} :
    Unmarked (c :: rest) ↔ afterMarker? (c :: rest) = none ∧ Unmarked rest := by
  constructor
  · intro h
    refine ⟨?_, h.of_suffix (List.suffix_cons c rest)⟩
    rw [Option.eq_none_iff_forall_ne_some]
    intro after hafter
    obtain ⟨mark, hmark, htext⟩ := afterMarker?_eq_some_iff.mp hafter
    exact h mark hmark (htext ▸ (List.prefix_append mark after).isInfix)
  · rintro ⟨hhere, hrest⟩ mark hmark hinside
    rcases List.infix_cons_iff.mp hinside with ⟨after, htext⟩ | hlater
    · have hafter := hmark.afterMarker?_append after
      rw [htext, hhere] at hafter
      contradiction
    · exact hrest mark hmark hlater

theorem urlsFrom_eq_nil_iff : urlsFrom 0 text = [] ↔ Unmarked text := by
  induction text with
  | nil => exact iff_of_true rfl unmarked_nil
  | cons c rest ih =>
    rw [unmarked_cons_iff, ← ih]
    cases hmarker : afterMarker? (c :: rest) with
    | none => simp [urlsFrom_cons hmarker]
    | some after => simp [urlsFrom, hmarker]

instance (text : Text) : Decidable (Unmarked text) :=
  decidable_of_iff _ urlsFrom_eq_nil_iff

/-- A directive that begins a line, in whatever text, decides if no marker stands behind its own
line. Even one that names nothing does, so that an earlier one is never used instead. A text without
markers names nothing either. -/
theorem last_directive_decides :
    (∀ front mark url rest : Text, front.CompleteLines → IsMarker mark → '\n' ∉ url →
      rest = [] ∨ rest.head? = some '\n' → Unmarked rest →
        (Text.trim url ≠ [] →
          url? (front ++ mark ++ url ++ rest) = some (Text.trim url)) ∧
        (Text.trim url = [] → url? (front ++ mark ++ url ++ rest) = none)) ∧
    ∀ contents, Unmarked contents → url? contents = none := by
  constructor
  · intro front mark url rest hfront hmark hurl hrest hlast
    have hfound := url?_append hmark hfront hurl hrest (urlsFrom_eq_nil_iff.mpr hlast)
    rw [List.append_assoc, List.append_assoc, hfound, Text.filled?]
    constructor
    · intro hfilled
      rw [if_neg (by simpa using hfilled)]
    · intro hempty
      rw [if_pos (by simpa using hempty)]
  · intro contents hnone
    rw [url?, urlsFrom_eq_nil_iff.mpr hnone]
    rfl

/-- The marker goes on over a line end, what it names holds another marker and a carriage return, and
a word like the marker's follows. -/
theorem last_directive_among_others :
    let front : Text := "//# sourceMappingURL=a.map\nx();\n//#\n".toList
    let mark : Text := "//@ \r\n\tsourceMappingURL=".toList
    let url : Text := " b.map //# sourceMappingURL=c.map\r".toList
    let rest : Text := "\nsourceMappingURL=d.map\n".toList
    (front.CompleteLines ∧ IsMarker mark ∧ '\n' ∉ url ∧
      (rest = [] ∨ rest.head? = some '\n') ∧ Unmarked rest ∧ Text.trim url ≠ []) ∧
    url? (front ++ mark ++ url ++ rest) = some "b.map //# sourceMappingURL=c.map".toList ∧
    url? (front ++ mark ++ "\u00a0".toList ++ rest) = none ∧ url? rest = none := by
  intro front mark url rest
  have hfront : front.CompleteLines := by decide
  have hmark : IsMarker mark := ⟨'@', " \r\n\t".toList, .inl rfl, by simp; decide, rfl⟩
  have hrest : rest = [] ∨ rest.head? = some '\n' := .inr rfl
  have hlast : Unmarked rest := by decide
  have hurl : '\n' ∉ url := by decide
  have hfilled : Text.trim url ≠ [] := by decide
  have hnamed := last_directive_decides.1 front mark url rest hfront hmark hurl hrest hlast
  have hunnamed := last_directive_decides.1 front mark "\u00a0".toList rest hfront hmark
    (by decide) hrest hlast
  refine ⟨⟨hfront, hmark, hurl, hrest, hlast, hfilled⟩, ?_, ?_, ?_⟩
  · exact (hnamed.1 hfilled).trans (by decide)
  · exact hunnamed.2 (by decide)
  · exact last_directive_decides.2 rest hlast

end MappedTrace.Directive
