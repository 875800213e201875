import MappedTrace.Proofs.SourceMap.Closest
import MappedTrace.SourceMap.Basic

/-!
# Maps in sections

An index should answer for a position what the section around it answers for the position as counted
from the start of the section. A lookup compares the line of the token, which is counted from the
start of the section, with the line that was asked for, which is not. So an index answers only from
sections that begin on the first line, and all others count as empty.
-/

namespace MappedTrace.SourceMap

def Place.within (place start : Place) : Place :=
  ⟨place.line - start.line,
    if place.line = start.line then place.column - start.column else place.column⟩

theorem Place.line_within_le {place start : Place} (h : place.isBefore start = false) :
    (place.within start).line.toNat + start.line.toNat = place.line.toNat := by
  have hle := line_le_of_isBefore_eq_false h
  rw [within, UInt32.toNat_sub_of_le _ _ hle]
  have := UInt32.le_iff_toNat_le.mp hle
  omega

theorem sectionLookups_eq_map (sections : List (Place × SourceMap)) :
    sectionLookups sections = sections.map fun entry => (entry.1, token? entry.2) := by
  induction sections with
  | nil => simp [sectionLookups]
  | cons entry rest ih => simp [sectionLookups, ih]

theorem token?_parts (sections : List (Place × SourceMap)) (place : Place) :
    token? (.parts sections) place =
      (Place.closest? Prod.fst place sections).bind fun entry =>
        token? entry.2 (place.within entry.1) := by
  rw [token?, closestSection, sectionLookups_eq_map, Place.closest?_map]
  simp only [Function.comp_def]
  cases Place.closest? Prod.fst place sections with
  | none => rfl
  | some entry => rfl

theorem Token.advanced_place (token : Token) (column : UInt32) :
    (token.advanced column).place = token.place := by
  rw [advanced]
  split <;> rfl

mutual

/-- A token stands on no later line than the one that was asked for, both as counted from the start
of the innermost section. -/
theorem line_le_of_token? (map : SourceMap) {place : Place} {token : Token}
    (h : token? map place = some token) : token.place.line.toNat ≤ place.line.toNat := by
  cases map with
  | whole tokens =>
    rw [token?, Token.closest?] at h
    obtain ⟨found, hfound, rfl⟩ := Option.map_eq_some_iff.mp h
    rw [Token.advanced_place, ← UInt32.le_iff_toNat_le]
    exact Place.line_le_of_isBefore_eq_false (Place.mem_of_closest? hfound).2
  | parts sections =>
    rw [token?_parts] at h
    obtain ⟨entry, hentry, hinner⟩ := Option.bind_eq_some_iff.mp h
    obtain ⟨hmem, hreached⟩ := Place.mem_of_closest? hentry
    have hinnerLine := line_le_of_section sections entry hmem hinner
    have houterLine := Place.line_within_le hreached
    omega

theorem line_le_of_section (sections : List (Place × SourceMap)) (entry : Place × SourceMap)
    (hmem : entry ∈ sections) {place : Place} {token : Token}
    (h : token? entry.2 place = some token) : token.place.line.toNat ≤ place.line.toNat := by
  match sections with
  | [] => cases hmem
  | (start, map) :: rest =>
    rcases List.mem_cons.mp hmem with hfirst | hrest
    · rw [hfirst] at h
      exact line_le_of_token? map h
    · exact line_le_of_section rest entry hrest h

end

/-- A position as counted from the start of a section. -/
def relativeTo (start : Place) (generated : Position) : Position :=
  { generated with
    line := generated.line - start.line
    column :=
      if generated.line - 1 = start.line then generated.column - start.column
      else generated.column }

/-- What an index should answer: what the map of the last section that begins at a position or
before it answers for the position as counted from there. -/
def sectionOrigin? (sections : List (Place × SourceMap)) (generated : Position) :
    Option Position :=
  (Place.lastReached? Prod.fst (askedPlace generated) sections).bind fun entry =>
    origin? entry.2 (relativeTo entry.1 generated)

theorem Origin.unchecked_answer (origin : Origin) :
    origin.answer.unchecked = some ⟨origin.source, origin.line + 1, origin.column⟩ := by
  unfold answer
  dsimp only
  split
  · rfl
  · rfl

theorem Token.unchecked_answer (token : Token) (place : Place) :
    (token.answer place).unchecked =
      if token.place.line = place.line then
        token.origin.map fun origin => ⟨origin.source, origin.line + 1, origin.column⟩
      else none := by
  unfold answer
  split
  · cases token.origin with
    | none => rfl
    | some origin => exact origin.unchecked_answer
  · split
    · rfl
    · rfl

theorem origin?_of_line_eq_zero (map : SourceMap) {generated : Position}
    (hline : generated.line = 0) : origin? map generated = none := by
  rw [origin?, answer, if_pos hline, Answer.unchecked]

theorem origin?_eq_bind (map : SourceMap) {generated : Position} (hline : generated.line ≠ 0) :
    origin? map generated =
      (token? map (askedPlace generated)).bind fun token =>
        if token.place.line = generated.line - 1 then
          token.origin.map fun origin => ⟨origin.source, origin.line + 1, origin.column⟩
        else none := by
  rw [origin?, answer, if_neg hline]
  cases token? map (askedPlace generated) with
  | none => rfl
  | some token => exact token.unchecked_answer (askedPlace generated)

section

variable {start : Place} {generated : Position}

theorem toNat_line_sub_one (hline : generated.line ≠ 0) :
    (generated.line - 1).toNat + 1 = generated.line.toNat := by
  have hpos : generated.line.toNat ≠ 0 := by
    intro hzero
    exact hline (UInt32.toNat_inj.mp hzero)
  have hle : (1 : UInt32) ≤ generated.line :=
    UInt32.le_iff_toNat_le.mpr (Nat.one_le_iff_ne_zero.mpr hpos)
  rw [UInt32.toNat_sub_of_le _ _ hle]
  exact Nat.sub_add_cancel (Nat.one_le_iff_ne_zero.mpr hpos)

theorem toNat_start_line_lt (hline : generated.line ≠ 0)
    (hreached : (askedPlace generated).isBefore start = false) :
    start.line.toNat < generated.line.toNat := by
  have hle := UInt32.le_iff_toNat_le.mp (Place.line_le_of_isBefore_eq_false hreached)
  have hsub := toNat_line_sub_one hline
  dsimp only [askedPlace] at hle
  omega

theorem line_relativeTo_ne_zero (hline : generated.line ≠ 0)
    (hreached : (askedPlace generated).isBefore start = false) :
    (relativeTo start generated).line ≠ 0 := by
  have hlt := toNat_start_line_lt hline hreached
  intro hzero
  have hsame : generated.line = start.line := by
    rw [relativeTo] at hzero
    grind
  rw [hsame] at hlt
  omega

theorem askedPlace_relativeTo (start : Place) (generated : Position) :
    askedPlace (relativeTo start generated) = (askedPlace generated).within start := by
  simp only [askedPlace, relativeTo, Place.within, Place.mk.injEq]
  grind

/-- A section answers through its index as it does on its own if it begins on the first line, and
never otherwise. -/
theorem origin?_eq_of_closest? {sections : List (Place × SourceMap)} {map : SourceMap}
    (hline : generated.line ≠ 0)
    (h : Place.closest? Prod.fst (askedPlace generated) sections = some (start, map)) :
    origin? (.parts sections) generated =
      if start.line = 0 then origin? map (relativeTo start generated) else none := by
  have hreached : (askedPlace generated).isBefore start = false := (Place.mem_of_closest? h).2
  rw [origin?_eq_bind _ hline, token?_parts, h, Option.bind_some]
  by_cases hfirst : start.line = 0
  · rw [if_pos hfirst, origin?_eq_bind map (line_relativeTo_ne_zero hline hreached),
      askedPlace_relativeTo]
    simp [relativeTo, hfirst]
  · rw [if_neg hfirst, Option.bind_eq_none_iff]
    intro token htoken
    apply if_neg
    intro hsame
    have htokenLine := line_le_of_token? map htoken
    have hinner := Place.line_within_le hreached
    have hpositive : start.line.toNat ≠ 0 := by
      intro hzero
      exact hfirst (UInt32.toNat_inj.mp hzero)
    rw [hsame] at htokenLine
    dsimp only [askedPlace] at hinner htokenLine
    omega

end

/-- What an index answers is what it should answer exactly if the section that is reached begins on
the first line, or has no answer of its own. -/
theorem origin?_parts_eq_sectionOrigin?_iff {sections : List (Place × SourceMap)}
    {generated : Position} (hordered : Place.Ordered Prod.fst sections)
    (hsingle : (sections.filter fun entry => entry.1 = askedPlace generated).length ≤ 1)
    (hline : generated.line ≠ 0) :
    origin? (.parts sections) generated = sectionOrigin? sections generated ↔
      ∀ start map, Place.lastReached? Prod.fst (askedPlace generated) sections = some (start, map) →
        start.line = 0 ∨ origin? map (relativeTo start generated) = none := by
  have hclosest := Place.closest?_eq_lastReached? hordered hsingle
  rw [sectionOrigin?]
  cases hlast : Place.lastReached? Prod.fst (askedPlace generated) sections with
  | none =>
    have hnone : origin? (.parts sections) generated = none := by
      rw [origin?_eq_bind _ hline, token?_parts, hclosest, hlast]
      rfl
    simp [hnone]
  | some entry =>
    obtain ⟨start, map⟩ := entry
    rw [origin?_eq_of_closest? hline (hclosest.trans hlast), Option.bind_some]
    by_cases hfirst : start.line = 0
    · simp [hfirst]
    · simp only [if_neg hfirst, Option.some.injEq, Prod.mk.injEq, and_imp]
      constructor
      · rintro hnone start map rfl rfl
        exact .inr hnone.symm
      · intro h
        exact ((h start map rfl rfl).resolve_left hfirst).symm

/-- An index does not answer from its one section, which begins on the second line. -/
theorem sections_fail_below_first_line :
    ¬ ∀ (sections : List (Place × SourceMap)) (generated : Position),
      Place.Ordered Prod.fst sections →
      (sections.filter fun entry => entry.1 = askedPlace generated).length ≤ 1 →
      generated.line ≠ 0 →
      origin? (.parts sections) generated = sectionOrigin? sections generated := by
  intro h
  have hlaw := h [(⟨1, 0⟩, .whole [⟨⟨0, 0⟩, some ⟨"a.ts".toList, 0, 0⟩, false⟩])]
    ⟨"out.js".toList, 2, 0⟩ (List.pairwise_singleton _ _) (by decide) (by decide)
  revert hlaw
  decide

/-- In the second section of a first line, the index answers as that section does. -/
theorem sections_hold_on_first_line :
    let token : Token := ⟨⟨0, 0⟩, some ⟨"b.ts".toList, 4, 1⟩, false⟩
    let sections : List (Place × SourceMap) := [(⟨0, 0⟩, .whole []), (⟨0, 10⟩, .whole [token])]
    let generated : Position := ⟨"out.js".toList, 1, 12⟩
    Place.Ordered Prod.fst sections ∧
      (sections.filter fun entry => entry.1 = askedPlace generated).length ≤ 1 ∧
      generated.line ≠ 0 ∧
      origin? (.parts sections) generated = sectionOrigin? sections generated := by
  intro token sections generated
  have hordered : Place.Ordered Prod.fst sections :=
    List.pairwise_cons.mpr ⟨by decide, List.pairwise_singleton _ _⟩
  refine ⟨hordered, by decide, by decide, ?_⟩
  refine (origin?_parts_eq_sectionOrigin?_iff hordered (by decide) (by decide)).mpr ?_
  intro start map hlast
  have hmem : (start, map) ∈ sections := (List.mem_filter.mp (List.mem_of_getLast? hlast)).1
  rcases List.mem_cons.mp hmem with hfirst | hrest
  · exact .inl (by rw [(Prod.mk.inj hfirst).1])
  · exact .inl (by rw [(Prod.mk.inj (List.mem_singleton.mp hrest)).1])

end MappedTrace.SourceMap
