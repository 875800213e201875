import Mathlib.Logic.Function.Iterate
import MappedTrace.Proofs.CallSite.Alike
import MappedTrace.Proofs.MapCache.Transparency

/-!
# Call sites that are moved again and again

A call site that is moved once more is moved from where it was left the time before. One with a
position follows it through the maps, as long as it comes to places that have a name. From a place
without one only the eval origin is moved on, as it is from the start for a call site without a
position. One that has neither is left alone. What was called stays the same throughout.
-/

namespace MappedTrace.CallSite

/-- Moves a call site so many times, each time from where it was left before. -/
def relocateTimes (files : FileSystem) : Nat → CallSite → Lookups CallSite
  | 0, site => return site
  | times + 1, site => do relocateTimes files times (← site.relocate files)

def beforeLocation (site : CallSite) : Text :=
  match site.callee? with
  | none => []
  | some callee => callee ++ " (".toList

def behindLocation (site : CallSite) : Text :=
  match site.callee? with
  | none => []
  | some _ => [')']

theorem render_eq (site : CallSite) :
    site.render = site.beforeLocation ++ site.renderLocation ++ site.behindLocation := by
  rw [render, beforeLocation, behindLocation]
  cases site.callee? <;> simp

section

variable {site other : CallSite}

theorem SameCall.render (h : SameCall site other) :
    site.render = other.beforeLocation ++ site.renderLocation ++ other.behindLocation := by
  rw [render_eq, beforeLocation, behindLocation, h.callee?]
  rfl

/-! ### Moving by a function -/

variable (move : Position → Position) {start : Position} {times : Nat}

theorem sameCall_iterate_movedBy (site : CallSite) (times : Nat) :
    SameCall ((·.movedBy move)^[times] site) site := by
  induction times with
  | zero => exact SameCall.refl site
  | succ times ih =>
    rw [Function.iterate_succ_apply']
    exact (sameCall_movedBy move _).trans ih

theorem placedAt_moved_iff {position : Position} :
    (site.moved (.position position)).PlacedAt start ↔ position.source ≠ [] ∧ start = position := by
  obtain ⟨source, line, column⟩ := position
  obtain ⟨startSource, startLine, startColumn⟩ := start
  constructor
  · rintro ⟨hsource, hfilled, hline, hcolumn⟩
    obtain rfl : source = startSource := by simpa [moved] using hsource
    obtain rfl : line = startLine := by simpa [moved] using hline
    obtain rfl : startColumn = column := hcolumn
    exact ⟨hfilled, rfl⟩
  · rintro ⟨hfilled, h⟩
    rw [h]
    exact ⟨rfl, hfilled, rfl, rfl⟩

/-- A position is followed as long as it comes to places that have a name. -/
theorem iterate_movedBy_of_placedAt (h : site.PlacedAt start) (htimes : 0 < times)
    (hnamed : ∀ i, 0 < i → i < times → (move^[i] start).source ≠ []) :
    (·.movedBy move)^[times] site = site.moved (.position (move^[times] start)) := by
  induction times, htimes using Nat.le_induction with
  | base => exact movedBy_of_position?_eq_some move (position?_eq_some_iff.mpr h)
  | succ times htimes ih =>
    have hplaced : (site.moved (.position (move^[times] start))).PlacedAt (move^[times] start) :=
      placedAt_moved_iff.mpr ⟨hnamed times htimes (Nat.lt_succ_self times), rfl⟩
    rw [Function.iterate_succ_apply', Function.iterate_succ_apply',
      ih fun i hpos hlt => hnamed i hpos (Nat.lt_succ_of_lt hlt),
      movedBy_of_position?_eq_some move (position?_eq_some_iff.mpr hplaced)]
    rfl

theorem iterate_movedBy_of_not_placedAt (h : ∀ position, ¬ site.PlacedAt position) (times : Nat) :
    (·.movedBy move)^[times] site =
      { site with evalOrigin := site.evalOrigin.map (EvalOrigin.movedBy move)^[times] } := by
  induction times with
  | zero => simp
  | succ times ih =>
    have hnone : site.position? = none := position?_eq_none_iff.mpr h
    rw [Function.iterate_succ_apply', ih, Function.iterate_succ', ← Option.map_map]
    exact movedBy_of_position?_eq_none move hnone

theorem iterate_movedBy_of_unnamed {named : Nat} (h : site.PlacedAt start) (hpos : 0 < named)
    (hlt : named < times) (hnamed : ∀ i, 0 < i → i < named → (move^[i] start).source ≠ [])
    (hunnamed : (move^[named] start).source = []) :
    (·.movedBy move)^[times] site =
      { site.moved (.position (move^[named] start)) with
        evalOrigin := site.evalOrigin.map (EvalOrigin.movedBy move)^[times - named] } := by
  have hnone : ∀ position, ¬ (site.moved (.position (move^[named] start))).PlacedAt position :=
    fun position hplaced => (placedAt_moved_iff.mp hplaced).1 hunnamed
  rw [← Nat.sub_add_cancel hlt.le, Function.iterate_add_apply,
    iterate_movedBy_of_placedAt move h hpos hnamed, iterate_movedBy_of_not_placedAt move hnone,
    Nat.add_sub_cancel]
  rfl

end

/-! ### Moving by lookups -/

section

variable {files : FileSystem} {site : CallSite}

theorem yields_relocateTimes (times : Nat) (site : CallSite) :
    MapCache.Yields files (site.relocateTimes files times)
      ((·.movedBy (SourceMap.relocated files))^[times] site) := by
  induction times generalizing site with
  | zero => exact MapCache.Yields.pure site
  | succ times ih => exact (MapCache.yields_relocate_site site).bind (ih _)

theorem relocation?_eq_pure (hplace : ∀ position, ¬ site.PlacedAt position)
    (horigin : site.evalOrigin = none) : site.relocation? files = pure none := by
  rw [relocation?, position?_eq_none_iff.mpr hplace, horigin]

theorem relocateTimes_eq_pure (h : site.relocation? files = pure none) (times : Nat) :
    site.relocateTimes files times = pure site := by
  induction times with
  | zero => rfl
  | succ times ih =>
    have hstays : site.relocate files = pure site := by
      rw [relocate, h]
      rfl
    rw [relocateTimes, hstays, pure_bind, ih]

end

/-- A call site with a position is put where that comes to or, if it comes to a place without a name
before, is put there and has its eval origin moved the times that are left. One without a position
has its eval origin moved every time, and one without either is not replaced at all. What is written
in front of the location never changes. -/
theorem relocateTimes_follows_position (files : FileSystem) (queries others : List MapCache.Query)
    (site : CallSite) {times : Nat} (htimes : 0 < times) :
    let move : Position → Position := fun position =>
      ((MapCache.relocate files position).run (MapCache.after files {} others)).1
    let moveOrigin : Text → Text := fun origin =>
      ((EvalOrigin.relocate files origin).run (MapCache.after files {} others)).1
    let result := ((site.relocateTimes files times).run (MapCache.after files {} queries)).1
    (∀ start, site.PlacedAt start →
      ((∀ i, 0 < i → i < times → (move^[i] start).source ≠ []) →
        result = site.moved (.position (move^[times] start))) ∧
      (∀ named, 0 < named → named < times →
        (∀ i, 0 < i → i < named → (move^[i] start).source ≠ []) →
        (move^[named] start).source = [] →
          result =
            { site.moved (.position (move^[named] start)) with
              evalOrigin := site.evalOrigin.map moveOrigin^[times - named] })) ∧
      ((∀ start, ¬ site.PlacedAt start) →
        (∀ origin, site.evalOrigin = some origin →
          result = site.moved (.evalOrigin (moveOrigin^[times] origin))) ∧
        (site.evalOrigin = none →
          site.relocation? files = pure none ∧ site.relocateTimes files times = pure site)) ∧
      SameCall result site ∧
      result.render = site.beforeLocation ++ result.renderLocation ++ site.behindLocation := by
  intro move moveOrigin result
  have hmove : move = SourceMap.relocated files :=
    funext fun position => (MapCache.yields_relocate position).run_after others
  have hmoveOrigin : moveOrigin = EvalOrigin.movedBy (SourceMap.relocated files) :=
    funext fun origin => (MapCache.yields_relocate_origin origin).run_after others
  have hresult : result = (·.movedBy (SourceMap.relocated files))^[times] site :=
    (yields_relocateTimes times site).run_after queries
  have hcall : SameCall result site := by
    rw [hresult]
    exact sameCall_iterate_movedBy _ site times
  refine ⟨fun start hstart => ⟨fun hnamed => ?_, fun named hpos hlt hnamed hunnamed => ?_⟩,
    fun hplace => ⟨fun origin horigin => ?_, fun horigin => ?_⟩, hcall, hcall.render⟩
  · rw [hmove] at hnamed ⊢
    rw [hresult, iterate_movedBy_of_placedAt _ hstart htimes hnamed]
  · rw [hmove] at hnamed hunnamed ⊢
    rw [hresult, hmoveOrigin, iterate_movedBy_of_unnamed _ hstart hpos hlt hnamed hunnamed]
  · rw [hresult, hmoveOrigin, iterate_movedBy_of_not_placedAt _ hplace, horigin]
    rfl
  · have hnothing : site.relocation? files = pure none := relocation?_eq_pure hplace horigin
    exact ⟨hnothing, relocateTimes_eq_pure hnothing times⟩

/-- A file whose map leads to a file that has a map itself is followed to the end of the two. -/
theorem relocateTimes_through_two_maps :
    let memory : FileSystem.Memory :=
      { files := [("c.js".toList, "//# sourceMappingURL=m".toList),
          ("m".toList, "\x7b\"sources\":[\"b.js\"],\"mappings\":\"AACC\"\x7d".toList),
          ("b.js".toList, "\n//# sourceMappingURL=n".toList),
          ("n".toList, "\x7b\"sources\":[\"a.ts\"],\"mappings\":\";AAEE\"\x7d".toList)] }
    let site : CallSite :=
      { fileName := some "c.js".toList, line := some 1, column := none
        evalOrigin := some "eval at f (c.js:1:1)".toList }
    let start : Position := ⟨"c.js".toList, 1, 0⟩
    let move : Position → Position := fun position =>
      ((MapCache.relocate memory.fileSystem position).run {}).1
    (0 < 2 ∧ site.PlacedAt start ∧ ∀ i, 0 < i → i < 2 → (move^[i] start).source ≠ []) ∧
      ((site.relocateTimes memory.fileSystem 2).run {}).1 =
        site.moved (.position ⟨"a.ts".toList, 3, 2⟩) := by
  intro memory site start move
  have hplaced : site.PlacedAt start := ⟨rfl, by decide, rfl, rfl⟩
  have hnamed : ∀ i, 0 < i → i < 2 → (move^[i] start).source ≠ [] := by
    intro i hpos hlt
    obtain rfl : i = 1 := by omega
    decide +kernel
  have hend : move^[2] start = ⟨"a.ts".toList, 3, 2⟩ := by decide +kernel
  refine ⟨⟨by decide, hplaced, hnamed⟩, ?_⟩
  rw [← hend]
  exact ((relocateTimes_follows_position memory.fileSystem [] [] site
    (by decide : 0 < 2)).1 start hplaced).1 hnamed

/-- Behind a place without a name it is not the eval origin alone that has changed. -/
theorem relocateTimes_behind_unnamed :
    let memory : FileSystem.Memory :=
      { files := [("a.js".toList, "//# sourceMappingURL=m".toList),
          ("m".toList, "\x7b\"sources\":[\"\"],\"mappings\":\"AAAA\"\x7d".toList)] }
    let origin := "eval at f (b.js:1:1)".toList
    let site : CallSite :=
      { fileName := some "a.js".toList, line := some 1, column := some 5
        evalOrigin := some origin }
    let start : Position := ⟨"a.js".toList, 1, 5⟩
    let move : Position → Position := fun position =>
      ((MapCache.relocate memory.fileSystem position).run {}).1
    let moveOrigin : Text → Text := fun origin =>
      ((EvalOrigin.relocate memory.fileSystem origin).run {}).1
    (site.PlacedAt start ∧ ¬ ∀ i, 0 < i → i < 2 → (move^[i] start).source ≠ []) ∧
      ((site.relocateTimes memory.fileSystem 2).run {}).1 ≠
        site.moved (.evalOrigin (moveOrigin^[2] origin)) := by
  intro memory origin site start move moveOrigin
  refine ⟨⟨⟨rfl, by decide, rfl, rfl⟩, fun hnamed => ?_⟩, by decide +kernel⟩
  have hunnamed : (move^[1] start).source = [] := by decide +kernel
  exact hnamed 1 (by decide) (by decide) hunnamed

end MappedTrace.CallSite
