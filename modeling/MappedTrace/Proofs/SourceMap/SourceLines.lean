import Mathlib.Algebra.Ring.Int.Defs
import MappedTrace.Proofs.SourceMap.Decoded

/-!
# The source lines that a map names

A segment names its source line by how far it is from the line that the one before it names, so the
lines of a map are running sums of numbers that may be negative and have no bound. A map is accepted
whatever these sums are, and its tokens hold them as words. So whatever a lookup finds stands on one of
these lines.
-/

namespace MappedTrace.SourceMap

namespace Layout

/-- The sums of the first of some numbers, the first two, and so on, added to a number. -/
def sumsFrom (start : Int) : List Int → List Int
  | [] => []
  | step :: rest => (start + step) :: sumsFrom (start + step) rest

theorem sumsFrom_append (start : Int) (steps others : List Int) :
    sumsFrom start (steps ++ others) =
      sumsFrom start steps ++ sumsFrom (start + steps.sum) others := by
  induction steps generalizing start with
  | nil => simp [sumsFrom]
  | cons step rest ih => simp [sumsFrom, ih, Int.add_assoc]

/-- How far from the line before it a segment's source line is. A segment with one number has
none. -/
def lineStep? (segment : Text) : Option Int :=
  match Vlq.numbers segment with
  | .ok (_ :: _ :: step :: _) => some step
  | _ => none

def lineSteps (lines : List Text) : List Int :=
  lines.flatMap fun line => (line.splitOn ',').filterMap lineStep?

theorem lineSteps_cons (line : Text) (rest : List Text) :
    lineSteps (line :: rest) = (line.splitOn ',').filterMap lineStep? ++ lineSteps rest :=
  List.flatMap_cons

/-- The source lines that a layout names, in the order of its segments. They are counted from zero,
but nothing keeps them from falling below it. -/
def sourceLines (layout : Layout) : List Int :=
  sumsFrom 0 (lineSteps ((Utf8.byteChars (Utf8.encode layout.mappings)).splitOn ';'))

def heldLines (tokens : List Token) : List UInt32 :=
  (tokens.filterMap Token.origin).map Origin.line

theorem heldLines_append (tokens others : List Token) :
    heldLines (tokens ++ others) = heldLines tokens ++ heldLines others := by
  rw [heldLines, List.filterMap_append, List.map_append]
  rfl

/-- Tokens that were read from some steps on hold the sums of these as words, and so do the totals
that are left. -/
structure Sums (start : Int) (steps : List Int) (tokens : List Token) (left : Totals) : Prop where
  held : heldLines tokens = (sumsFrom start steps).map UInt32.ofInt
  total : left.sourceLine = UInt32.ofInt (start + steps.sum)

variable {layout : Layout} {line : UInt32} {totals left : Totals} {start : Int}

theorem Sums.nil (h : totals.sourceLine = UInt32.ofInt start) : Sums start [] [] totals :=
  ⟨rfl, by simpa using h⟩

theorem Sums.append {steps others : List Int} {tokens more : List Token} {last : Totals}
    (h : Sums start steps tokens left) (hmore : Sums (start + steps.sum) others more last) :
    Sums start (steps ++ others) (tokens ++ more) last where
  held := by rw [heldLines_append, h.held, hmore.held, sumsFrom_append, List.map_append]
  total := by rw [hmore.total, List.sum_append, Int.add_assoc]

theorem sourceLine_origin {source step column : Int} {name : Option Int} {origin : Option Origin}
    (h : layout.origin totals source step column name = .ok (origin, left)) :
    ∃ place, origin = some place ∧ place.line = totals.sourceLine + UInt32.ofInt step ∧
      left.sourceLine = totals.sourceLine + UInt32.ofInt step := by
  unfold Layout.origin at h
  dsimp only at h
  split at h
  · contradiction
  · split at h
    · contradiction
    · obtain ⟨rfl, rfl⟩ := Prod.mk.inj (Except.ok.inj h)
      exact ⟨_, rfl, rfl, rfl⟩

theorem sums_located {source step column : Int} {name : Option Int} {isRange : Bool}
    {token : Token} (hstart : totals.sourceLine = UInt32.ofInt start)
    (h : (do
      let (origin, left) ← layout.origin totals source step column name
      return ((⟨⟨line, left.column⟩, origin, isRange⟩ : Token), left)) = .ok (token, left)) :
    Sums start [step] [token] left := by
  obtain ⟨⟨origin, after⟩, horigin, h⟩ := bind_eq_ok_iff.mp h
  obtain ⟨rfl, rfl⟩ := Prod.mk.inj (Except.ok.inj h)
  obtain ⟨place, hplace, hheld, htotal⟩ := sourceLine_origin horigin
  rw [hstart, ← UInt32.ofInt_add] at hheld htotal
  exact ⟨by simp [heldLines, sumsFrom, hplace, hheld], by simpa using htotal⟩

theorem sums_token {isRange : Bool} {segment : Text} {token : Token}
    (hstart : totals.sourceLine = UInt32.ofInt start)
    (h : layout.token line isRange totals segment = .ok (token, left)) :
    Sums start (lineStep? segment).toList [token] left := by
  unfold Layout.token at h
  obtain ⟨numbers, hnumbers, h⟩ := bind_eq_ok_iff.mp h
  rw [lineStep?, hnumbers]
  have hmoved : { totals with column := totals.column + UInt32.ofInt (numbers.headD 0) }.sourceLine =
      UInt32.ofInt start := hstart
  match numbers, hmoved, h with
  | [], hmoved, h | [_], hmoved, h =>
    obtain ⟨rfl, rfl⟩ := Prod.mk.inj (Except.ok.inj h)
    exact ⟨rfl, by simpa using hmoved⟩
  | [_, _, step, _], hmoved, h => exact sums_located hmoved h
  | [_, _, step, _, _], hmoved, h => exact sums_located hmoved h
  | [_, _], _, h => contradiction
  | [_, _, _], _, h => contradiction
  | _ :: _ :: _ :: _ :: _ :: _ :: _, _, h => contradiction

theorem sums_lineTokens {flags : List Bool} {segments : List Text} {tokens : List Token}
    (hstart : totals.sourceLine = UInt32.ofInt start)
    (h : layout.lineTokens line flags totals segments = .ok (tokens, left)) :
    Sums start (segments.filterMap lineStep?) tokens left := by
  induction segments generalizing flags totals start tokens with
  | nil =>
    rw [lineTokens] at h
    obtain ⟨rfl, rfl⟩ := Prod.mk.inj (Except.ok.inj h)
    exact .nil hstart
  | cons segment rest ih =>
    rw [lineTokens] at h
    split at h
    · rename_i hempty
      rw [List.isEmpty_iff.mp hempty]
      exact ih hstart h
    · obtain ⟨⟨token, between⟩, htoken, h⟩ := bind_eq_ok_iff.mp h
      obtain ⟨⟨others, last⟩, hothers, h⟩ := bind_eq_ok_iff.mp h
      obtain ⟨rfl, rfl⟩ := Prod.mk.inj (Except.ok.inj h)
      have hfirst := sums_token hstart htoken
      have hboth := hfirst.append (ih hfirst.total hothers)
      cases hstep : lineStep? segment <;> simpa [hstep] using hboth

theorem heldLines_tokensFrom {ranges lines : List Text} {tokens : List Token}
    (hstart : totals.sourceLine = UInt32.ofInt start)
    (h : layout.tokensFrom line totals ranges lines = .ok tokens) :
    heldLines tokens = (sumsFrom start (lineSteps lines)).map UInt32.ofInt := by
  induction lines generalizing line totals start ranges tokens with
  | nil =>
    rw [tokensFrom] at h
    obtain rfl := Except.ok.inj h
    rfl
  | cons text rest ih =>
    rw [tokensFrom] at h
    split at h
    · rename_i hempty
      rw [List.isEmpty_iff.mp hempty]
      exact ih hstart h
    · obtain ⟨flags, -, h⟩ := bind_eq_ok_iff.mp h
      obtain ⟨⟨first, between⟩, hfirst, h⟩ := bind_eq_ok_iff.mp h
      obtain ⟨others, hothers, h⟩ := bind_eq_ok_iff.mp h
      obtain rfl := Except.ok.inj h
      have hcleared : { totals with column := 0 }.sourceLine = UInt32.ofInt start := hstart
      have hsums := sums_lineTokens hcleared hfirst
      rw [heldLines_append, hsums.held, ih hsums.total hothers, lineSteps_cons, sumsFrom_append,
        List.map_append]

/-- The tokens of a layout hold the source lines that it names, and no others. -/
theorem heldLines_perm {tokens : List Token} (h : layout.tokens = .ok tokens) :
    (heldLines tokens).Perm (layout.sourceLines.map UInt32.ofInt) := by
  obtain ⟨written, hwritten, rfl⟩ := tokens_eq_ok_iff.mp h
  have hstart : Totals.zero.sourceLine = UInt32.ofInt 0 := rfl
  have hheld := heldLines_tokensFrom hstart hwritten
  rw [sourceLines, ← hheld, Place.sort_eq_insertionSort]
  exact ((List.perm_insertionSort (Place.NoLater Token.place) written).filterMap _).map _

theorem exists_sourceLine {tokens : List Token} (h : layout.tokens = .ok tokens) {token : Token}
    (hmem : token ∈ tokens) {origin : Origin} (horigin : token.origin = some origin) :
    ∃ total ∈ layout.sourceLines, origin.line = UInt32.ofInt total := by
  have hheld : origin.line ∈ heldLines tokens :=
    List.mem_map_of_mem (List.mem_filterMap.mpr ⟨token, hmem, horigin⟩)
  obtain ⟨total, htotal, heq⟩ := List.mem_map.mp ((heldLines_perm h).mem_iff.mp hheld)
  exact ⟨total, htotal, heq.symm⟩

end Layout

def Document.sourceLines (document : Document) : List Int :=
  document.contents.flatMap Layout.sourceLines

theorem Token.exists_origin_of_advanced {token : Token} {column : UInt32} {origin : Origin}
    (h : (token.advanced column).origin = some origin) :
    ∃ before, token.origin = some before ∧ before.line = origin.line := by
  unfold advanced at h
  split at h
  · obtain ⟨before, hbefore, rfl⟩ := Option.map_eq_some_iff.mp h
    exact ⟨before, hbefore, rfl⟩
  · exact ⟨origin, h, rfl⟩

/-- The origins of a decoded map stand on source lines that its document names. -/
theorem exists_sourceLine_of_token? {document : Document} {map : SourceMap}
    (hdecode : document.decode = .ok map) {place : Place} {token : Token}
    (htoken : token? map place = some token) {origin : Origin}
    (horigin : token.origin = some origin) :
    ∃ total ∈ document.sourceLines, origin.line = UInt32.ofInt total := by
  obtain ⟨tokens, htokens, found, hfound, column, rfl⟩ := exists_token map htoken
  obtain ⟨layout, hlayout, hmade⟩ := document.exists_layout hdecode htokens
  obtain ⟨before, hbefore, hsame⟩ := Token.exists_origin_of_advanced horigin
  obtain ⟨total, htotal, hheld⟩ := Layout.exists_sourceLine hmade hfound hbefore
  exact ⟨total, List.mem_flatMap.mpr ⟨layout, hlayout, htotal⟩, hsame.symm.trans hheld⟩

end MappedTrace.SourceMap
