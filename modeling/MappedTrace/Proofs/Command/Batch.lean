import MappedTrace.Command
import MappedTrace.Proofs.MapCache.Transparency
import MappedTrace.Proofs.Output.Limit

/-!
# Batches of positions

Positions are moved one after the other with one cache, and each as if it was the only one. A text
that is no position ends the batch: what was written before it stays, and what comes behind it is
not looked at.
-/

namespace MappedTrace.Command

open MappedTrace.Action

def lineAlone (files : FileSystem) (json : Bool) (generated : Position) : Text :=
  let origin := ((MapCache.relocate files generated).run {}).1
  (if json then origin.renderJson else origin.render) ++ ['\n']

/-- A run that has room for everything, and remembers only what the files hold. -/
structure Ready (files : FileSystem) (run : Run) : Prop where
  faithful : MapCache.Faithful files run.cache
  unlimited : run.sink.limit = none

theorem ready_cleared (files : FileSystem) (cache : MapCache) (written : List UInt8) :
    Ready files { cache := cache.cleared, sink := { written } } :=
  ⟨MapCache.Faithful.cleared cache, rfl⟩

section

variable {files : FileSystem} (json : Bool) {run left : Run} {text : Text} {good : List Text}

theorem mapPosition_of_parse_eq_error {cause : Position.ParseError} (run : Run)
    (hparse : Position.parse text = .error cause) :
    mapPosition files json text run = (.error (.badPosition text cause), run) := by
  rw [mapPosition, hparse]
  rfl

theorem mapPosition_of_parse_eq_ok {generated : Position} (h : Ready files run)
    (hparse : Position.parse text = .ok generated) :
    ∃ left, mapPosition files json text run = (.ok (), left) ∧ Ready files left ∧
      left.sink.written =
        run.sink.written ++ Utf8.encode (lineAlone files json generated) := by
  obtain ⟨cache, limit, written⟩ := run
  obtain rfl : limit = none := h.unlimited
  obtain ⟨hanswer, hfaithful⟩ :=
    (MapCache.yields_relocate generated).fresh cache h.faithful
  let origin := ((MapCache.relocate files generated).run {}).1
  have hline : ((if json then [origin.renderJson] else origin.pieces) ++ [['\n']]).flatten =
      lineAlone files json generated := by
    cases json <;> simp [lineAlone, origin, Position.flatten_pieces]
  refine ⟨⟨((MapCache.relocate files generated).run cache).2, none,
    written ++ Utf8.encode (lineAlone files json generated)⟩, ?_, ⟨hfaithful, rfl⟩, rfl⟩
  rw [mapPosition, hparse]
  dsimp only
  rw [run_bind, run_lookUp, hanswer]
  dsimp only
  rw [writePieces_eq_write, hline]
  simp [write, Sink.write, Sink.fitting]

theorem forM_mapPosition_of_parse {positions : List Position} (h : Ready files run)
    (hparse : good.map Position.parse = positions.map .ok) :
    ∃ left, good.forM (mapPosition files json) run = (.ok (), left) ∧ Ready files left ∧
      left.sink.written = run.sink.written ++
        positions.flatMap fun position => Utf8.encode (lineAlone files json position) := by
  induction good generalizing positions run with
  | nil =>
    obtain rfl : positions = [] := by simpa using hparse.symm
    exact ⟨run, rfl, h, by simp⟩
  | cons text rest ih =>
    cases positions with
    | nil => simp at hparse
    | cons position others =>
      obtain ⟨hfirst, hothers⟩ := List.cons.inj hparse
      obtain ⟨middle, hstep, hmiddle, hline⟩ := mapPosition_of_parse_eq_ok json h hfirst
      obtain ⟨left, hrest, hleft, hlines⟩ := ih hmiddle hothers
      have hcons : (text :: rest).forM (mapPosition files json) =
          (do mapPosition files json text; rest.forM (mapPosition files json)) := List.forM_cons
      refine ⟨left, ?_, hleft, ?_⟩
      · rw [hcons, run_bind, hstep]
        exact hrest
      · rw [hlines, hline, List.flatMap_cons, List.append_assoc]

/-- Nothing comes of the texts behind one that is no position. -/
theorem forM_mapPosition_append {bad : Text} {cause : Position.ParseError} (later : List Text)
    (h : good.forM (mapPosition files json) run = (.ok (), left))
    (hparse : Position.parse bad = .error cause) :
    (good ++ bad :: later).forM (mapPosition files json) run =
      (.error (.badPosition bad cause), left) := by
  have happend : (good ++ bad :: later).forM (mapPosition files json) =
      (do good.forM (mapPosition files json); (bad :: later).forM (mapPosition files json)) :=
    List.forM_append
  have hcons : (bad :: later).forM (mapPosition files json) =
      (do mapPosition files json bad; later.forM (mapPosition files json)) := List.forM_cons
  rw [happend, run_bind, h]
  dsimp only
  rw [hcons, run_bind, mapPosition_of_parse_eq_error json left hparse]

theorem isOk_parse_iff : (Position.parse text).isOk = true ↔
    ∃ position, Position.parse text = .ok position := by
  cases Position.parse text <;> simp [Except.isOk, Except.toBool]

theorem exists_map_parse_eq (h : ∀ text ∈ good, ∃ position, Position.parse text = .ok position) :
    ∃ positions : List Position, good.map Position.parse = positions.map .ok := by
  induction good with
  | nil => exact ⟨[], rfl⟩
  | cons text rest ih =>
    obtain ⟨⟨position, hposition⟩, hrest⟩ := List.forall_mem_cons.mp h
    obtain ⟨positions, hpositions⟩ := ih hrest
    exact ⟨position :: positions, congrArg₂ List.cons hposition hpositions⟩

theorem exists_parse_eq_error_of_dropWhile {texts later : List Text} {bad : Text}
    (h : (texts.dropWhile fun text => (Position.parse text).isOk) = bad :: later) :
    ∃ cause, Position.parse bad = .error cause := by
  have hhead := List.head?_dropWhile_not (fun text => (Position.parse text).isOk) texts
  have hbad : ¬ (Position.parse bad).isOk = true := by simpa [h] using hhead
  cases hparse : Position.parse bad with
  | error cause => exact ⟨cause, rfl⟩
  | ok position => exact absurd (isOk_parse_iff.mpr ⟨position, hparse⟩) hbad

theorem mapPositions_eq (files : FileSystem) (json : Bool) (texts : List Text) (run : Run) :
    mapPositions files json texts run =
      texts.forM (mapPosition files json) { run with cache := run.cache.cleared } :=
  rfl

end

/-- A batch moves the positions that it begins with, each as it would be moved alone, and stops at
the first text that is none. -/
theorem mapPositions_stops_at_first_fault (files : FileSystem) (json : Bool) (texts : List Text)
    (cache : MapCache) (written : List UInt8) :
    let start : Run := { cache, sink := { written } }
    let good := texts.takeWhile fun text => (Position.parse text).isOk
    let ended := mapPositions files json texts start
    (∃ positions : List Position, good.map Position.parse = positions.map .ok ∧
      ended.2.sink.written = written ++
        positions.flatMap fun position => Utf8.encode (lineAlone files json position)) ∧
    ended.2 = (mapPositions files json good start).2 ∧
    (ended.1 = .ok () ↔ ∀ text ∈ texts, ∃ position, Position.parse text = .ok position) ∧
    ∀ failure, ended.1 = .error failure ↔
      ∃ bad later cause, texts = good ++ bad :: later ∧ Position.parse bad = .error cause ∧
        failure = .badPosition bad cause ∧
        failure.context? = some ("Invalid position '".toList ++ bad ++ ['\'']) ∧
        failure.cause = cause.message := by
  intro start good ended
  have hgood : ∀ text ∈ good, ∃ position, Position.parse text = .ok position :=
    fun text hmem => isOk_parse_iff.mp (List.all_eq_true.mp List.all_takeWhile text hmem)
  obtain ⟨positions, hpositions⟩ := exists_map_parse_eq hgood
  obtain ⟨left, hrun, -, hwritten⟩ :=
    forM_mapPosition_of_parse json (ready_cleared files cache written) hpositions
  have hprefix : (mapPositions files json good start).2 = left := by
    rw [mapPositions_eq, hrun]
  have hsplit : good ++ texts.dropWhile (fun text => (Position.parse text).isOk) = texts :=
    List.takeWhile_append_dropWhile
  cases hrest : texts.dropWhile fun text => (Position.parse text).isOk with
  | nil =>
    have hall : good = texts := by rwa [hrest, List.append_nil] at hsplit
    have hended : ended = (.ok (), left) := by
      simp only [ended]
      rw [mapPositions_eq, ← hall, hrun]
    rw [hended]
    refine ⟨⟨positions, hpositions, hwritten⟩, hprefix.symm, iff_of_true rfl (hall ▸ hgood), ?_⟩
    intro failure
    refine iff_of_false (fun h => nomatch h) ?_
    rintro ⟨bad, later, cause, hmore, -⟩
    simp [hall] at hmore
  | cons bad later =>
    obtain ⟨cause, hparse⟩ := exists_parse_eq_error_of_dropWhile hrest
    rw [hrest] at hsplit
    have hended : ended = (.error (.badPosition bad cause), left) := by
      simp only [ended]
      rw [mapPositions_eq, ← hsplit, forM_mapPosition_append json later hrun hparse]
    rw [hended]
    refine ⟨⟨positions, hpositions, hwritten⟩, hprefix.symm, ?_, fun failure => ⟨?_, ?_⟩⟩
    · refine iff_of_false (fun h => nomatch h) fun hall => ?_
      have hmem : bad ∈ texts := by simp [← hsplit]
      obtain ⟨position, hposition⟩ := hall bad hmem
      exact nomatch hparse.symm.trans hposition
    · intro hfailure
      obtain rfl := Except.error.inj hfailure
      exact ⟨bad, later, cause, hsplit.symm, hparse, rfl, rfl, rfl⟩
    · rintro ⟨other, rest, fault, hother, hfault, rfl, -⟩
      obtain ⟨rfl, -⟩ := List.cons.inj (List.append_cancel_left (hsplit.trans hother))
      rw [Except.error.inj (hparse.symm.trans hfault)]

end MappedTrace.Command
