import MappedTrace.Command
import MappedTrace.Proofs.Output.Limit

/-!
# Commands with little room

A command looks up and writes by turns. Where its output does not fit, the beginning of it is there
to the last byte that fits, and the failure to write is what the command ends with, whatever it would
have come to after that.
-/

namespace MappedTrace.Command

open MappedTrace.Action

section

variable (files : FileSystem)

theorem cuttable_mapPosition (json : Bool) (text : Text) :
    Cuttable .outputFull (mapPosition files json text) := by
  unfold mapPosition
  cases Position.parse text with
  | error cause => exact .throw fun h => nomatch h
  | ok generated => exact (Cuttable.lookUp _).bind fun origin => .writePieces _ _

theorem cuttable_mapPositions (json : Bool) (texts : List Text) :
    Cuttable .outputFull (mapPositions files json texts) :=
  Cuttable.forget.bind fun _ => .forM (cuttable_mapPosition files json) texts

theorem cuttable_remapTrace (text : Text) : Cuttable .traceNotWritten (remapTrace files text) :=
  (Cuttable.lookUpAfresh _).bind fun trace => .write _ trace

theorem cuttable_reportThrown (error : Option Thrown) :
    Cuttable .outputFull (reportThrown files error) :=
  (Cuttable.lookUpAfresh _).bind fun pieces => .writePieces _ pieces

theorem cuttable_reportTrace (text : Text) :
    Cuttable .reportNotWritten (reportTrace files text) :=
  (Cuttable.lookUpAfresh _).bind fun _ =>
    (Cuttable.lookUpAfresh _).bind fun pieces => .writePieces _ pieces

end

/-- What becomes of an action when there is room for so many bytes, told by what becomes of it when
there is room for all. -/
structure LeavesPrefix (failure : Failure) (action : Action Failure Unit) (cache : MapCache)
    (limit : Nat) : Prop where
  written : (action { cache, sink := { limit := some limit } }).2.sink.written =
    (action { cache }).2.sink.written.take (min limit (action { cache }).2.sink.written.length)
  fails_iff : (action { cache, sink := { limit := some limit } }).1 = .error failure ↔
    limit < (action { cache }).2.sink.written.length
  ends : (action { cache }).2.sink.written.length ≤ limit →
    (action { cache, sink := { limit := some limit } }).1 = (action { cache }).1

theorem leavesPrefix_of_cuttable {failure : Failure} {action : Action Failure Unit}
    (h : Cuttable failure action) (cache : MapCache) (limit : Nat) :
    LeavesPrefix failure action cache limit := by
  have hcut : CutAt failure limit [] (action { cache })
      (action { cache, sink := { limit := some limit } }) :=
    h { cache } limit rfl (Nat.zero_le limit)
  have htake : (action { cache }).2.sink.written.take limit =
      (action { cache }).2.sink.written.take
        (min limit (action { cache }).2.sink.written.length) := List.take_eq_take_min
  by_cases hfits : (action { cache }).2.sink.written.length ≤ limit
  · refine ⟨?_, ?_, fun _ => ?_⟩
    · rw [← htake, List.take_of_length_le hfits, hcut.fits hfits]
      rfl
    · rw [hcut.fits hfits]
      exact iff_of_false hcut.succeeds (Nat.not_lt.mpr hfits)
    · rw [hcut.fits hfits]
  · obtain ⟨hfails, hwritten⟩ := hcut.overflows (Nat.not_le.mp hfits)
    exact ⟨hwritten.trans htake, iff_of_true hfails (Nat.not_le.mp hfits),
      fun hroom => absurd hroom hfits⟩

/-- Where the output of a command does not fit, the command leaves as much of it as there is room
for and fails to write; where it fits, the limit makes no difference. -/
theorem outputs_leave_prefix (files : FileSystem) (cache : MapCache) (limit : Nat) :
    (∀ error, LeavesPrefix .outputFull (reportThrown files error) cache limit) ∧
      (∀ json texts, LeavesPrefix .outputFull (mapPositions files json texts) cache limit) ∧
      (∀ text, LeavesPrefix .traceNotWritten (remapTrace files text) cache limit) ∧
      ∀ text, LeavesPrefix .reportNotWritten (reportTrace files text) cache limit := by
  refine ⟨fun error => ?_, fun json texts => ?_, fun text => ?_, fun text => ?_⟩
  · exact leavesPrefix_of_cuttable (cuttable_reportThrown files error) cache limit
  · exact leavesPrefix_of_cuttable (cuttable_mapPositions files json texts) cache limit
  · exact leavesPrefix_of_cuttable (cuttable_remapTrace files text) cache limit
  · exact leavesPrefix_of_cuttable (cuttable_reportTrace files text) cache limit

/-- The second text is no position, but it takes room for the first line to come to that. -/
example :
    let files : FileSystem := ⟨fun _ => false, fun _ => .error .notFound⟩
    let texts : List Text := ["a.js:1:2".toList, "b.js".toList]
    (mapPositions files false texts { sink := { limit := some 8 } }).1 = .error .outputFull ∧
      (mapPositions files false texts { sink := { limit := some 9 } }).1 =
        .error (.badPosition "b.js".toList (.malformed "b.js".toList)) := by
  cbv

end MappedTrace.Command
