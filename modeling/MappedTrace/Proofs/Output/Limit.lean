import MappedTrace.Output
import MappedTrace.Proofs.Text.Utf8

/-!
# Output with a limit

To a sink it makes no difference whether a text comes at once or in pieces. A run whose sink has a
limit goes, step by step, as it would without one until something does not fit. It then ends with
the failure to write, and the sink has taken just as much as there was room for.
-/

namespace MappedTrace

namespace Sink

variable {limit : Nat} {written bytes : List UInt8}

theorem write_of_le (h : bytes.length ≤ limit - written.length) :
    write ⟨some limit, written⟩ bytes = (true, ⟨some limit, written ++ bytes⟩) := by
  have htaken : bytes.take (limit - written.length) = bytes := List.take_of_length_le h
  simp [write, fitting, htaken]

theorem write_of_lt (h : limit - written.length < bytes.length) :
    write ⟨some limit, written⟩ bytes =
      (false, ⟨some limit, written ++ bytes.take (limit - written.length)⟩) := by
  have hshort : min (limit - written.length) bytes.length ≠ bytes.length := by omega
  simp [write, fitting, hshort]

theorem write_append (sink : Sink) (bytes rest : List UInt8) :
    sink.write (bytes ++ rest) =
      if (sink.write bytes).1 then (sink.write bytes).2.write rest else sink.write bytes := by
  obtain ⟨limit, written⟩ := sink
  cases limit with
  | none => simp [write, fitting]
  | some limit =>
    have hlength : (bytes ++ rest).length = bytes.length + rest.length := List.length_append
    by_cases hfits : bytes.length ≤ limit - written.length
    · have hroom : limit - (written ++ bytes).length = limit - written.length - bytes.length := by
        rw [List.length_append, Nat.sub_sub]
      rw [write_of_le hfits, if_pos rfl]
      dsimp only
      by_cases hrest : rest.length ≤ limit - written.length - bytes.length
      · have hboth : (bytes ++ rest).length ≤ limit - written.length := by omega
        rw [write_of_le hboth, write_of_le (by omega), List.append_assoc]
      · have hboth : limit - written.length < (bytes ++ rest).length := by omega
        rw [write_of_lt hboth, write_of_lt (by omega), hroom, List.take_append,
          List.take_of_length_le hfits, List.append_assoc]
    · have hboth : limit - written.length < (bytes ++ rest).length := by omega
      rw [write_of_lt (Nat.not_le.mp hfits), if_neg Bool.false_ne_true, write_of_lt hboth,
        List.take_append_of_le_length (Nat.le_of_not_le hfits)]

end Sink

def Run.limited (run : Run) (limit : Nat) : Run :=
  { run with sink := { run.sink with limit := some limit } }

namespace Action

variable {ε α β : Type}

theorem run_bind (action : Action ε α) (next : α → Action ε β) (run : Run) :
    (action >>= next) run =
      match action run with
      | (.ok value, left) => next value left
      | (.error failure, left) => (.error failure, left) := by
  have hrun : (action >>= next) run =
      ExceptT.bindCont next (action run).1 (action run).2 := rfl
  rw [hrun]
  cases action run with
  | mk result left => cases result <;> rfl

/-! ### Pieces -/

theorem write_append (failure : ε) (text other : Text) :
    write failure (text ++ other) = (do write failure text; write failure other) := by
  funext run
  rw [run_bind]
  simp only [write, Utf8.encode_append, Sink.write_append]
  cases hcomplete : (run.sink.write (Utf8.encode text)).1 with
  | true => rfl
  | false => simp only [Bool.false_eq_true, if_false, hcomplete]

theorem writePieces_eq_write (failure : ε) (pieces : List Text) :
    writePieces failure pieces = write failure pieces.flatten := by
  induction pieces with
  | nil =>
    funext ⟨cache, limit, written⟩
    cases limit <;> simp [writePieces, write, Sink.write, Sink.fitting, Utf8.encode] <;> rfl
  | cons piece rest ih =>
    have hcons : writePieces failure (piece :: rest) =
        (do write failure piece; writePieces failure rest) := List.forM_cons
    rw [hcons, ih, List.flatten_cons, write_append]

/-! ### Limits -/

/-- How a run under a limit ends, told by how it ends without one: alike, if all fits; otherwise
with the failure to write, when as much has been written as there is room for. -/
structure CutAt (failure : ε) (limit : Nat) (before : List UInt8) (full cut : Except ε α × Run) :
    Prop where
  unlimited : full.2.sink.limit = none
  appends : before <+: full.2.sink.written
  succeeds : full.1 ≠ .error failure
  fits : full.2.sink.written.length ≤ limit → cut = (full.1, full.2.limited limit)
  overflows : limit < full.2.sink.written.length →
    cut.1 = .error failure ∧ cut.2.sink.written = full.2.sink.written.take limit

/-- An action that fails to write where it would write more than there is room for, and only
there. -/
def Cuttable (failure : ε) (action : Action ε α) : Prop :=
  ∀ run limit, run.sink.limit = none → run.sink.written.length ≤ limit →
    CutAt failure limit run.sink.written (action run) (action (run.limited limit))

namespace Cuttable

variable {failure : ε}

/-- An action that does not write goes under a limit as it goes without. -/
theorem of_silent {action : Action ε α} (hsink : ∀ run, (action run).2.sink = run.sink)
    (hlimited : ∀ run limit, action (run.limited limit) =
      ((action run).1, (action run).2.limited limit))
    (hsucceeds : ∀ run, (action run).1 ≠ .error failure) : Cuttable failure action := by
  intro run limit hopen hroom
  rw [← hsink run] at hopen hroom
  refine ⟨hopen, ?_, hsucceeds run, fun _ => hlimited run limit, fun hmore => ?_⟩
  · exact (hsink run).symm ▸ List.prefix_refl run.sink.written
  · exact absurd hroom (Nat.not_le.mpr hmore)

theorem pure (value : α) : Cuttable failure (pure value : Action ε α) :=
  of_silent (fun _ => rfl) (fun _ _ => rfl) fun _ h => nomatch h

theorem throw {other : ε} (h : other ≠ failure) :
    Cuttable failure (throw other : Action ε α) :=
  of_silent (fun _ => rfl) (fun _ _ => rfl) fun _ hsame => h (Except.error.inj hsame)

theorem lookUp (lookups : Lookups α) : Cuttable failure (lookUp lookups : Action ε α) :=
  of_silent (fun _ => rfl) (fun _ _ => rfl) fun _ h => nomatch h

theorem forget : Cuttable failure (forget : Action ε Unit) :=
  of_silent (fun _ => rfl) (fun _ _ => rfl) fun _ h => nomatch h

theorem write (failure : ε) (text : Text) : Cuttable failure (write failure text) := by
  rintro ⟨cache, _, written⟩ limit rfl hroom
  dsimp only at hroom
  have hfull : Action.write failure text ⟨cache, none, written⟩ =
      (.ok (), ⟨cache, none, written ++ Utf8.encode text⟩) := by
    simp [Action.write, Sink.write, Sink.fitting]
  have hlength : (written ++ Utf8.encode text).length =
      written.length + (Utf8.encode text).length := List.length_append
  rw [hfull]
  refine ⟨rfl, List.prefix_append _ _, (fun h => nomatch h), fun hfits => ?_, fun hmore => ?_⟩
  · have hwrite : Sink.write ⟨some limit, written⟩ (Utf8.encode text) = _ :=
      Sink.write_of_le (by dsimp only at hfits; omega)
    simp only [Action.write, Run.limited, hwrite, if_true]
  · have hwrite : Sink.write ⟨some limit, written⟩ (Utf8.encode text) = _ :=
      Sink.write_of_lt (by dsimp only at hmore; omega)
    simp only [Action.write, Run.limited, hwrite, Bool.false_eq_true, if_false, true_and]
    rw [List.take_append, List.take_of_length_le hroom]

theorem bind {action : Action ε α} {next : α → Action ε β} (h : Cuttable failure action)
    (hnext : ∀ value, Cuttable failure (next value)) : Cuttable failure (action >>= next) := by
  intro run limit hopen hroom
  have hcut := h run limit hopen hroom
  rw [run_bind, run_bind]
  generalize action run = full at hcut ⊢
  generalize action (run.limited limit) = cut at hcut ⊢
  obtain ⟨other | value, left⟩ := full
  · refine ⟨hcut.unlimited, hcut.appends, fun hsame => ?_, fun hfits => ?_, fun hmore => ?_⟩
    · exact hcut.succeeds (congrArg Except.error (Except.error.inj hsame))
    · rw [hcut.fits hfits]
    · obtain ⟨hfails, htaken⟩ := hcut.overflows hmore
      obtain ⟨_ | _, short⟩ := cut
      · exact ⟨congrArg Except.error (Except.error.inj hfails), htaken⟩
      · exact nomatch hfails
  · have hlater := hnext value left left.sink.written.length hcut.unlimited (Nat.le_refl _)
    have happends := hcut.appends.trans hlater.appends
    by_cases hfits : left.sink.written.length ≤ limit
    · obtain ⟨hend, -, hsucceeds, hsame, hshort⟩ := hnext value left limit hcut.unlimited hfits
      rw [hcut.fits hfits]
      exact ⟨hend, happends, hsucceeds, hsame, hshort⟩
    · have hmore := Nat.not_le.mp hfits
      obtain ⟨hfails, htaken⟩ := hcut.overflows hmore
      obtain ⟨_ | _, short⟩ := cut
      · refine ⟨hlater.unlimited, happends, hlater.succeeds, fun hfull => ?_, fun _ => ?_⟩
        · exact absurd (Nat.le_trans hlater.appends.length_le hfull) hfits
        · refine ⟨congrArg Except.error (Except.error.inj hfails), htaken.trans ?_⟩
          obtain ⟨rest, hrest⟩ := hlater.appends
          rw [← hrest, List.take_append_of_le_length (Nat.le_of_lt hmore)]
      · exact nomatch hfails

theorem forM {action : β → Action ε Unit} (h : ∀ item, Cuttable failure (action item))
    (items : List β) : Cuttable failure (items.forM action) := by
  induction items with
  | nil => exact pure ()
  | cons item rest ih => exact (h item).bind fun _ => ih

theorem writePieces (failure : ε) (pieces : List Text) :
    Cuttable failure (writePieces failure pieces) :=
  forM (write failure) pieces

theorem lookUpAfresh (lookups : Lookups α) :
    Cuttable failure (lookUpAfresh lookups : Action ε α) :=
  forget.bind fun _ => lookUp lookups

end Cuttable

end Action

end MappedTrace
