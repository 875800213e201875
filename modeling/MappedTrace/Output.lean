import MappedTrace.MapCache
import MappedTrace.Text.Utf8

/-!
# Output

Text is written to a sink, which may take only so many bytes. What does not fit is cut off, and the
writer learns that it was.
-/

namespace MappedTrace

structure Sink where
  limit : Option Nat := none
  written : List UInt8 := []

namespace Sink

def fitting (sink : Sink) (bytes : List UInt8) : List UInt8 :=
  match sink.limit with
  | none => bytes
  | some limit => bytes.take (limit - sink.written.length)

/-- Whether all bytes were taken, and the sink after it. -/
def write (sink : Sink) (bytes : List UInt8) : Bool × Sink :=
  let taken := sink.fitting bytes
  (taken.length = bytes.length, { sink with written := sink.written ++ taken })

end Sink

/-- What an action works on: the maps it remembers, and the sink it writes to. -/
structure Run where
  cache : MapCache := {}
  sink : Sink := {}

/-- A computation that looks up source maps and writes, and may fail in between. What was written
before a failure stays. -/
abbrev Action (ε : Type) :=
  ExceptT ε (StateM Run)

namespace Action

variable {ε α : Type}

def lookUp (lookups : Lookups α) : Action ε α := fun run =>
  let (result, cache) := lookups.run run.cache
  (.ok result, { run with cache })

@[simp] theorem run_lookUp (lookups : Lookups α) (run : Run) :
    (lookUp lookups : Action ε α) run =
      (.ok (lookups.run run.cache).1, { run with cache := (lookups.run run.cache).2 }) :=
  rfl

def forget : Action ε Unit := fun run =>
  (.ok (), { run with cache := run.cache.cleared })

def lookUpAfresh (lookups : Lookups α) : Action ε α := do
  forget
  lookUp lookups

def write (failure : ε) (text : Text) : Action ε Unit := fun run =>
  let (complete, sink) := run.sink.write (Utf8.encode text)
  (if complete then .ok () else .error failure, { run with sink })

theorem sink_write (failure : ε) (text : Text) (run : Run) :
    (write failure text run).2.sink.written =
      run.sink.written ++ run.sink.fitting (Utf8.encode text) :=
  rfl

/-- Writes pieces one after the other, up to the first that does not fit. -/
def writePieces (failure : ε) (pieces : List Text) : Action ε Unit :=
  pieces.forM (write failure)

end Action

end MappedTrace
