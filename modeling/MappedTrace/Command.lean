import MappedTrace.Output
import MappedTrace.Report
import MappedTrace.StackTrace

/-!
# Commands

The three things that can be asked for on a command line: to move positions, to move a written
stack trace, and to report it as an uncaught error.
-/

namespace MappedTrace

inductive Failure where
  | badPosition (text : Text) (cause : Position.ParseError)
  | unreadableInput (path : Option Text) (cause : ReadFault)
  | outputFull
  | traceNotWritten
  | reportNotWritten
deriving DecidableEq, Repr

namespace Failure

def context? : Failure → Option Text
  | badPosition text _ => some ("Invalid position '".toList ++ text ++ ['\''])
  | unreadableInput none _ => some "Failed to read stack trace from stdin".toList
  | unreadableInput (some path) _ =>
    some ("Failed to read stack trace from '".toList ++ path ++ ['\''])
  | outputFull => none
  | traceNotWritten => some "Failed to write stack trace".toList
  | reportNotWritten => some "Failed to write report".toList

def cause : Failure → Text
  | badPosition _ cause => cause.message
  | unreadableInput _ cause => cause.message
  | outputFull | traceNotWritten | reportNotWritten => "failed to write whole buffer".toList

def indented (text : Text) : Text :=
  ['\n'].intercalate ((text.splitOn '\n').map ("    ".toList ++ ·))

def message (failure : Failure) : Text :=
  match failure.context? with
  | none => failure.cause
  | some context => context ++ "\n\nCaused by:\n".toList ++ indented failure.cause

end Failure

inductive Command where
  | map (positions : List Text) (json : Bool)
  | trace (path : Option Text)
  | report (path : Option Text)
deriving DecidableEq, Repr

namespace Command

def mapPosition (files : FileSystem) (json : Bool) (text : Text) : Action Failure Unit :=
  match Position.parse text with
  | .error cause => throw (.badPosition text cause)
  | .ok generated => do
    let origin ← Action.lookUp (MapCache.relocate files generated)
    let pieces := if json then [origin.renderJson] else origin.pieces
    Action.writePieces .outputFull (pieces ++ [['\n']])

/-- Moves positions one after the other, up to the first that is none. -/
def mapPositions (files : FileSystem) (json : Bool) (texts : List Text) : Action Failure Unit := do
  Action.forget
  texts.forM (mapPosition files json)

def remapTrace (files : FileSystem) (text : Text) : Action Failure Unit := do
  Action.write .traceNotWritten (← Action.lookUpAfresh (StackTrace.remapping files text))

def reportThrown (files : FileSystem) (error : Option Thrown) : Action Failure Unit := do
  Action.writePieces .outputFull (← Action.lookUpAfresh (Report.composing files error))

/-- Reports a written trace, moved first and without the blanks at its end. -/
def reportTrace (files : FileSystem) (text : Text) : Action Failure Unit := do
  let stack ← Action.lookUpAfresh (StackTrace.remapping files text.trimEnd)
  Action.writePieces .reportNotWritten
    (← Action.lookUpAfresh (Report.composing files (some ⟨stack.firstLine, some stack⟩)))

/-- The text of a file, or what was piped in when no file or a dash is given. -/
def input (files : FileSystem) (piped : List UInt8) (path : Option Text) : Action Failure Text :=
  match path.filter (· ≠ ['-']) with
  | none =>
    match Utf8.decode piped with
    | some text => return text
    | none => throw (.unreadableInput none .invalidText)
  | some path => do
    match ← Action.lookUp (MapCache.read files path) with
    | .ok text => return text
    | .error cause => throw (.unreadableInput (some path) cause)

def readsInput : Command → Bool
  | map _ _ => false
  | trace path | report path => (path.filter (· ≠ ['-'])).isNone

/-- Runs a command. The result is the status to exit with: a report is always a failure. -/
def run (files : FileSystem) (piped : List UInt8) : Command → Action Failure UInt32
  | map positions json => do
    mapPositions files json positions
    return 0
  | trace path => do
    remapTrace files (← input files piped path)
    return 0
  | report path => do
    reportTrace files (← input files piped path)
    return 1

end Command

end MappedTrace
