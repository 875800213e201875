import MappedTrace.Report
import MappedTrace.StackTrace

/-!
# Hooks of a runtime

A runtime asks one hook to write stack traces and hands uncaught errors to another. Setting a hook
replaces the one before. The hooks act in a monad of the runtime's own.
-/

namespace MappedTrace

/-- What a handler does with the process: let it go on, or end it. -/
inductive Aftermath where
  | resumes
  | exits (status : UInt32)
deriving DecidableEq, Repr

structure Hooks (m : Type → Type) where
  formatter : Option (Text → List CallSite → m Text) := none
  handler : Option (Option Thrown → m Aftermath) := none

/-- What installed hooks need of a runtime: to look up maps in its files as they are, with nothing
remembered, and to print. -/
structure Host (m : Type → Type) where
  lookUp : (FileSystem → Lookups Text) → m Text
  print : Text → m Unit

namespace Hooks

variable {m : Type → Type}

def setFormatter (hooks : Hooks m) (formatter : Text → List CallSite → m Text) : Hooks m :=
  { hooks with formatter := some formatter }

def setHandler (hooks : Hooks m) (handler : Option Thrown → m Aftermath) : Hooks m :=
  { hooks with handler := some handler }

variable [Monad m]

def reportAndExit (host : Host m) (error : Option Thrown) : m Aftermath := do
  host.print (← host.lookUp fun files => Report.reporting files error)
  return .exits 1

/-- Sets both hooks: frames are moved to where their code came from, uncaught errors reported. -/
def install (hooks : Hooks m) (host : Host m) : Hooks m :=
  (hooks.setFormatter fun error sites =>
    host.lookUp fun files => StackTrace.preparing files error sites).setHandler
    (reportAndExit host)

def format (hooks : Hooks m) (error : Text) (sites : List CallSite) : m Text :=
  match hooks.formatter with
  | some formatter => formatter error sites
  | none => pure (StackTrace.render error sites)

/-- An error thrown from the given frames, with its stack written at once. -/
def capture (hooks : Hooks m) (message : Text) (sites : List CallSite) : m Thrown := do
  return ⟨message, some (← hooks.format message sites)⟩

def handleUncaught (hooks : Hooks m) (error : Option Thrown) : m (Option Aftermath) :=
  match hooks.handler with
  | some handler => do return some (← handler error)
  | none => pure none

end Hooks

end MappedTrace
