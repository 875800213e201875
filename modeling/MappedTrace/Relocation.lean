import MappedTrace.CallSite
import MappedTrace.EvalOrigin

/-!
# Moving call sites

A call site that has a file or script and a line is moved to another position. One that only knows
where its code was passed to `eval` has that origin moved. Nothing else about it changes.
-/

namespace MappedTrace

inductive Relocation where
  | position (position : Position)
  | evalOrigin (origin : Text)
deriving DecidableEq, Repr

namespace CallSite

def moved (site : CallSite) : Relocation → CallSite
  | .position position =>
    { site with
      fileName := some position.source
      script := some position.source
      line := some position.line
      column := some position.column }
  | .evalOrigin origin => { site with evalOrigin := some origin }

/-- The position of a call site in generated code. The file name goes before the script. -/
def position? (site : CallSite) : Option Position := do
  let source ← (site.fileName.or site.script).bind Text.filled?
  let line ← site.line
  return ⟨source, line, site.column.getD 0⟩

/-- What is to be put in place of a call site's location, if there is anything to move. -/
def relocation? (files : FileSystem) (site : CallSite) : Lookups (Option Relocation) :=
  match site.position?, site.evalOrigin with
  | some position, _ => return some (.position (← MapCache.relocate files position))
  | none, some origin => return some (.evalOrigin (← EvalOrigin.relocate files origin))
  | none, none => return none

def relocate (files : FileSystem) (site : CallSite) : Lookups CallSite := do
  match ← site.relocation? files with
  | some relocation => return site.moved relocation
  | none => return site

end CallSite

end MappedTrace
