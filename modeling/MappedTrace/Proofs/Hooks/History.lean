import MappedTrace.Hooks

/-!
# Hooks over a history of use

Hooks are set again and again, and used in between. Of all that was set only the last formatter and
the last handler count. Each stack is written by one call of that formatter and each uncaught error
handed over in one call of that handler, and no use of the hooks changes what is set.
-/

namespace MappedTrace.Hooks

variable {m : Type → Type}

/-- What is done to hooks, or with them. -/
inductive Event (m : Type → Type) where
  | setFormatter (formatter : Text → List CallSite → m Text)
  | setHandler (handler : Option Thrown → m Aftermath)
  | install (host : Host m)
  | format (error : Text) (sites : List CallSite)
  | capture (message : Text) (sites : List CallSite)
  | handle (error : Option Thrown)

/-- What an event comes to. Handing over an error returns whether there was a handler for it, unless
that handler ends the process. -/
inductive Outcome where
  | set
  | formatted (trace : Text)
  | captured (error : Thrown)
  | returned (handled : Bool)
  | exited (status : UInt32)
deriving DecidableEq, Repr

namespace Outcome

def ofAftermath : Option Aftermath → Outcome
  | none => returned false
  | some .resumes => returned true
  | some (.exits status) => exited status

def endsProcess : Outcome → Bool
  | exited _ => true
  | _ => false

end Outcome

def setLast? {α : Type} (hook? : Event m → Option α) (past : List (Event m)) : Option α :=
  (past.filterMap hook?).getLast?

theorem setLast?_concat {α : Type} (hook? : Event m → Option α) (past : List (Event m))
    (event : Event m) :
    setLast? hook? (past ++ [event]) = (hook? event).or (setLast? hook? past) := by
  rw [setLast?, setLast?, List.filterMap_append, List.getLast?_append]
  cases h : hook? event with
  | none => rw [List.filterMap_cons_none h]; rfl
  | some hook => rw [List.filterMap_cons_some h]; rfl

section

variable [Monad m]

def after (hooks : Hooks m) : Event m → Hooks m
  | .setFormatter formatter => hooks.setFormatter formatter
  | .setHandler handler => hooks.setHandler handler
  | .install host => hooks.install host
  | .format .. | .capture .. | .handle .. => hooks

def act (hooks : Hooks m) : Event m → m Outcome
  | .setFormatter _ | .setHandler _ | .install _ => pure .set
  | .format error sites => .formatted <$> hooks.format error sites
  | .capture message sites => .captured <$> hooks.capture message sites
  | .handle error => .ofAftermath <$> hooks.handleUncaught error

/-- The outcomes of events, one after the other, and the hooks that are left. Nothing comes after
the end of the process. -/
def run (hooks : Hooks m) : List (Event m) → m (List Outcome × Hooks m)
  | [] => return ([], hooks)
  | event :: rest => do
    let outcome ← hooks.act event
    if outcome.endsProcess then return ([outcome], hooks.after event)
    else
      let (outcomes, last) ← (hooks.after event).run rest
      return (outcome :: outcomes, last)

/-! ### What the history tells -/

namespace Event

def formatter? : Event m → Option (Text → List CallSite → m Text)
  | setFormatter formatter => some formatter
  | install host => some fun error sites =>
      host.lookUp fun files => StackTrace.preparing files error sites
  | _ => none

def handler? : Event m → Option (Option Thrown → m Aftermath)
  | setHandler handler => some handler
  | install host => some (reportAndExit host)
  | _ => none

end Event

def lastSet (past : List (Event m)) : Hooks m :=
  ⟨setLast? Event.formatter? past, setLast? Event.handler? past⟩

def stackAfter (past : List (Event m)) (error : Text) (sites : List CallSite) : m Text :=
  match setLast? Event.formatter? past with
  | some formatter => formatter error sites
  | none => pure (StackTrace.render error sites)

/-- What an event comes to after a history. A formatter or handler is called once, or not at all. -/
def outcomeAfter (past : List (Event m)) : Event m → m Outcome
  | .setFormatter _ | .setHandler _ | .install _ => pure .set
  | .format error sites => .formatted <$> stackAfter past error sites
  | .capture message sites =>
    (fun stack => .captured ⟨message, some stack⟩) <$> stackAfter past message sites
  | .handle error =>
    match setLast? Event.handler? past with
    | some handler => (fun aftermath => .ofAftermath (some aftermath)) <$> handler error
    | none => pure (.returned false)

/-- The outcomes of events after a history, each told by what was set before it. -/
def outcomesAfter (past : List (Event m)) : List (Event m) → m (List Outcome)
  | [] => return []
  | event :: rest => do
    let outcome ← outcomeAfter past event
    if outcome.endsProcess then return [outcome]
    else return outcome :: (← outcomesAfter (past ++ [event]) rest)

theorem after_eq (hooks : Hooks m) (event : Event m) :
    hooks.after event =
      ⟨event.formatter?.or hooks.formatter, event.handler?.or hooks.handler⟩ := by
  cases event <;> rfl

theorem after_lastSet (past : List (Event m)) (event : Event m) :
    (lastSet past).after event = lastSet (past ++ [event]) := by
  rw [after_eq, lastSet, lastSet, setLast?_concat, setLast?_concat]

theorem format_lastSet (past : List (Event m)) (error : Text) (sites : List CallSite) :
    (lastSet past).format error sites = stackAfter past error sites :=
  rfl

variable [LawfulMonad m]

theorem act_lastSet (past : List (Event m)) (event : Event m) :
    (lastSet past).act event = outcomeAfter past event := by
  cases event with
  | setFormatter formatter => rfl
  | setHandler handler => rfl
  | install host => rfl
  | format error sites => rfl
  | capture message sites =>
    rw [act, outcomeAfter, capture, format_lastSet, bind_pure_comp, Functor.map_map]
  | handle error =>
    rw [act, outcomeAfter, handleUncaught, lastSet]
    cases setLast? Event.handler? past with
    | none => exact map_pure Outcome.ofAftermath none
    | some handler =>
      show Outcome.ofAftermath <$> (do return some (← handler error)) = _
      rw [bind_pure_comp, Functor.map_map]

/-- Hooks that hold what was set last in a history act by it, and go on doing so. -/
theorem run_lastSet (past events : List (Event m)) :
    (lastSet past).run events =
      (fun outcomes => (outcomes, lastSet (past ++ events.take outcomes.length))) <$>
        outcomesAfter past events := by
  induction events generalizing past with
  | nil => simp [run, outcomesAfter]
  | cons event rest ih =>
    rw [run, outcomesAfter, act_lastSet, after_lastSet, ih, map_bind]
    refine bind_congr fun outcome => ?_
    split
    · simp
    · simp [Functor.map_map]

/-- From the start on, whatever the events are, each stack comes from one call of the formatter set
last before it, and each error is handed over in one call of the handler set last before it. With no
formatter the stack is the plain one, and with no handler nothing is called. The hooks act in any
monad, so also in one that counts how often they are called. What is left set is what the events set
last, as far as they took place, and an event that sets no hook of a kind leaves the one there is. -/
theorem run_by_hooks_set_last (events : List (Event m)) :
    run {} events =
      (fun outcomes => (outcomes, lastSet (events.take outcomes.length))) <$>
        outcomesAfter [] events ∧
    ∀ (hooks : Hooks m) (event : Event m),
      hooks.after event =
        ⟨event.formatter?.or hooks.formatter, event.handler?.or hooks.handler⟩ :=
  ⟨run_lastSet [] events, after_eq⟩

end

/-- The calls of handlers and what is printed are written down. Hooks are replaced one at a time and
both at once, and the handler that is installed in the end ends the process. -/
theorem run_replaced_hooks :
    let memory : FileSystem.Memory :=
      { files := [("b.js".toList, "a();f();\n//# sourceMappingURL=m".toList),
          ("m".toList, "\x7b\"sources\":[\"a.ts\"],\"mappings\":\"IAAC\"\x7d".toList)] }
    let handler (name : Text) : Option Thrown → StateM (List (Text × Option Thrown)) Aftermath :=
      fun error => do
        modify (· ++ [(name, error)])
        return .resumes
    let host : Host (StateM (List (Text × Option Thrown))) :=
      { lookUp := fun lookups => return ((lookups memory.fileSystem).run {}).1
        print := fun text => modify (· ++ [(text, none)]) }
    let site : CallSite :=
      { fileName := some "b.js".toList, line := some 1, column := some 4, evalOrigin := none }
    let late : Thrown := ⟨"late".toList, none⟩
    let events : List (Event (StateM (List (Text × Option Thrown)))) :=
      [.handle none, .setHandler (handler "one".toList), .capture "E".toList [site],
        .setFormatter fun error _ => return error ++ "!".toList, .handle (some late),
        .capture "E".toList [site], .install host, .setHandler (handler "two".toList),
        .capture "E".toList [site], .handle none, .install host, .handle (some late), .handle none]
    ((run {} events).run []).1.1 =
        [.returned false, .set, .captured ⟨"E".toList, some "E\n    at b.js:1:4".toList⟩, .set,
          .returned true, .captured ⟨"E".toList, some "E!".toList⟩, .set, .set,
          .captured ⟨"E".toList, some "E\n    at a.ts:1:1".toList⟩, .returned true, .set,
          .exited 1] ∧
      ((run {} events).run []).2 =
        [("one".toList, some late), ("two".toList, none),
          ("Uncaught exception: late\n".toList, none)] := by
  intro memory handler host site late events
  rw [(run_by_hooks_set_last events).1]
  decide +kernel

end MappedTrace.Hooks
