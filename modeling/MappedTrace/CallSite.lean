import MappedTrace.Numeral
import MappedTrace.Text.Utf8

/-!
# Call sites

A call site is what a runtime tells about one frame of a call stack, and is written the way
runtimes write frames: what was running, and in parentheses where.
-/

namespace MappedTrace

structure CallSite where
  fileName : Option Text
  line : Option UInt32
  column : Option UInt32
  /-- Where the code of the frame was passed to `eval`, if it was. -/
  evalOrigin : Option Text
  /-- The name of the script, or the name that evaluated code gives itself. -/
  script : Option Text := fileName
  functionName : Option Text := none
  typeName : Option Text := none
  methodName : Option Text := none
  isToplevel : Bool := true
  isEval : Bool := evalOrigin.isSome
  isNative : Bool := false
  isConstructor : Bool := false
deriving DecidableEq, Repr

namespace CallSite

def anonymous : Text :=
  "<anonymous>".toList

def renderNumbers (line column : Option UInt32) : Text :=
  match line with
  | none => []
  | some line =>
    ':' :: Numeral.write line ++
      match column.filter (· ≠ 0) with
      | none => []
      | some column => ':' :: Numeral.write column

/-- Where a frame is. Evaluated code without a name is found by its origin. -/
def renderLocation (site : CallSite) : Text :=
  if site.isNative then "native".toList
  else
    let origin :=
      match site.evalOrigin with
      | some origin =>
        if site.script.isNone && site.isEval then origin ++ ", ".toList else []
      | none => []
    origin ++ site.script.getD anonymous ++ renderNumbers site.line site.column

/-- Whether a method has to be named beside the function that runs. It has not if the first place
where its name stands behind a point is the very end of the function's name or, where there is no
such place, if the two names are equally long in bytes. -/
def needsAlias (function method : Text) : Bool :=
  let expected : Int := Utf8.size function - Utf8.size method - 1
  let found : Int :=
    match Text.cutFirst? ('.' :: method) function with
    | some (before, _) => Utf8.size before
    | none => -1
  found ≠ expected

def qualifier : Option Text → Text
  | some typeName => typeName ++ ['.']
  | none => []

def renderMethod (typeName functionName methodName : Option Text) : Text :=
  match functionName with
  | none => qualifier typeName ++ methodName.getD anonymous
  | some function =>
    qualifier (typeName.filter fun name => !name.isPrefixOf function) ++ function ++
      match methodName.filter (needsAlias function) with
      | some method => " [as ".toList ++ method ++ [']']
      | none => []

/-- What a frame was running, if there is anything to say of it. Empty names count as none. -/
def callee? (site : CallSite) : Option Text :=
  let functionName := site.functionName.bind Text.filled?
  if site.isConstructor then some ("new ".toList ++ functionName.getD anonymous)
  else if site.isToplevel then functionName
  else some (renderMethod site.typeName functionName (site.methodName.bind Text.filled?))

def render (site : CallSite) : Text :=
  match site.callee? with
  | none => site.renderLocation
  | some callee => callee ++ " (".toList ++ site.renderLocation ++ [')']

end CallSite

end MappedTrace
