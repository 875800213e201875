import MappedTrace.CallSite
import MappedTrace.Position

/-!
# Stack frames

A stack frame is a call site as plain data, built field by field or read from a line of a stack
trace.
-/

namespace MappedTrace

structure StackFrame where
  fileName : Option Text := none
  /-- The name that evaluated code gives itself. -/
  sourceUrl : Option Text := none
  line : Option UInt32 := none
  column : Option UInt32 := none
  evalOrigin : Option Text := none
  functionName : Option Text := none
  typeName : Option Text := none
  methodName : Option Text := none
  isMethodCall : Bool := false
  isNative : Bool := false
  isConstructor : Bool := false
deriving DecidableEq, Repr

namespace StackFrame

def withPosition (frame : StackFrame) (line column : UInt32) : StackFrame :=
  { frame with line := some line, column := some column }

def withMethod (frame : StackFrame) (typeName methodName : Text) : StackFrame :=
  { frame with typeName := some typeName, methodName := some methodName, isMethodCall := true }

def callSite (frame : StackFrame) : CallSite where
  fileName := frame.fileName
  line := frame.line
  column := frame.column
  evalOrigin := frame.evalOrigin
  script := frame.sourceUrl.or frame.fileName
  functionName := frame.functionName
  typeName := frame.typeName
  methodName := frame.methodName
  isToplevel := !frame.isMethodCall
  isNative := frame.isNative
  isConstructor := frame.isConstructor

inductive ParseError where
  | missingMark
  | empty
deriving DecidableEq, Repr

def ParseError.message : ParseError → Text
  | missingMark => "stack frame line is missing the 'at' prefix".toList
  | empty => "stack frame line is empty".toList

/-- A file with the line behind its last colon, or else the whole text as a file. -/
def fileAndLine (text : Text) : Text × Option UInt32 × Option UInt32 :=
  match Text.cutLast? [':'] text with
  | none => (text, none, none)
  | some (file, line) =>
    match Numeral.read? line with
    | none => (text, none, none)
    | some line => (file, some line, none)

/-- A file, line and column where both numbers can be read, or else a file and line. -/
def numbers (text : Text) : Text × Option UInt32 × Option UInt32 :=
  match Position.cut? text with
  | none => fileAndLine text
  | some (file, line, column) =>
    match Numeral.read? line, Numeral.read? column with
    | some line, some column => (file, some line, some column)
    | _, _ => fileAndLine text

/-- The eval origin in front of a location, if there is one, and the rest. -/
def cutOrigin (text : Text) : Option Text × Text :=
  match Text.cutLast? ", ".toList text with
  | none => (none, text)
  | some (origin, rest) =>
    if "eval at ".toList.isPrefixOf origin then (some origin, rest) else (none, text)

def parseLocation (frame : StackFrame) (text : Text) : StackFrame :=
  if text = "native".toList then { frame with isNative := true }
  else
    let (origin, rest) := cutOrigin text
    let (file, line, column) := numbers rest
    { frame with
      evalOrigin := origin
      fileName := if file.isEmpty || file = CallSite.anonymous then none else some file
      line
      column }

def parseCallee (text : Text) : StackFrame :=
  match "new ".toList.isPrefixOf? text with
  | some name => { functionName := some name, isConstructor := true }
  | none => { functionName := some text }

/-- What a line says behind its mark: a location, alone or in parentheses behind a function. All
that is said of the function is kept in its name. -/
def parseBody (body : Text) : StackFrame :=
  match ([')'].isSuffixOf? body).bind (Text.cutFirst? " (".toList) with
  | some (callee, location) => parseLocation (parseCallee callee) location
  | none => parseLocation {} body

/-- Reads a line of a stack trace, with or without the blanks around it. -/
def parse (line : Text) : Except ParseError StackFrame :=
  let text := line.trim
  if text.isEmpty then .error .empty
  else
    match "at ".toList.isPrefixOf? text with
    | none => .error .missingMark
    | some body => .ok (parseBody body)

end StackFrame

end MappedTrace
