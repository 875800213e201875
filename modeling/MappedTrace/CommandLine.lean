import MappedTrace.Command

/-!
# The command line

Arguments are read from left to right, and the first thing that decides does. What they ask for is
run, and ends with output, messages and an exit status.
-/

namespace MappedTrace

inductive Request where
  | run (command : Command)
  | help
  | version
  | misuse
deriving DecidableEq, Repr

namespace Request

/-- What a command takes: any number of values or at most one, and perhaps the option `--json`. -/
structure Shape where
  takesMany : Bool
  takesJson : Bool

structure Given where
  values : List Text := []
  json : Bool := false

def isOption (argument : Text) : Bool :=
  argument.head? = some '-' && 1 < argument.length

def asksForHelp (argument : Text) : Bool :=
  argument = "--help".toList || "-h".toList.isPrefixOf argument

def asksForVersion (argument : Text) : Bool :=
  argument = "--version".toList || "-V".toList.isPrefixOf argument

def Shape.allows (shape : Shape) (given : Given) : Bool :=
  shape.takesMany || given.values.length ≤ 1

/-- Reads the arguments of a command. Behind two dashes there are only values. -/
def collect (shape : Shape) (finish : Given → Request) : Given → List Text → Request
  | given, [] => finish given
  | given, argument :: rest =>
    if argument = "--".toList then
      let given := { given with values := given.values ++ rest }
      if shape.allows given then finish given else misuse
    else if asksForHelp argument then help
    else if argument = "--json".toList && shape.takesJson && !given.json then
      collect shape finish { given with json := true } rest
    else if isOption argument then misuse
    else
      let given := { given with values := given.values ++ [argument] }
      if shape.allows given then collect shape finish given rest else misuse

def ofMap (arguments : List Text) : Request :=
  collect ⟨true, true⟩
    (fun given => if given.values.isEmpty then misuse else run (.map given.values given.json))
    {} arguments

def ofPath (command : Option Text → Command) (arguments : List Text) : Request :=
  collect ⟨false, false⟩ (fun given => run (command given.values.head?)) {} arguments

def commandNames : List Text :=
  ["map".toList, "trace".toList, "report".toList, "help".toList]

/-- Without arguments a trace is moved that is piped in. -/
def ofArguments : List Text → Request
  | [] => run (.trace none)
  | first :: rest =>
    if first = "map".toList then ofMap rest
    else if first = "trace".toList then ofPath .trace rest
    else if first = "report".toList then ofPath .report rest
    else if first = "help".toList then
      if rest.length ≤ 1 && rest.all commandNames.contains then help else misuse
    else if first = "--".toList && rest.isEmpty then run (.trace none)
    else if asksForHelp first then help
    else if asksForVersion first then version
    else misuse

def readsInput : Request → Bool
  | run command => command.readsInput
  | _ => false

end Request

structure Outcome where
  status : UInt32
  out : List UInt8
  err : Text
  /-- Every path that was looked for. -/
  asked : List Text := []

namespace CommandLine

def usage : Text :=
  "Usage: mapped-trace [map [--json] <POSITION>... | trace [PATH] | report [PATH] | help]\n".toList

def version : Text :=
  "mapped-trace 0.1.0\n".toList

def run (files : FileSystem) (piped : List UInt8) : Request → Outcome
  | .help => { status := 0, out := Utf8.encode usage, err := [] }
  | .version => { status := 0, out := Utf8.encode version, err := [] }
  | .misuse => { status := 2, out := [], err := usage }
  | .run command =>
    let (result, final) := (command.run files piped).run.run {}
    let (status, err) :=
      match result with
      | .ok status => (status, [])
      | .error failure => (1, "[ERROR]\n".toList ++ failure.message ++ ['\n'])
    { status, out := final.sink.written, err, asked := final.cache.asked }

end CommandLine

end MappedTrace
