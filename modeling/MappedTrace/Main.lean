import MappedTrace.CommandLine

/-!
# The program

Files are read from disk as they are asked for: a command is run on the files known so far, and run
again with those it looked for in vain, until it looks for nothing new.
-/

namespace MappedTrace.Main

abbrev Known :=
  List (Text × Except ReadFault Text)

/-- The files known so far. Anything else is missing. -/
def fileSystem (known : Known) : FileSystem where
  isFile path :=
    match known.lookup path with
    | some (.ok _) | some (.error .invalidText) | some (.error (.other _)) => true
    | _ => false
  read path := (known.lookup path).getD (.error .notFound)

/-- Error numbers come as they are or negated. -/
def errorNumber (code : UInt32) : Nat :=
  min code.toNat (-code).toNat

def faultOf (error : IO.Error) : ReadFault :=
  match error with
  | .noFileOrDirectory .. => .notFound
  | .inappropriateType _ code _ =>
    if errorNumber code = 20 then .notDirectory else .isDirectory
  | .invalidArgument _ code _ => if errorNumber code = 36 then .nameTooLong else .notFound
  | .permissionDenied .. => .other "Permission denied (os error 13)".toList
  | other => .other other.toString.toList

def readFile (path : Text) : IO (Except ReadFault Text) := do
  try
    let bytes ← IO.FS.readBinFile (String.ofList path)
    match Utf8.decode bytes.toList with
    | some text => return .ok text
    | none => return .error .invalidText
  catch error => return .error (faultOf error)

/-- Runs a request until it looks for no file that is not known. -/
partial def settle (piped : List UInt8) (request : Request) (known : Known) : IO Outcome := do
  let outcome := CommandLine.run (fileSystem known) piped request
  let unknown := outcome.asked.eraseDups.filter fun path => (known.lookup path).isNone
  if unknown.isEmpty then return outcome
  else
    let found ← unknown.mapM fun path => return (path, ← readFile path)
    settle piped request (found ++ known)

/-- All bytes of a stream, behind those read so far. -/
partial def readAll (stream : IO.FS.Stream) (sofar : ByteArray) : IO ByteArray := do
  let more ← stream.read 65536
  if more.isEmpty then return sofar else readAll stream (sofar ++ more)

end MappedTrace.Main

open MappedTrace in
def main (arguments : List String) : IO UInt32 := do
  let request := Request.ofArguments (arguments.map String.toList)
  let piped ←
    if request.readsInput then Main.readAll (← IO.getStdin) ByteArray.empty
    else pure ByteArray.empty
  let outcome ← Main.settle piped.toList request []
  let out ← IO.getStdout
  out.write ⟨outcome.out.toArray⟩
  out.flush
  (← IO.getStderr).putStr (String.ofList outcome.err)
  return outcome.status
