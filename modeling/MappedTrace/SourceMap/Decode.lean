import MappedTrace.SourceMap.Document

/-!
# Reading source maps

A source map comes as the bytes of a file or inside a `data:` url. A file may begin with a line
that keeps it from being run as a script; the document then starts on the next line.
-/

namespace MappedTrace.SourceMap

/-- The bytes `)`, `]`, `}` and `'`. -/
def isJunk (byte : UInt8) : Bool :=
  byte = 0x29 || byte = 0x5D || byte = 0x7D || byte = 0x27

/-- What follows the first line, from its line feed on. Only that may come after a carriage
return. -/
def dropLine (afterReturn : Bool) : List UInt8 → Except DecodeError (List UInt8)
  | [] => .ok []
  | byte :: rest =>
    if byte = 0x0A then .ok (byte :: rest)
    else if afterReturn then .error .missingNewline
    else dropLine (byte = 0x0D) rest

def dropJunk (bytes : List UInt8) : Except DecodeError (List UInt8) :=
  match bytes.head? with
  | none => .ok bytes
  | some first => if isJunk first then dropLine false bytes else .ok bytes

/-- The document that bytes spell. JSON is not read so deep that its levels could run out. -/
def document? (bytes : List UInt8) : Option Document := do
  let json ← documentReader.read? .map (Utf8.byteChars bytes)
  Document.ofJson? Json.maxNesting json

def ofBytes (bytes : List UInt8) : Except DecodeError SourceMap := do
  let bytes ← dropJunk bytes
  match document? bytes with
  | none => .error .badJson
  | some document => document.decode

/-- The base64 text in a `data:` url that holds JSON. -/
def payload? (url : Text) : Option Text := do
  let rest ← "data:application/json".toList.isPrefixOf? url
  let rest :=
    ([";charset=utf-8", ";charset=utf8"].findSome? fun charset =>
      charset.toList.isPrefixOf? rest).getD rest
  ";base64,".toList.isPrefixOf? rest

def ofDataUrl (url : Text) : Except DecodeError SourceMap :=
  match (payload? url).bind Base64.decode? with
  | none => .error .dataUrl
  | some bytes => ofBytes bytes

end MappedTrace.SourceMap
