import MappedTrace.SourceMap.Basic
import MappedTrace.SourceMap.DebugId
import MappedTrace.SourceMap.Layout
import MappedTrace.SourceMap.Outline

/-!
# Source map documents

A source map document is a JSON object. Its known members have types, may be missing or null, and
must not be repeated; other members are ignored. A document with sections is an index of them.
-/

namespace MappedTrace.SourceMap

abbrev Document :=
  Sectioned Layout

namespace Document

def debugId? (value : Json) : Option Text := do
  let text ← value.string?
  if DebugId.isValid text then some text else none

def underRoot (root : Option Text) (source : Text) : Text :=
  match root.bind Text.filled? with
  | none => source
  | some root =>
    let isAbsolute := ["/", "http:", "https:"].any fun start => start.toList.isPrefixOf source
    if isAbsolute then source
    else (if root.getLast? = some '/' then root.dropLast else root) ++ '/' :: source

def place? : Json → Option Place
  | .object members => do
    let line ← Json.required? members "line".toList Json.word?
    let column ← Json.required? members "column".toList Json.word?
    return ⟨line, column⟩
  | .array [line, column] => return ⟨← line.word?, ← column.word?⟩
  | _ => none

/-- The names and mappings of a source's functions. They are only looked at for their types. -/
def functionMap? : Json → Option Unit
  | .object members => do
    let _ ← Json.required? members "names".toList (Json.arrayOf? Json.string?)
    let _ ← Json.required? members "mappings".toList Json.string?
    return ()
  | .array [names, mappings] => do
    let _ ← names.arrayOf? Json.string?
    let _ ← mappings.string?
    return ()
  | _ => none

/-- A section, as an object or as an array of its three members. One that only names another file
answers nothing. -/
def section? (document? : Json → Option Document) : Json → Option (Place × Document)
  | .object members => do
    let start ← Json.required? members "offset".toList place?
    let _ ← Json.optional? members "url".toList Json.string?
    let map ← Json.optional? members "map".toList document?
    return (start, map.getD (.whole Layout.empty))
  | .array [start, url, map] => do
    let start ← place? start
    let _ ← url.nullable? Json.string?
    let map ← map.nullable? document?
    return (start, map.getD (.whole Layout.empty))
  | _ => none

/-- The members that are only looked at for their types. -/
def checkUnused? (members : List (Text × Json)) : Option Unit := do
  let _ ← Json.optional? members "version".toList Json.word?
  let _ ← Json.member? members "file".toList
  let _ ← Json.optional? members "sourcesContent".toList
    (Json.arrayOf? (Json.nullable? Json.string?))
  let _ ← Json.optional? members "ignoreList".toList (Json.arrayOf? Json.word?)
  let _ ← Json.optional? members "x_facebook_offsets".toList
    (Json.arrayOf? (Json.nullable? Json.word?))
  let _ ← Json.optional? members "x_metro_module_paths".toList (Json.arrayOf? Json.string?)
  let _ ← Json.optional? members "x_facebook_sources".toList
    (Json.arrayOf? (Json.nullable? (Json.arrayOf? functionMap?)))
  let _ ← Json.optional? members "debugId".toList debugId?
  let _ ← Json.optional? members "debug_id".toList debugId?
  return ()

def layout? (members : List (Text × Json)) : Option Layout := do
  let sources ← Json.optional? members "sources".toList
    (Json.arrayOf? (Json.nullable? Json.string?))
  let root ← Json.optional? members "sourceRoot".toList Json.string?
  let names ← Json.optional? members "names".toList (Json.arrayOf? some)
  let mappings ← Json.optional? members "mappings".toList Json.string?
  let rangeMappings ← Json.optional? members "rangeMappings".toList Json.string?
  return {
    sources := (sources.getD []).map fun source => underRoot root (source.getD [])
    nameCount := (names.getD []).length
    mappings := mappings.getD []
    rangeMappings := rangeMappings.getD [] }

/-- Reads a document, at most so many levels of sections deep. -/
def ofJson? : Nat → Json → Option Document
  | levels + 1, .object members => do
    checkUnused? members
    let layout ← layout? members
    let sections ← Json.optional? members "sections".toList
      (Json.arrayOf? (section? (ofJson? levels)))
    return match sections with
      | some sections => .parts sections
      | none => .whole layout
  | _, _ => none

mutual

/-- Decodes the mappings of a document, and puts the sections of an index in order. -/
def decode : Document → Except DecodeError SourceMap
  | .whole layout => layout.tokens.map .whole
  | .parts sections => (decodeSections sections).map fun maps => .parts (Place.sort Prod.fst maps)

def decodeSections : List (Place × Document) → Except DecodeError (List (Place × SourceMap))
  | [] => .ok []
  | (start, document) :: rest => do
    let map ← decode document
    let maps ← decodeSections rest
    return (start, map) :: maps

end

end Document

end MappedTrace.SourceMap
