import MappedTrace.Json.Parser
import MappedTrace.Text.Utf8

/-!
# What is looked at in a document

In a map every member is looked at, known or not. In a section, in the place where it begins and in
a description of functions only the known members are.
-/

namespace MappedTrace.SourceMap

/-- The parts that values of a document play. -/
inductive Part where
  | map
  | sections
  | section
  | place
  | sources
  | functionMaps
  | functionMap
  | other
deriving DecidableEq, Repr

namespace Part

/-- The part of an array's item. A section may be written as the array of its three members. -/
def item : Part → Nat → Part
  | .sections, _ => .section
  | .section, 0 => .place
  | .section, 2 => .map
  | .sources, _ => .functionMaps
  | .functionMaps, _ => .functionMap
  | _, _ => .other

def member? (part : Part) (name : Text) : Option Part :=
  match part with
  | .map =>
    if name = "sections".toList then some .sections
    else if name = "x_facebook_sources".toList then some .sources
    else some .other
  | .section =>
    if name = "offset".toList then some .place
    else if name = "map".toList then some .map
    else if name = "url".toList then some .other
    else none
  | .place => if name = "line".toList || name = "column".toList then some .other else none
  | .functionMap =>
    if name = "names".toList || name = "mappings".toList then some .other else none
  | _ => some .other

end Part

def documentReader : Json.Reader Part where
  text? body := (Utf8.ofByteChars? body).bind Json.unescape?
  item := Part.item
  member? := Part.member?

end MappedTrace.SourceMap
