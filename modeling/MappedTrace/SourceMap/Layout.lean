import MappedTrace.SourceMap.Token
import MappedTrace.SourceMap.Vlq
import MappedTrace.Text.Utf8

/-!
# The mappings of a source map

A plain map as it is written: its sources, the number of its names, and two texts that hold the
tokens. Lines of the mappings are parted by semicolons and segments by commas; a segment holds one,
four or five numbers, each relative to the one before.
-/

namespace MappedTrace.SourceMap

structure Layout where
  sources : List Text
  nameCount : Nat
  mappings : Text
  rangeMappings : Text

/-- What the next segment is relative to. -/
structure Totals where
  column : UInt32
  source : UInt32
  sourceLine : UInt32
  sourceColumn : UInt32
  name : UInt32

def Totals.zero : Totals :=
  ⟨0, 0, 0, 0, 0⟩

namespace Layout

def empty : Layout :=
  ⟨[], 0, [], []⟩

/-- The segments of a line that stand for ranges: six to a digit, the lowest bit first. -/
def rangeFlags : Text → Except DecodeError (List Bool)
  | [] => .ok []
  | c :: rest =>
    match Base64.digit? c with
    | none => .error (.rangeDigit c)
    | some digit => (rangeFlags rest).map ((List.range 6).map digit.testBit ++ ·)

/-- The origin that three or four numbers name. The source is looked up before the name. -/
def origin (layout : Layout) (totals : Totals) (source line column : Int) (name : Option Int) :
    Except DecodeError (Option Origin × Totals) :=
  let source := totals.source + UInt32.ofInt source
  match layout.sources[source.toNat]? with
  | none => .error (.sourceReference source)
  | some text =>
    let totals := { totals with
      source
      sourceLine := totals.sourceLine + UInt32.ofInt line
      sourceColumn := totals.sourceColumn + UInt32.ofInt column
      name := totals.name + UInt32.ofInt (name.getD 0) }
    if name.isSome && layout.nameCount ≤ totals.name.toNat then
      .error (.nameReference totals.name)
    else .ok (some ⟨text, totals.sourceLine, totals.sourceColumn⟩, totals)

def token (layout : Layout) (line : UInt32) (isRange : Bool) (totals : Totals) (segment : Text) :
    Except DecodeError (Token × Totals) := do
  let numbers ← Vlq.numbers segment
  let totals := { totals with column := totals.column + UInt32.ofInt (numbers.headD 0) }
  let (origin, totals) ←
    match numbers.tail with
    | [] => .ok (none, totals)
    | [source, line, column] => layout.origin totals source line column none
    | [source, line, column, name] => layout.origin totals source line column (some name)
    | _ => .error (.segmentSize numbers.length)
  return (⟨⟨line, totals.column⟩, origin, isRange⟩, totals)

/-- The tokens of a line. An empty segment holds none, but is counted by the range flags. -/
def lineTokens (layout : Layout) (line : UInt32) :
    List Bool → Totals → List Text → Except DecodeError (List Token × Totals)
  | _, totals, [] => .ok ([], totals)
  | flags, totals, segment :: rest =>
    if segment.isEmpty then layout.lineTokens line flags.tail totals rest
    else do
      let (token, totals) ← layout.token line (flags.headD false) totals segment
      let (tokens, totals) ← layout.lineTokens line flags.tail totals rest
      return (token :: tokens, totals)

/-- The tokens of the lines from a given one on. Columns start anew on each line, and the flags of
an empty line are not looked at. -/
def tokensFrom (layout : Layout) :
    UInt32 → Totals → List Text → List Text → Except DecodeError (List Token)
  | _, _, _, [] => .ok []
  | line, totals, ranges, text :: rest => do
    if text.isEmpty then layout.tokensFrom (line + 1) totals ranges.tail rest
    else
      let flags ← rangeFlags (ranges.headD [])
      let (tokens, totals) ←
        layout.lineTokens line flags { totals with column := 0 } (text.splitOn ',')
      let others ← layout.tokensFrom (line + 1) totals ranges.tail rest
      return tokens ++ others

def tokens (layout : Layout) : Except DecodeError (List Token) :=
  let lines := (Utf8.byteChars (Utf8.encode layout.mappings)).splitOn ';'
  let ranges := (Utf8.byteChars (Utf8.encode layout.rangeMappings)).splitOn ';'
  (layout.tokensFrom 0 Totals.zero ranges lines).map (Place.sort Token.place)

end Layout

end MappedTrace.SourceMap
