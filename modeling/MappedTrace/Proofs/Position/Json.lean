import MappedTrace.Proofs.Json.Written
import MappedTrace.Proofs.Position.Rendering

/-!
# Positions read from JSON

What is written of a position as JSON stands on one line, and is read as an object with the members
of the position, whatever characters its source holds.
-/

namespace MappedTrace

/-- An object with the three members of a position, in their order, and no others. -/
inductive Json.Describes (position : Position) : Json → Prop
  | members {source line column : Json} (text : source.string? = some position.source)
    (first : line.word? = some position.line) (second : column.word? = some position.column) :
    Describes position
      (.object [("source".toList, source), ("line".toList, line), ("column".toList, column)])

namespace Position

open Json (quote)

variable (position : Position)

theorem renderJson_eq :
    position.renderJson =
      '\x7b' :: (quote "source".toList ++ ':' :: (quote position.source ++
        ',' :: (quote "line".toList ++ ':' :: (Numeral.write position.line ++
        ',' :: (quote "column".toList ++ ':' :: (Numeral.write position.column ++ ['\x7d'])))))) := by
  have hsource : "\x7b\"source\":".toList = '\x7b' :: (quote "source".toList ++ [':']) := by decide
  have hline : ",\"line\":".toList = ',' :: (quote "line".toList ++ [':']) := by decide
  have hcolumn : ",\"column\":".toList = ',' :: (quote "column".toList ++ [':']) := by decide
  unfold renderJson
  generalize quote "source".toList = sourceKey at *
  generalize quote "line".toList = lineKey at *
  generalize quote "column".toList = columnKey at *
  rw [hsource, hline, hcolumn]
  simp only [List.append_assoc, List.cons_append, List.nil_append]

theorem lineFeed_not_mem_renderJson : '\n' ∉ position.renderJson := by
  have hline : '\n' ∉ Numeral.write position.line := Numeral.not_mem_write rfl _
  have hcolumn : '\n' ∉ Numeral.write position.column := Numeral.not_mem_write rfl _
  simp [renderJson_eq, Json.lineFeed_not_mem_quote, hline, hcolumn]

open Json.Token in
theorem ofText?_renderJson :
    ofText? position.renderJson = some
      [.openObject, .scalar (.string ("source".toList.flatMap Json.escape)), .colon,
        .scalar (.string (position.source.flatMap Json.escape)), .comma,
        .scalar (.string ("line".toList.flatMap Json.escape)), .colon,
        .scalar (.number (.ofWord position.line)), .comma,
        .scalar (.string ("column".toList.flatMap Json.escape)), .colon,
        .scalar (.number (.ofWord position.column)), .closeObject] := by
  have hopen : punctuation? '\x7b' = some .openObject := rfl
  have hclose : punctuation? '\x7d' = some .closeObject := rfl
  have hcolon : punctuation? ':' = some .colon := rfl
  have hcomma : punctuation? ',' = some .comma := rfl
  have hend : scan .between [] = some [] := rfl
  rw [ofText?, renderJson_eq, scan_mark hopen, scan_quote, scan_mark hcolon, scan_quote,
    scan_mark hcomma, scan_quote, scan_mark hcolon, scan_write hcomma, scan_quote,
    scan_mark hcolon, scan_write hclose, hend]
  rfl

open Json.Reader in
theorem parse?_renderJson :
    Json.parse? position.renderJson =
      some (.object [("source".toList, .string position.source),
        ("line".toList, .number (.ofWord position.line)),
        ("column".toList, .number (.ofWord position.column))]) := by
  have hopen (body : Text) (rest : List Json.Token) :
      (.openObject :: .scalar (.string body) :: rest).foldlM whole.step (.value (some ()) []) =
        (.scalar (.string body) :: rest).foldlM whole.step (.key (some ()) [] []) := rfl
  have hcomma (json : Json) (members : List (Text × Json)) (name : Text)
      (rest : List Json.Token) :
      (.comma :: rest).foldlM whole.step (.separator json [.object (some ()) members name]) =
        rest.foldlM whole.step (.key (some ()) ((name, json) :: members) []) := rfl
  have hclose (json : Json) (members : List (Text × Json)) (name : Text) :
      [Json.Token.closeObject].foldlM whole.step
        (.separator json [.object (some ()) members name]) =
          some (.separator (.object ((name, json) :: members).reverse) []) := rfl
  rw [Json.parse?, Json.Reader.read?, ofText?_renderJson, Option.bind_eq_bind, Option.bind_some,
    ofTokens?, hopen, foldlM_member (scalar?_string _), hcomma,
    foldlM_member (scalar?_ofWord _), hcomma, foldlM_member (scalar?_ofWord _), hclose]
  rfl

theorem exists_parse?_renderJson :
    ∃ json, Json.parse? position.renderJson = some json ∧ Json.Describes position json :=
  ⟨_, parse?_renderJson position,
    .members rfl (Json.Number.word?_ofWord _) (Json.Number.word?_ofWord _)⟩

end Position

end MappedTrace
