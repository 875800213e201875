import MappedTrace.CallSite
import MappedTrace.Position
import MappedTrace.Proofs.Text.Cut

/-!
# Written positions

A written position is its source, two colons and digits. Hence it is cut into its parts again
whatever its source holds.
-/

namespace MappedTrace

theorem Numeral.not_mem_write {c : Char} (h : c.isDigit = false) (n : UInt32) : c ∉ write n := by
  intro hmem
  rw [isDigit_of_mem_write hmem] at h
  contradiction

namespace Position

variable (position : Position)

theorem cut?_render :
    cut? position.render =
      some (position.source, Numeral.write position.line, Numeral.write position.column) := by
  have hline : ':' ∉ Numeral.write position.line := Numeral.not_mem_write rfl _
  have hcolumn : ':' ∉ Numeral.write position.column := Numeral.not_mem_write rfl _
  rw [cut?, render, Text.cutLast?_append_cons _ hcolumn]
  dsimp only [Option.bind_eq_bind, Option.bind_some]
  rw [Text.cutLast?_append_cons _ hline]
  rfl

theorem colon_mem_render : ':' ∈ position.render := by
  simp [render]

variable {position}

theorem not_mem_render {c : Char} (hsource : c ∉ position.source) (hcolon : c ≠ ':')
    (hdigit : c.isDigit = false) : c ∉ position.render := by
  have hline := Numeral.not_mem_write hdigit position.line
  have hcolumn := Numeral.not_mem_write hdigit position.column
  rw [render, List.append_assoc, List.mem_append, List.cons_append, List.mem_cons, List.mem_append,
    List.mem_cons]
  tauto

theorem prefix_source_of_prefix_render {mark : Text} (hcolon : ':' ∉ mark)
    (h : mark <+: position.render) : mark <+: position.source := by
  rw [render, List.append_assoc] at h
  exact Text.prefix_of_prefix_append_cons hcolon h

theorem exists_getLast?_render (position : Position) :
    ∃ c, c.isDigit = true ∧ position.render.getLast? = some c := by
  have hlast := List.getLast?_eq_some_getLast (Numeral.write_ne_nil position.column)
  refine ⟨_, Numeral.isDigit_of_mem_write (List.mem_of_getLast? hlast), ?_⟩
  rw [render, List.getLast?_append, ← List.singleton_append, List.getLast?_append, hlast,
    Option.some_or, Option.some_or]

end Position

namespace CallSite

theorem append_renderNumbers (source : Text) (line : UInt32) {column : UInt32}
    (h : column ≠ 0) :
    source ++ renderNumbers (some line) (some column) = Position.render ⟨source, line, column⟩ := by
  have hshown : (some column).filter (fun column => decide (column ≠ 0)) = some column :=
    Option.filter_some_pos (by simpa using h)
  rw [renderNumbers, hshown, Position.render, List.append_assoc]

section

variable {site : CallSite}

theorem renderLocation_of_script {script : Text} (hforeign : site.isNative = false)
    (hscript : site.script = some script) :
    site.renderLocation = script ++ renderNumbers site.line site.column := by
  rw [renderLocation, hforeign, hscript]
  cases site.evalOrigin <;> rfl

theorem renderLocation_of_origin {origin : Text} (hforeign : site.isNative = false)
    (hscript : site.script = none) (heval : site.isEval = true)
    (horigin : site.evalOrigin = some origin) :
    site.renderLocation =
      origin ++ (", ".toList ++ anonymous ++ renderNumbers site.line site.column) := by
  rw [renderLocation, hforeign, hscript, heval, horigin]
  simp

variable {line column : UInt32}

theorem renderLocation_eq_render {source : Text} (hforeign : site.isNative = false)
    (hscript : site.script = some source) (hline : site.line = some line)
    (hcolumn : site.column = some column) (hlater : column ≠ 0) :
    site.renderLocation = Position.render ⟨source, line, column⟩ := by
  rw [renderLocation_of_script hforeign hscript, hline, hcolumn,
    append_renderNumbers source line hlater]

theorem renderLocation_eq_origin_render {origin : Text} (hforeign : site.isNative = false)
    (hscript : site.script = none) (heval : site.isEval = true)
    (horigin : site.evalOrigin = some origin) (hline : site.line = some line)
    (hcolumn : site.column = some column) (hlater : column ≠ 0) :
    site.renderLocation = origin ++ ", ".toList ++ Position.render ⟨anonymous, line, column⟩ := by
  rw [renderLocation_of_origin hforeign hscript heval horigin, hline, hcolumn,
    ← append_renderNumbers anonymous line hlater]
  simp only [List.append_assoc]

end

end CallSite

end MappedTrace
