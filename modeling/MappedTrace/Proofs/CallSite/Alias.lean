import MappedTrace.CallSite
import MappedTrace.Proofs.Text.Cut

/-!
# Aliases of methods

A method that is called by a function of another name is named beside that function. A function that
is named after the method, bare or behind a point, says enough by itself. Which of the two it is is
told by the first place where the method's name stands behind a point and, where there is no such
place, by the lengths of the names in bytes. So it is told wrongly of two different names of one
length, and of a function that has the method's name behind a point more than once.
-/

namespace MappedTrace

namespace Utf8

theorem size_append (text other : Text) : size (text ++ other) = size text + size other := by
  rw [size, encode, List.flatMap_append, List.length_append]
  rfl

theorem size_eq_zero_iff {text : Text} : size text = 0 ↔ text = [] := by
  cases text with
  | nil => exact iff_of_true rfl rfl
  | cons c rest =>
    have hpos : 0 < (String.utf8EncodeChar c).length := by
      rw [String.length_utf8EncodeChar]
      exact c.utf8Size_pos
    rw [size, encode, List.flatMap_cons, List.length_append]
    exact iff_of_false (by omega) (List.cons_ne_nil c rest)

end Utf8

namespace CallSite

/-- The function has the method's name, bare or at its end behind a point. -/
def NamedAfter (function method : Text) : Prop :=
  function = method ∨ '.' :: method <:+ function

instance (function method : Text) : Decidable (NamedAfter function method) :=
  inferInstanceAs (Decidable (_ ∨ _))

/-- It is told wrongly whether the function is named after the method: the names are two of one
length, or the method's name stands behind a point at the end and before it too. -/
def Misjudged (function method : Text) : Prop :=
  (function ≠ method ∧ Utf8.size function = Utf8.size method) ∨
    ('.' :: method <:+ function ∧ '.' :: method <:+: function.dropLast)

instance (function method : Text) : Decidable (Misjudged function method) :=
  inferInstanceAs (Decidable (_ ∨ _))

/-- A method is called, and both it and the function that runs have a name. -/
structure CallsMethod (site : CallSite) (function method : Text) : Prop where
  inside : site.isToplevel = false
  called : site.isConstructor = false
  functionName : site.functionName = some function
  methodName : site.methodName = some method
  functionFilled : function ≠ []
  methodFilled : method ≠ []

section

variable {function method : Text}

theorem needsAlias_eq_true_iff :
    needsAlias function method = true ↔
      '.' :: method <:+: function.dropLast ∨
        (¬ '.' :: method <:+: function ∧ Utf8.size function ≠ Utf8.size method) := by
  have hmark : '.' :: method ≠ [] := List.cons_ne_nil '.' method
  unfold needsAlias
  cases hcut : Text.cutFirst? ('.' :: method) function with
  | none =>
    have hnowhere : ¬ '.' :: method <:+: function := (Text.cutFirst?_eq_none_iff hmark).mp hcut
    have hearlier : ¬ '.' :: method <:+: function.dropLast := fun hinside =>
      hnowhere (hinside.trans (List.dropLast_prefix function).isInfix)
    simp only [hnowhere, hearlier, false_or, not_false_eq_true, true_and, decide_eq_true_eq]
    omega
  | some parts =>
    obtain ⟨before, after⟩ := parts
    have hfunction := Text.eq_append_of_cutFirst? hcut
    have hsomewhere : '.' :: method <:+: function := ⟨before, after, hfunction.symm⟩
    have hpoint : Utf8.size ['.'] = 1 := by decide
    have hsize : Utf8.size function =
        Utf8.size before + (1 + Utf8.size method) + Utf8.size after := by
      rw [hfunction, ← List.singleton_append, Utf8.size_append, Utf8.size_append, Utf8.size_append,
        hpoint]
    have hearlier : '.' :: method <:+: function.dropLast ↔ ¬ Utf8.size after = 0 := by
      rw [Utf8.size_eq_zero_iff, Text.eq_nil_iff_of_cutFirst? hmark hcut, not_not]
    simp only [hsomewhere, hearlier, not_true_eq_false, false_and, or_false, decide_eq_true_eq]
    omega

theorem size_lt_of_infix (h : '.' :: method <:+: function) :
    Utf8.size method < Utf8.size function := by
  obtain ⟨before, after, rfl⟩ := h
  have hpoint : Utf8.size ['.'] = 1 := by decide
  rw [← List.singleton_append, Utf8.size_append, Utf8.size_append, Utf8.size_append, hpoint]
  omega

/-- An alias is left out exactly for a function that is named after the method, but for the names of
which this is told wrongly: for these it is the other way round. -/
theorem needsAlias_iff_not_namedAfter_iff :
    (needsAlias function method = true ↔ ¬ NamedAfter function method) ↔
      ¬ Misjudged function method := by
  rw [needsAlias_eq_true_iff, NamedAfter, Misjudged]
  by_cases hsomewhere : '.' :: method <:+: function
  · have hlonger : Utf8.size method < Utf8.size function := size_lt_of_infix hsomewhere
    have hsize : Utf8.size function ≠ Utf8.size method := hlonger.ne'
    have hother : function ≠ method := fun heq => hsize (congrArg Utf8.size heq)
    have hplace : '.' :: method <:+ function ∨ '.' :: method <:+: function.dropLast := by
      rcases List.eq_nil_or_concat function with rfl | ⟨front, c, rfl⟩
      · exact absurd (List.infix_nil.mp hsomewhere) (List.cons_ne_nil '.' method)
      · rw [List.concat_eq_append, List.dropLast_concat]
        exact List.infix_concat_iff.mp (List.concat_eq_append ▸ hsomewhere)
    tauto
  · have hlast : ¬ '.' :: method <:+ function := fun h => hsomewhere h.isInfix
    have hearlier : ¬ '.' :: method <:+: function.dropLast := fun h =>
      hsomewhere (h.trans (List.dropLast_prefix function).isInfix)
    have hsame : function = method → Utf8.size function = Utf8.size method :=
      congrArg Utf8.size
    tauto

end

/-! ### What is written -/

section

variable {site : CallSite} {function method : Text}

theorem render_of_callsMethod (h : CallsMethod site function method) :
    site.render =
      qualifier (site.typeName.filter fun name => !name.isPrefixOf function) ++ function ++
        (if needsAlias function method then " [as ".toList ++ method ++ [']'] else []) ++
        (" (".toList ++ site.renderLocation ++ [')']) := by
  have hfunction : site.functionName.bind Text.filled? = some function := by
    rw [h.functionName, Option.bind_some]
    exact Text.filled?_eq_some_iff.mpr ⟨rfl, h.functionFilled⟩
  have hmethod : site.methodName.bind Text.filled? = some method := by
    rw [h.methodName, Option.bind_some]
    exact Text.filled?_eq_some_iff.mpr ⟨rfl, h.methodFilled⟩
  have hcallee :
      site.callee? = some (renderMethod site.typeName (some function) (some method)) := by
    unfold callee?
    simp only [h.called, h.inside, hfunction, hmethod, Bool.false_eq_true, if_false]
  rw [render, hcallee, renderMethod]
  cases halias : needsAlias function method <;> simp [Option.filter, halias]

end

/-- A method call is written with an alias of the function or without one. That it has one exactly
if the function is not named after the method holds for all names but those of which this is told
wrongly. -/
theorem aliased_iff_not_namedAfter_iff {site : CallSite} {function method : Text}
    (h : CallsMethod site function method) :
    let front := qualifier (site.typeName.filter fun name => !name.isPrefixOf function) ++ function
    let behind := " (".toList ++ site.renderLocation ++ [')']
    let aliased := front ++ (" [as ".toList ++ method ++ [']']) ++ behind
    (site.render = aliased ∨ site.render = front ++ behind) ∧ aliased ≠ front ++ behind ∧
      ((site.render = aliased ↔ ¬ NamedAfter function method) ↔ ¬ Misjudged function method) := by
  intro front behind aliased
  have hdiffer : aliased ≠ front ++ behind := by
    intro heq
    have hlength := congrArg List.length heq
    simp only [aliased, List.length_append, List.length_singleton] at hlength
    omega
  have hrender : site.render = if needsAlias function method then aliased else front ++ behind := by
    rw [render_of_callsMethod h]
    cases needsAlias function method with
    | true => rfl
    | false => exact congrArg (· ++ behind) (List.append_nil front)
  refine ⟨?_, hdiffer, ?_⟩
  · rw [hrender]
    exact ite_eq_or_eq (needsAlias function method = true) aliased (front ++ behind)
  · rw [hrender, hdiffer.ite_eq_left_iff]
    exact needsAlias_iff_not_namedAfter_iff

/-- Two names with as many characters, but not as many bytes. -/
theorem aliased_with_as_many_characters :
    let site : CallSite :=
      { fileName := some "server.js".toList, line := some 4, column := some 2, evalOrigin := none
        functionName := some "größer".toList, typeName := some "Server".toList
        methodName := some "listen".toList, isToplevel := false }
    CallsMethod site "größer".toList "listen".toList ∧
      ¬ Misjudged "größer".toList "listen".toList ∧
      site.render = "Server.größer [as listen] (server.js:4:2)".toList := by
  intro site
  have hcalls : CallsMethod site "größer".toList "listen".toList :=
    ⟨rfl, rfl, rfl, rfl, by decide, by decide⟩
  have hjudged : ¬ Misjudged "größer".toList "listen".toList := by decide
  refine ⟨hcalls, hjudged, ?_⟩
  rw [((aliased_iff_not_namedAfter_iff hcalls).2.2.mpr hjudged).mpr (by decide)]
  decide

/-- A function that is not named after the method is written without an alias if its name is as
long, and one that is named after it is written with one if it is so twice. -/
theorem aliased_exactly_wrongly :
    let site (function : Text) : CallSite :=
      { fileName := some "server.js".toList, line := some 4, column := some 2, evalOrigin := none
        functionName := some function, typeName := some "Server".toList
        methodName := some "listen".toList, isToplevel := false }
    (CallsMethod (site "update".toList) "update".toList "listen".toList ∧
      ¬ NamedAfter "update".toList "listen".toList ∧
      (site "update".toList).render = "Server.update (server.js:4:2)".toList) ∧
    (CallsMethod (site "a.listen.listen".toList) "a.listen.listen".toList "listen".toList ∧
      NamedAfter "a.listen.listen".toList "listen".toList ∧
      (site "a.listen.listen".toList).render =
        "Server.a.listen.listen [as listen] (server.js:4:2)".toList) := by
  intro site
  exact ⟨⟨⟨rfl, rfl, rfl, rfl, by decide, by decide⟩, by decide, by decide⟩,
    ⟨rfl, rfl, rfl, rfl, by decide, by decide⟩, by decide, by decide⟩

end CallSite

end MappedTrace
