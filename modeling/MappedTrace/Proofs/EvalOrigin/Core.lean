import MappedTrace.Proofs.Text.Cut
import MappedTrace.Relocation

/-!
# The core of an eval origin

Moving an origin asks for at most one position, the one inside its innermost parentheses, and writes
the labels back around whatever it was moved to. So moving an origin, and with it moving a call
site, is a function of how positions are moved.
-/

namespace MappedTrace

namespace EvalOrigin

/-- The labels of an origin, outermost first, and the position inside them, if it is found within
so many levels. -/
def coreWithin? : Nat → Text → Option (List Text × Position)
  | 0, _ => none
  | levels + 1, origin =>
    match parts? origin with
    | none => none
    | some (label, inside) =>
      match position? inside with
      | some position => some ([label], position)
      | none =>
        (coreWithin? levels inside).map fun (labels, position) => (label :: labels, position)

def core? (origin : Text) : Option (List Text × Position) :=
  coreWithin? maxNesting origin

/-- A text inside labels, the outermost of which comes first. -/
def nest (labels : List Text) (inside : Text) : Text :=
  labels.foldr write inside

/-- What labels put in front of a text inside them. -/
def opening (labels : List Text) : Text :=
  labels.flatMap fun label => "eval at ".toList ++ (label ++ " (".toList)

/-- An origin whose position is moved in a given way. -/
def movedBy (move : Position → Position) (origin : Text) : Text :=
  match core? origin with
  | none => origin
  | some (labels, position) => nest labels (move position).render

theorem write_of_parts? {origin label inside : Text} (h : parts? origin = some (label, inside)) :
    write label inside = origin := by
  simp only [parts?, Option.bind_eq_bind, Option.bind_eq_some_iff] at h
  obtain ⟨body, hbody, ⟨front, rest⟩, hcut, name, hname, content, hcontent, h⟩ := h
  have heq : name = label ∧ content = inside := by
    split at h
    · contradiction
    · simpa only [Option.some.injEq, Prod.mk.injEq] using h
  obtain ⟨rfl, rfl⟩ := heq
  have hbody := List.isPrefixOf?_eq_some_iff_append_eq.mp hbody
  have hfront : name ++ [' '] = front := List.isSuffixOf?_eq_some_iff_append_eq.mp hname
  have hrest : content ++ [')'] = rest := List.isSuffixOf?_eq_some_iff_append_eq.mp hcontent
  rw [← hbody, Text.eq_append_of_cutFirst? hcut, ← hfront, ← hrest]
  unfold write
  simp only [List.append_assoc]
  rfl

theorem write_eq (label inside : Text) :
    write label inside = "eval at ".toList ++ (label ++ (" (".toList ++ (inside ++ [')']))) := by
  unfold write
  generalize "eval at ".toList = mark
  generalize " (".toList = before
  simp only [List.append_assoc]

theorem nest_eq (labels : List Text) (inside : Text) :
    nest labels inside = opening labels ++ (inside ++ List.replicate labels.length ')') := by
  induction labels with
  | nil => exact (List.append_nil inside).symm
  | cons label rest ih =>
    have hnest : nest (label :: rest) inside = write label (nest rest inside) := rfl
    rw [hnest, ih, write_eq, opening, opening, List.flatMap_cons, List.length_cons,
      List.replicate_succ']
    generalize "eval at ".toList = mark
    generalize " (".toList = before
    simp only [List.append_assoc]

/-- An origin without a position at its core is written back as it was. -/
theorem relocateWithin_eq (files : FileSystem) (levels : Nat) (origin : Text) :
    relocateWithin files levels origin =
      match coreWithin? levels origin with
      | none => pure origin
      | some (labels, position) =>
        (fun moved => nest labels moved.render) <$> MapCache.relocate files position := by
  induction levels generalizing origin with
  | zero => rfl
  | succ levels ih =>
    rw [relocateWithin, coreWithin?]
    cases hparts : parts? origin with
    | none => rfl
    | some parts =>
      obtain ⟨label, inside⟩ := parts
      dsimp only
      cases hposition : position? inside with
      | some position =>
        dsimp only
        rw [map_eq_pure_bind]
        rfl
      | none =>
        dsimp only
        rw [ih]
        cases coreWithin? levels inside with
        | none => rw [pure_bind, write_of_parts? hparts, Option.map_none]
        | some core =>
          rw [Option.map_some, bind_map_left]
          dsimp only
          rw [map_eq_pure_bind]
          rfl

theorem relocate_eq (files : FileSystem) (origin : Text) :
    relocate files origin =
      match core? origin with
      | none => pure origin
      | some (labels, position) =>
        (fun moved => nest labels moved.render) <$> MapCache.relocate files position :=
  relocateWithin_eq files maxNesting origin

end EvalOrigin

namespace CallSite

def movedBy (move : Position → Position) (site : CallSite) : CallSite :=
  match site.position?, site.evalOrigin with
  | some position, _ => site.moved (.position (move position))
  | none, some origin => site.moved (.evalOrigin (EvalOrigin.movedBy move origin))
  | none, none => site

theorem relocate_eq (files : FileSystem) (site : CallSite) :
    site.relocate files =
      match site.position?, site.evalOrigin with
      | some position, _ =>
        (fun moved => site.moved (.position moved)) <$> MapCache.relocate files position
      | none, some origin =>
        (fun moved => site.moved (.evalOrigin moved)) <$> EvalOrigin.relocate files origin
      | none, none => pure site := by
  unfold relocate relocation?
  cases site.position? with
  | some position => simp
  | none =>
    cases site.evalOrigin with
    | some origin => simp
    | none => simp

end CallSite

end MappedTrace
