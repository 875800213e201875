import MappedTrace.Text.Basic

/-!
# Places in generated code

Lines and columns are both counted from zero here, and places are ordered line by line. A lookup
takes the first thing that stands exactly at a place, or else the last one before it.
-/

namespace MappedTrace.SourceMap

structure Place where
  line : UInt32
  column : UInt32
deriving DecidableEq, Repr

namespace Place

def isBefore (p q : Place) : Bool :=
  p.line < q.line || (p.line = q.line && p.column < q.column)

theorem isBefore_iff {p q : Place} :
    p.isBefore q = true ↔ p.line.toNat < q.line.toNat ∨
      (p.line.toNat = q.line.toNat ∧ p.column.toNat < q.column.toNat) := by
  simp [isBefore, UInt32.lt_iff_toNat_lt, UInt32.toNat_inj]

section

variable {α : Type} (placeOf : α → Place)

/-- Puts a thing in front of the first one that does not stand before it. -/
def insert (x : α) : List α → List α
  | [] => [x]
  | y :: rest => if (placeOf y).isBefore (placeOf x) then y :: insert x rest else x :: y :: rest

/-- Orders things by their places. Those at the same place stay as they were. -/
def sort (things : List α) : List α :=
  things.foldr (insert placeOf) []

/-- The first thing exactly at a place, else the last one before it. -/
def closest? (place : Place) (things : List α) : Option α :=
  match things.find? fun x => placeOf x = place with
  | some x => some x
  | none => (things.takeWhile fun x => (placeOf x).isBefore place).getLast?

end

end Place

end MappedTrace.SourceMap
