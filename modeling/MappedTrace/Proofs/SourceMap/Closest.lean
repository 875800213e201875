import Mathlib.Data.List.Sort
import MappedTrace.SourceMap.Place

/-!
# The closest place

What a lookup among places finds. In ordered things it is the last one that stands at the place or
before it, unless several stand exactly there: then it is the first of these.
-/

namespace MappedTrace.SourceMap.Place

theorem isBefore_asymm {p q : Place} (h : p.isBefore q = true) : q.isBefore p = false := by
  rw [isBefore_iff] at h
  rw [← Bool.not_eq_true, isBefore_iff]
  omega

theorem isBefore_eq_false_trans {p q r : Place} (hqp : q.isBefore p = false)
    (hrq : r.isBefore q = false) : r.isBefore p = false := by
  rw [← Bool.not_eq_true, isBefore_iff] at *
  omega

theorem eq_of_isBefore_eq_false {p q : Place} (hpq : p.isBefore q = false)
    (hqp : q.isBefore p = false) : p = q := by
  rw [← Bool.not_eq_true, isBefore_iff] at hpq hqp
  have hline : p.line.toNat = q.line.toNat := by omega
  have hcolumn : p.column.toNat = q.column.toNat := by omega
  cases p
  cases q
  simp_all [UInt32.toNat_inj]

theorem line_le_of_isBefore_eq_false {p q : Place} (h : q.isBefore p = false) :
    p.line ≤ q.line := by
  rw [← Bool.not_eq_true, isBefore_iff] at h
  rw [UInt32.le_iff_toNat_le]
  omega

section

variable {α : Type} (placeOf : α → Place)

def NoLater (x y : α) : Prop :=
  (placeOf y).isBefore (placeOf x) = false

/-- No thing stands before one that it comes after. -/
def Ordered (things : List α) : Prop :=
  things.Pairwise (NoLater placeOf)

instance : DecidableRel (NoLater placeOf) :=
  fun x y => inferInstanceAs (Decidable ((placeOf y).isBefore (placeOf x) = false))

instance : Std.Total (NoLater placeOf) where
  total x y := by
    cases h : (placeOf y).isBefore (placeOf x) with
    | false => exact .inl h
    | true => exact .inr (isBefore_asymm h)

instance : IsTrans α (NoLater placeOf) where
  trans _ _ _ hxy hyz := isBefore_eq_false_trans hxy hyz

theorem insert_eq_orderedInsert (x : α) (things : List α) :
    insert placeOf x things = things.orderedInsert (NoLater placeOf) x := by
  induction things with
  | nil => rfl
  | cons y rest ih =>
    rw [insert, List.orderedInsert, ih]
    cases h : (placeOf y).isBefore (placeOf x) with
    | true => simp [NoLater, h]
    | false => simp [NoLater, h]

theorem sort_eq_insertionSort (things : List α) :
    sort placeOf things = things.insertionSort (NoLater placeOf) := by
  have hinsert : insert placeOf = List.orderedInsert (NoLater placeOf) :=
    funext₂ (insert_eq_orderedInsert placeOf)
  rw [sort, hinsert, List.insertionSort]

end

variable {α β : Type} {placeOf : α → Place} {place : Place} {things : List α} {x : α}

theorem closest?_map (placeOf : β → Place) (f : α → β) :
    closest? placeOf place (things.map f) = (closest? (placeOf ∘ f) place things).map f := by
  rw [closest?, closest?, List.find?_map, List.takeWhile_map, List.getLast?_map]
  simp only [Function.comp_def]
  cases things.find? fun y => placeOf (f y) = place with
  | some y => rfl
  | none => rfl

/-- A thing that is found is one of the things, and does not stand after the place. -/
theorem mem_of_closest? (h : closest? placeOf place things = some x) :
    x ∈ things ∧ place.isBefore (placeOf x) = false := by
  rw [closest?] at h
  cases hfind : things.find? fun y => placeOf y = place with
  | some y =>
    rw [hfind] at h
    obtain rfl : y = x := Option.some.inj h
    have hexact : placeOf y = place := by simpa using List.find?_some hfind
    refine ⟨List.mem_of_find?_eq_some hfind, ?_⟩
    rw [hexact, ← Bool.not_eq_true, isBefore_iff]
    omega
  | none =>
    rw [hfind] at h
    have hmem : x ∈ things.takeWhile fun y => (placeOf y).isBefore place := List.mem_of_getLast? h
    have hbefore : (placeOf x).isBefore place = true :=
      List.all_eq_true.mp List.all_takeWhile x hmem
    exact ⟨(List.takeWhile_prefix _).subset hmem, isBefore_asymm hbefore⟩

private theorem takeWhile_eq_filter {p : α → Bool} (h : things.Pairwise fun x y => p y → p x) :
    things.takeWhile p = things.filter p := by
  induction things with
  | nil => rfl
  | cons y rest ih =>
    obtain ⟨hy, hrest⟩ := List.pairwise_cons.mp h
    cases hp : p y with
    | true => simp [hp, ih hrest]
    | false =>
      have hnone : rest.filter p = [] := by
        rw [List.filter_eq_nil_iff]
        intro z hz hpz
        simp [hy z hz hpz] at hp
      simp [hp, hnone]

theorem takeWhile_isBefore_eq_filter (h : Ordered placeOf things) (place : Place) :
    (things.takeWhile fun x => (placeOf x).isBefore place) =
      things.filter fun x => (placeOf x).isBefore place := by
  apply takeWhile_eq_filter
  apply h.imp
  intro x y hxy hy
  rw [NoLater, ← Bool.not_eq_true] at hxy
  rw [isBefore_iff] at *
  omega

theorem Ordered.isBefore_getLast? {y : α} (h : Ordered placeOf things)
    (hlast : things.getLast? = some x) (hy : y ∈ things) :
    (placeOf x).isBefore (placeOf y) = false := by
  obtain ⟨front, rfl⟩ := List.getLast?_eq_some_iff.mp hlast
  rcases List.mem_append.mp hy with hfront | hend
  · exact (List.pairwise_append.mp h).2.2 y hfront x (List.mem_singleton_self x)
  · rw [List.mem_singleton.mp hend, ← Bool.not_eq_true, isBefore_iff]
    omega

theorem isBefore_of_reached {y : α} (hne : placeOf y ≠ place)
    (hreached : place.isBefore (placeOf y) = false) : (placeOf y).isBefore place = true := by
  rw [← Bool.not_eq_false]
  intro hlater
  exact hne (eq_of_isBefore_eq_false hlater hreached)

/-- Of ordered things that are reached none stands after the one that is found. -/
theorem isBefore_closest? {y : α} (hordered : Ordered placeOf things)
    (h : closest? placeOf place things = some x) (hy : y ∈ things)
    (hreached : place.isBefore (placeOf y) = false) : (placeOf x).isBefore (placeOf y) = false := by
  rw [closest?] at h
  cases hfind : things.find? fun z => placeOf z = place with
  | some z =>
    rw [hfind] at h
    obtain rfl : z = x := Option.some.inj h
    have hexact : placeOf z = place := by simpa using List.find?_some hfind
    rwa [hexact]
  | none =>
    rw [hfind] at h
    dsimp only at h
    rw [takeWhile_isBefore_eq_filter hordered] at h
    have hne : placeOf y ≠ place := by simpa using List.find?_eq_none.mp hfind y hy
    have hbefore : Ordered placeOf (things.filter fun z => (placeOf z).isBefore place) :=
      hordered.filter _
    exact hbefore.isBefore_getLast? h
      (List.mem_filter.mpr ⟨hy, isBefore_of_reached hne hreached⟩)

theorem isBefore_of_closest?_eq_none {y : α} (hordered : Ordered placeOf things)
    (h : closest? placeOf place things = none) (hy : y ∈ things) :
    place.isBefore (placeOf y) = true := by
  rw [closest?] at h
  cases hfind : things.find? fun z => placeOf z = place with
  | some z => simp [hfind] at h
  | none =>
    rw [hfind] at h
    dsimp only at h
    rw [takeWhile_isBefore_eq_filter hordered, List.getLast?_eq_none_iff,
      List.filter_eq_nil_iff] at h
    have hne : placeOf y ≠ place := by simpa using List.find?_eq_none.mp hfind y hy
    rw [← Bool.not_eq_false]
    intro hreached
    exact h y hy (isBefore_of_reached hne hreached)

private theorem eq_of_mem_of_length_le_one {y : α} (h : things.length ≤ 1) (hx : x ∈ things)
    (hy : y ∈ things) : x = y := by
  match things with
  | [] => cases hx
  | [z] => rw [List.mem_singleton.mp hx, List.mem_singleton.mp hy]
  | _ :: _ :: _ => simp at h

def lastReached? (placeOf : α → Place) (place : Place) (things : List α) : Option α :=
  (things.filter fun x => !place.isBefore (placeOf x)).getLast?

theorem closest?_eq_lastReached? (hordered : Ordered placeOf things)
    (hsingle : (things.filter fun x => placeOf x = place).length ≤ 1) :
    closest? placeOf place things = lastReached? placeOf place things := by
  rw [closest?, lastReached?]
  cases hfind : things.find? fun x => placeOf x = place with
  | none =>
    have hnone := List.find?_eq_none.mp hfind
    dsimp only
    rw [takeWhile_isBefore_eq_filter hordered]
    congr 1
    apply List.filter_congr
    intro x hx
    have hne : placeOf x ≠ place := by simpa using hnone x hx
    cases hbefore : (placeOf x).isBefore place with
    | true => simp [isBefore_asymm hbefore]
    | false =>
      cases hafter : place.isBefore (placeOf x) with
      | true => rfl
      | false => exact absurd (eq_of_isBefore_eq_false hbefore hafter) hne
  | some x =>
    have hexact : placeOf x = place := by simpa using List.find?_some hfind
    have hmem := List.mem_of_find?_eq_some hfind
    have hkept : x ∈ things.filter fun y => !place.isBefore (placeOf y) := by
      refine List.mem_filter.mpr ⟨hmem, ?_⟩
      rw [hexact, Bool.not_eq_true', ← Bool.not_eq_true, isBefore_iff]
      omega
    cases hlast : (things.filter fun y => !place.isBefore (placeOf y)).getLast? with
    | none => simp [List.getLast?_eq_none_iff.mp hlast] at hkept
    | some y =>
      have hy := List.mem_filter.mp (List.mem_of_getLast? hlast)
      have hsorted : Ordered placeOf (things.filter fun z => !place.isBefore (placeOf z)) :=
        hordered.filter _
      have hyplace : placeOf y = place := by
        have hyx := hsorted.isBefore_getLast? hlast hkept
        rw [hexact] at hyx
        exact eq_of_isBefore_eq_false hyx (by simpa using hy.2)
      exact congrArg some (eq_of_mem_of_length_le_one hsingle
        (List.mem_filter.mpr ⟨hmem, by simpa using hexact⟩)
        (List.mem_filter.mpr ⟨hy.1, by simpa using hyplace⟩))

end MappedTrace.SourceMap.Place
