import MappedTrace.Directive
import MappedTrace.Proofs.Text.Lines

/-!
# Clean paths

A clean path goes up some times, or starts at the root, and then down through names. Cleaning brings
the components of any path into this form, and a path of this form is written so that the same
components are read from it again. Hence a clean path stays as it is when it is cleaned once more.
Two paths that come to one clean path, and both end in a name, lie in directories that come to one
clean path too, so that whatever is named relative to one of them is the same file as relative to
the other.
-/

namespace MappedTrace

namespace Path

/-- A piece between slashes that names something. -/
structure IsName (text : Text) : Prop where
  filled : text ≠ []
  notHere : text ≠ ['.']
  notUp : text ≠ ['.', '.']
  closed : '/' ∉ text

namespace Component

/-- A component that leads somewhere else. -/
inductive IsStep : Component → Prop
  | up : IsStep .up
  | name {text : Text} (named : IsName text) : IsStep (.name text)

variable {part : Component} {parts : List Component} {piece : Text}

theorem IsStep.slash_not_mem_render (h : part.IsStep) : '/' ∉ part.render := by
  cases h with
  | up => decide
  | name named => exact named.closed

theorem IsStep.render_counts (h : part.IsStep) : part.render ≠ [] ∧ part.render ≠ ['.'] := by
  cases h with
  | up => decide
  | name named => exact ⟨named.filled, named.notHere⟩

theorem IsStep.ofPiece?_render (h : part.IsStep) : ofPiece? part.render = some part := by
  cases h with
  | up => rfl
  | name named => simp [ofPiece?, Component.render, named.filled, named.notHere, named.notUp]

theorem filterMap_ofPiece?_render (h : ∀ part ∈ parts, part.IsStep) :
    (parts.map Component.render).filterMap ofPiece? = parts := by
  induction parts with
  | nil => rfl
  | cons part rest ih =>
    obtain ⟨hpart, hrest⟩ := List.forall_mem_cons.mp h
    rw [List.map_cons, List.filterMap_cons_some hpart.ofPiece?_render, ih hrest]

theorem isStep_of_ofPiece? (hclosed : '/' ∉ piece) (h : ofPiece? piece = some part) :
    part.IsStep := by
  unfold ofPiece? at h
  split at h
  · contradiction
  · rename_i hcounts
    simp only [Bool.or_eq_true, decide_eq_true_eq, not_or] at hcounts
    split at h
    · exact Option.some.inj h ▸ .up
    · rename_i hother
      exact Option.some.inj h ▸ .name ⟨hcounts.1, hcounts.2, hother, hclosed⟩

end Component

/-! ### What is read from a path -/

/-- Components that a path can have: the root only in front. -/
inductive Sound : List Component → Prop
  | relative {parts : List Component} (steps : ∀ part ∈ parts, part = .here ∨ part.IsStep) :
    Sound parts
  | absolute {parts : List Component} (steps : ∀ part ∈ parts, part = .here ∨ part.IsStep) :
    Sound (.root :: parts)

section

variable {parts others : List Component} {path : Text}

theorem isStep_of_mem_pieces (path : Text) :
    ∀ part ∈ (path.splitOn '/').filterMap Component.ofPiece?, part.IsStep := by
  intro part hpart
  obtain ⟨piece, hpiece, hread⟩ := List.mem_filterMap.mp hpart
  exact Component.isStep_of_ofPiece? (Text.not_mem_of_mem_splitOn '/' path piece hpiece) hread

theorem forall_mem_components (h : isAbsolute path = false) :
    ∀ part ∈ components path, part = .here ∨ part.IsStep := by
  have hsteps : ∀ part ∈ (path.splitOn '/').filterMap Component.ofPiece?,
      part = .here ∨ part.IsStep := fun part hpart => .inr (isStep_of_mem_pieces path part hpart)
  simp only [components, h, Bool.false_eq_true, if_false]
  split
  · exact List.forall_mem_cons.mpr ⟨.inl rfl, hsteps⟩
  · exact hsteps

theorem sound_components (path : Text) : Sound (components path) := by
  cases habsolute : isAbsolute path with
  | false => exact .relative (forall_mem_components habsolute)
  | true =>
    simp only [components, habsolute, if_true]
    exact .absolute fun part hpart => .inr (isStep_of_mem_pieces path part hpart)

theorem Sound.dropLast (h : Sound parts) : Sound parts.dropLast := by
  cases h with
  | relative steps => exact .relative fun part hpart => steps part (List.dropLast_subset _ hpart)
  | @absolute rest steps =>
    cases rest with
    | nil => exact .relative (by simp)
    | cons part rest =>
      exact .absolute fun part hpart => steps part (List.dropLast_subset _ hpart)

theorem sound_parent (path : Text) : Sound (parent path) := by
  unfold parent
  dsimp only
  split
  · exact .relative (by simp)
  · exact (sound_components path).dropLast

theorem Sound.append (h : Sound parts)
    (hothers : ∀ part ∈ others, part = .here ∨ part.IsStep) : Sound (parts ++ others) := by
  cases h with
  | relative steps => exact .relative (List.forall_mem_append.mpr ⟨steps, hothers⟩)
  | absolute steps => exact .absolute (List.forall_mem_append.mpr ⟨steps, hothers⟩)

end

/-! ### The clean form -/

/-- The components of a clean path, last component first. -/
inductive Settled : List Component → Prop
  | empty : Settled []
  | root : Settled [.root]
  | up {stack : List Component} (below : Settled stack) (ups : ∀ part ∈ stack, part = .up) :
    Settled (.up :: stack)
  | name {stack : List Component} {text : Text} (below : Settled stack) (named : IsName text) :
    Settled (.name text :: stack)

section

variable {stack parts others : List Component} {part : Component}

theorem Settled.push (h : Settled stack) (hpart : part = .here ∨ part.IsStep) :
    Settled (push stack part) := by
  rcases hpart with rfl | hstep
  · exact h
  · cases hstep with
    | name named => exact .name h named
    | up =>
      cases h with
      | empty => exact .up .empty (by simp)
      | root => exact .root
      | up below ups => exact .up (.up below ups) (List.forall_mem_cons.mpr ⟨rfl, ups⟩)
      | name below named => exact below

theorem Settled.foldl_push (h : Settled stack)
    (hparts : ∀ part ∈ parts, part = .here ∨ part.IsStep) :
    Settled (parts.foldl Path.push stack) := by
  induction parts generalizing stack with
  | nil => exact h
  | cons part rest ih =>
    obtain ⟨hpart, hrest⟩ := List.forall_mem_cons.mp hparts
    exact ih (h.push hpart) hrest

theorem Sound.settled (h : Sound parts) : Settled (normalize parts).reverse := by
  rw [normalize, List.reverse_reverse]
  cases h with
  | relative steps => exact Settled.empty.foldl_push steps
  | absolute steps => exact Settled.root.foldl_push steps

/-- Nothing cancels in what is clean. -/
theorem Settled.foldl_push_reverse (h : Settled stack) :
    stack.reverse.foldl Path.push [] = stack := by
  induction h with
  | empty => rfl
  | root => rfl
  | @up stack below ups ih =>
    rw [List.reverse_cons, List.foldl_append, ih]
    cases stack with
    | nil => rfl
    | cons part rest =>
      obtain rfl := ups part List.mem_cons_self
      rfl
  | name below named ih =>
    rw [List.reverse_cons, List.foldl_append, ih]
    rfl

theorem normalize_eq_self (h : Settled parts.reverse) : normalize parts = parts := by
  have hfold := h.foldl_push_reverse
  rw [List.reverse_reverse] at hfold
  rw [normalize, hfold, List.reverse_reverse]

theorem Settled.steps (h : Settled stack) :
    (∀ part ∈ stack, part.IsStep) ∨
      ∃ rest, stack = rest ++ [.root] ∧ ∀ part ∈ rest, part.IsStep := by
  induction h with
  | empty => exact .inl (by simp)
  | root => exact .inr ⟨[], rfl, by simp⟩
  | up below ups ih =>
    refine .inl (List.forall_mem_cons.mpr ⟨.up, fun part hpart => ?_⟩)
    rw [ups part hpart]
    exact .up
  | name below named ih =>
    rcases ih with hsteps | ⟨rest, rfl, hsteps⟩
    · exact .inl (List.forall_mem_cons.mpr ⟨.name named, hsteps⟩)
    · exact .inr ⟨_ :: rest, rfl, List.forall_mem_cons.mpr ⟨.name named, hsteps⟩⟩

end

/-! ### What is read from a clean path -/

section

variable {parts : List Component} {path other : Text}

theorem isAbsolute_eq_false (h : (path.splitOn '/').head? ≠ some []) :
    isAbsolute path = false := by
  rw [isAbsolute, decide_eq_false_iff_not]
  intro hroot
  obtain ⟨rest, rfl⟩ := List.head?_eq_some_iff.mp hroot
  rw [List.splitOn_cons_eq_if_modifyHead] at h
  exact h rfl

theorem splitOn_render_steps (hfilled : parts ≠ []) (h : ∀ part ∈ parts, part.IsStep) :
    (render parts).splitOn '/' = parts.map Component.render := by
  have hclosed : ∀ piece ∈ parts.map Component.render, '/' ∉ piece :=
    List.forall_mem_map.mpr fun part hpart => (h part hpart).slash_not_mem_render
  have hrender : render parts = ['/'].intercalate (parts.map Component.render) := by
    unfold render
    split
    · contradiction
    · have hroot := h .root List.mem_cons_self
      contradiction
    · rfl
  rw [hrender]
  exact List.splitOn_intercalate '/' hclosed (by simpa using hfilled)

theorem isAbsolute_render_steps (hfilled : parts ≠ []) (h : ∀ part ∈ parts, part.IsStep) :
    isAbsolute (render parts) = false := by
  apply isAbsolute_eq_false
  rw [splitOn_render_steps hfilled h]
  obtain ⟨first, rest, rfl⟩ := List.exists_cons_of_ne_nil hfilled
  simpa using (h first List.mem_cons_self).render_counts.1

theorem components_render_steps (hfilled : parts ≠ []) (h : ∀ part ∈ parts, part.IsStep) :
    components (render parts) = parts := by
  have hpieces := splitOn_render_steps hfilled h
  have hrelative := isAbsolute_render_steps hfilled h
  have hread := Component.filterMap_ofPiece?_render h
  obtain ⟨first, rest, rfl⟩ := List.exists_cons_of_ne_nil hfilled
  simp only [components, hrelative, hpieces, hread, Bool.false_eq_true, if_false]
  rw [if_neg]
  simpa using (h first List.mem_cons_self).render_counts.2

theorem components_render_root (h : ∀ part ∈ parts, part.IsStep) :
    components (render (.root :: parts)) = .root :: parts := by
  cases parts with
  | nil => rfl
  | cons first rest =>
    have hrender : render (.root :: first :: rest) =
        ['/'].intercalate ([] :: (first :: rest).map Component.render) := rfl
    have hclosed : ∀ piece ∈ [] :: (first :: rest).map Component.render, '/' ∉ piece := by
      refine List.forall_mem_cons.mpr ⟨List.not_mem_nil, ?_⟩
      exact List.forall_mem_map.mpr fun part hpart => (h part hpart).slash_not_mem_render
    have hpieces : (render (.root :: first :: rest)).splitOn '/' =
        [] :: (first :: rest).map Component.render := by
      rw [hrender]
      exact List.splitOn_intercalate '/' hclosed (List.cons_ne_nil _ _)
    have habsolute : isAbsolute (render (.root :: first :: rest)) = true := by
      rw [hrender, List.map_cons, List.intercalate_cons_of_ne_nil (List.cons_ne_nil _ _)]
      rfl
    have hread := Component.filterMap_ofPiece?_render h
    have hempty : Component.ofPiece? [] = none := rfl
    simp only [components, habsolute, hpieces, if_true, List.filterMap_cons_none hempty, hread]

/-- A path that is written cleanly is read, and cleaned, as what it was written from. -/
theorem normalize_components_render (h : Settled parts.reverse) :
    normalize (components (render parts)) = parts := by
  by_cases hempty : parts = []
  · rw [hempty]
    rfl
  · have hread : components (render parts) = parts := by
      rcases h.steps with hsteps | ⟨rest, hrest, hsteps⟩
      · exact components_render_steps hempty (by simpa using hsteps)
      · rw [List.reverse_eq_iff, List.reverse_append] at hrest
        rw [hrest]
        exact components_render_root (by simpa using hsteps)
    rw [hread, normalize_eq_self h]

theorem normalize_components_render_names {names : List Text} (h : ∀ text ∈ names, IsName text) :
    normalize (components (render (names.map .name))) = names.map .name := by
  have hsettled (texts : List Text) (htexts : ∀ text ∈ texts, IsName text) :
      Settled (texts.map .name) := by
    induction texts with
    | nil => exact .empty
    | cons text rest ih =>
      obtain ⟨htext, hrest⟩ := List.forall_mem_cons.mp htexts
      exact .name (ih hrest) htext
  apply normalize_components_render
  rw [← List.map_reverse]
  exact hsettled names.reverse (by simpa using h)

theorem render_names_inj {names others : List Text} (hnames : ∀ text ∈ names, IsName text)
    (hothers : ∀ text ∈ others, IsName text)
    (h : render (names.map .name) = render (others.map .name)) : names = others := by
  have hparts : names.map Component.name = others.map Component.name := by
    rw [← normalize_components_render_names hnames, h, normalize_components_render_names hothers]
  exact (List.map_inj_right fun _ _ => Component.name.inj).mp hparts

theorem clean_render (h : Settled parts.reverse) : clean (render parts) = render parts := by
  rw [clean, normalize_components_render h]

theorem clean_clean (path : Text) : clean (clean path) = clean path :=
  clean_render (sound_components path).settled

theorem clean_beside (file : Text) {relative : Text} (h : isAbsolute relative = false) :
    clean (beside file relative) = beside file relative :=
  clean_render ((sound_parent file).append (forall_mem_components h)).settled

theorem normalize_components_eq (h : clean path = clean other) :
    normalize (components path) = normalize (components other) := by
  rw [← normalize_components_render (sound_components path).settled,
    ← normalize_components_render (sound_components other).settled]
  exact congrArg (normalize ∘ components) h

/-! ### Files beside each other -/

def EndsInName (path : Text) : Prop :=
  ∃ text, (components path).getLast? = some (.name text)

theorem EndsInName.components_eq (h : EndsInName path) :
    ∃ text, components path = parent path ++ [.name text] := by
  obtain ⟨text, hlast⟩ := h
  obtain ⟨front, hfront⟩ := List.getLast?_eq_some_iff.mp hlast
  refine ⟨text, ?_⟩
  simp [parent, hfront]

theorem normalize_concat_name (parts : List Component) (text : Text) :
    normalize (parts ++ [.name text]) = normalize parts ++ [.name text] := by
  rw [normalize, List.foldl_append, List.foldl_cons, List.foldl_nil, push, List.reverse_cons,
    normalize]

theorem normalize_parent_eq (h : clean path = clean other) (hpath : EndsInName path)
    (hother : EndsInName other) : normalize (parent path) = normalize (parent other) := by
  obtain ⟨text, hparts⟩ := hpath.components_eq
  obtain ⟨name, hnames⟩ := hother.components_eq
  have hsame := normalize_components_eq h
  rw [hparts, hnames, normalize_concat_name, normalize_concat_name] at hsame
  exact (List.append_inj' hsame rfl).1

theorem normalize_append (parts others : List Component) :
    normalize (parts ++ others) = (others.foldl push (normalize parts).reverse).reverse := by
  rw [normalize, List.foldl_append, normalize, List.reverse_reverse]

theorem beside_eq (h : clean path = clean other) (hpath : EndsInName path)
    (hother : EndsInName other) (relative : Text) :
    beside path relative = beside other relative := by
  rw [beside, beside, normalize_append, normalize_append, normalize_parent_eq h hpath hother]

end

end Path

namespace Directive

theorem clean_of_locate_eq_file {generated url path : Text}
    (h : locate generated url = .file path) : Path.clean path = path := by
  unfold locate at h
  split at h
  · contradiction
  · split at h
    · rw [← Location.file.inj h]
      exact Path.clean_clean url
    · rename_i hrelative
      rw [← Location.file.inj h]
      exact Path.clean_beside generated (Bool.eq_false_iff.mpr hrelative)

/-- A url leads to the same place from two paths of one file. -/
theorem locate_eq {generated other : Text} (h : Path.clean generated = Path.clean other)
    (hgenerated : Path.EndsInName generated) (hother : Path.EndsInName other) (url : Text) :
    locate generated url = locate other url := by
  rw [locate, locate, Path.beside_eq h hgenerated hother]

end Directive

end MappedTrace
