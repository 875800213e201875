import MappedTrace.FileSystem.Directory
import MappedTrace.Proofs.Path.Clean
import MappedTrace.Proofs.Text.Utf8

/-!
# Files that are read in a directory

In a directory a path is walked, while files in memory are found by their clean paths. A walk that
comes to a file comes to the names that cleaning leaves of the path, so whatever is read in a
directory is also read from a memory that holds the same files under clean paths. The other way
round a file is read by its clean path, if no other file stands on the way there.
-/

namespace MappedTrace.FileSystem.Directory

open Path.Component

variable {directory : Directory} {path : Text} {names : List Text} {bytes : List UInt8}

/-! ### Walks -/

/-- What is left of a path, the last component first, when one more piece is read. -/
def pushPiece (stack : List Path.Component) (piece : Text) : List Path.Component :=
  match ofPiece? piece with
  | some part => Path.push stack part
  | none => stack

/-- Where the walk along a path may come to when these components are left of it. Nothing is known
of what is left outside. -/
inductive ComesTo (directory : Directory) : List Path.Component → Spot → Prop
  | inside (names : List Text) : ComesTo directory (names.map name).reverse (.inside names)
  | file {names : List Text} {bytes : List UInt8} (held : directory.files.lookup names = some bytes) :
    ComesTo directory (names.map name).reverse (.file bytes)
  | outside (stack : List Path.Component) : ComesTo directory stack .outside

section

variable {stack : List Path.Component} {spot next : Spot} {piece : Text} {pieces : List Text}

theorem step_outside_eq_ok (h : directory.step .outside piece = .ok next) : next = .outside := by
  rw [Directory.step] at h
  split at h
  · exact (Except.ok.inj h).symm
  · split at h
    · contradiction
    · contradiction

theorem comesTo_step_inside (h : directory.step (.inside names) piece = .ok next) :
    directory.ComesTo (pushPiece (names.map name).reverse piece) next := by
  rw [Directory.step] at h
  unfold pushPiece ofPiece?
  split at h
  · rename_i hblank
    rw [if_pos hblank]
    exact Except.ok.inj h ▸ .inside names
  · rename_i hcounts
    rw [if_neg hcounts]
    split at h
    · rename_i hup
      rw [if_pos hup]
      rcases List.eq_nil_or_concat names with rfl | ⟨front, last, rfl⟩
      · exact Except.ok.inj h ▸ .outside _
      · rw [List.concat_eq_append, if_neg (by simp), List.dropLast_concat] at h
        have hleft : Path.push ((front ++ [last]).map name).reverse .up =
            (front.map name).reverse := by
          simp [Path.push]
        rw [List.concat_eq_append]
        dsimp only
        rw [hleft]
        exact Except.ok.inj h ▸ .inside front
    · rename_i hname
      rw [if_neg hname]
      have hleft : Path.push (names.map name).reverse (name piece) =
          ((names ++ [piece]).map name).reverse := by
        simp [Path.push]
      dsimp only
      rw [hleft]
      split at h
      · contradiction
      · dsimp only at h
        split at h
        · rename_i held
          exact Except.ok.inj h ▸ .file held
        · split at h
          · exact Except.ok.inj h ▸ .inside _
          · contradiction

theorem ComesTo.step (h : directory.ComesTo stack spot)
    (hstep : directory.step spot piece = .ok next) :
    directory.ComesTo (pushPiece stack piece) next := by
  cases h with
  | inside names => exact comesTo_step_inside hstep
  | file held => contradiction
  | outside stack => exact step_outside_eq_ok hstep ▸ .outside _

theorem ComesTo.walk {last : Spot} (h : directory.ComesTo stack spot)
    (hwalk : pieces.foldlM directory.step spot = .ok last) :
    directory.ComesTo (pieces.foldl pushPiece stack) last := by
  induction pieces generalizing stack spot with
  | nil => exact Except.ok.inj hwalk ▸ h
  | cons piece rest ih =>
    rw [List.foldlM_cons] at hwalk
    cases hstep : directory.step spot piece with
    | error fault =>
      rw [hstep] at hwalk
      contradiction
    | ok next =>
      rw [hstep] at hwalk
      exact ih (h.step hstep) hwalk

end

theorem normalize_components (path : Text) :
    Path.normalize (Path.components path) =
      ((path.splitOn '/').foldl pushPiece
        (if Path.isAbsolute path then [.root] else [])).reverse := by
  have hpieces (stack : List Path.Component) :
      ((path.splitOn '/').filterMap ofPiece?).foldl Path.push stack =
        (path.splitOn '/').foldl pushPiece stack := by
    rw [List.foldl_filterMap]
    congr 1
    funext stack piece
    rw [pushPiece]
    cases ofPiece? piece with
    | none => rfl
    | some part => rfl
  rw [Path.normalize, Path.components]
  split
  · exact congrArg List.reverse (hpieces [.root])
  · split
    · exact congrArg List.reverse (hpieces [])
    · exact congrArg List.reverse (hpieces [])

theorem find_eq_ok {spot : Spot} (h : directory.find path = .ok spot) :
    directory.ComesTo (Path.normalize (Path.components path)).reverse spot := by
  have hstart : directory.ComesTo (if Path.isAbsolute path then [.root] else [])
      (if Path.isAbsolute path then .outside else .inside []) := by
    split
    · exact .outside _
    · exact .inside []
  rw [normalize_components, List.reverse_reverse]
  rw [find] at h
  split at h
  · contradiction
  · split at h
    · contradiction
    · exact hstart.walk h

/-- The path of a file that is read comes to the names of the file when it is cleaned. -/
theorem exists_names_of_bytes (h : directory.bytes path = .ok bytes) :
    ∃ names, Path.clean path = Path.render (names.map name) ∧
      directory.files.lookup names = some bytes := by
  unfold Directory.bytes at h
  cases hfind : directory.find path with
  | error fault =>
    rw [hfind] at h
    contradiction
  | ok spot =>
    rw [hfind] at h
    have hcomes := find_eq_ok hfind
    cases spot with
    | inside names => contradiction
    | outside => contradiction
    | file found =>
      obtain rfl := Except.ok.inj h
      generalize hstack : (Path.normalize (Path.components path)).reverse = stack at hcomes
      cases hcomes with
      | @file names _ held =>
        rw [List.reverse_inj] at hstack
        exact ⟨names, congrArg Path.render hstack, held⟩

/-! ### Files on the way -/

/-- A file to which names lead, with no other file on the way. -/
structure Stands (directory : Directory) (names : List Text) (bytes : List UInt8) : Prop where
  held : directory.files.lookup names = some bytes
  filled : names ≠ []
  named : ∀ name ∈ names, Path.IsName name ∧ Utf8.size name ≤ 255
  alone : ∀ front, front <+: names → front ≠ names → directory.files.lookup front = none
  brief : Utf8.size (Path.render (names.map name)) < 4096

theorem Stands.step (h : directory.Stands names bytes) {front rest : List Text} {piece : Text}
    (hnames : front ++ piece :: rest = names) :
    directory.step (.inside front) piece =
      .ok (if rest = [] then .file bytes else .inside (front ++ [piece])) := by
  obtain ⟨hpiece, hshort⟩ := h.named piece (by simp [← hnames])
  rw [Directory.step, if_neg (by simp [hpiece.filled, hpiece.notHere]), if_neg hpiece.notUp,
    if_neg (Nat.not_lt.mpr hshort)]
  dsimp only
  by_cases hlast : rest = []
  · subst hlast
    rw [hnames, h.held, if_pos rfl]
  · have hbelow : front ++ [piece] <+: names := ⟨rest, by simpa using hnames⟩
    have hother : front ++ [piece] ≠ names := by
      rw [← hnames]
      simpa using Ne.symm hlast
    obtain ⟨before, behind, hfiles, -⟩ := List.lookup_eq_some_iff.mp h.held
    have hmem : (names, bytes) ∈ directory.files := by simp [hfiles]
    rw [h.alone _ hbelow hother, if_neg hlast]
    dsimp only
    rw [if_pos (List.any_eq_true.mpr ⟨_, hmem, List.isPrefixOf_iff_prefix.mpr hbelow⟩)]

theorem Stands.walk (h : directory.Stands names bytes) {front rest : List Text}
    (hrest : rest ≠ []) (hnames : front ++ rest = names) :
    rest.foldlM directory.step (.inside front) = .ok (.file bytes) := by
  induction rest generalizing front with
  | nil => contradiction
  | cons piece others ih =>
    rw [List.foldlM_cons, h.step hnames]
    by_cases hlast : others = []
    · rw [if_pos hlast, hlast]
      rfl
    · rw [if_neg hlast]
      exact ih hlast (by simpa using hnames)

theorem Stands.bytes_eq (h : directory.Stands names bytes) :
    directory.bytes (Path.render (names.map name)) = .ok bytes := by
  have hfilled : names.map name ≠ [] := by simpa using h.filled
  have hsteps : ∀ part ∈ names.map name, part.IsStep :=
    List.forall_mem_map.mpr fun text htext => .name (h.named text htext).1
  have hpieces : (Path.render (names.map name)).splitOn '/' = names := by
    rw [Path.splitOn_render_steps hfilled hsteps, List.map_map]
    exact List.map_id names
  have hpath : Path.render (names.map name) ≠ [] := by
    intro hempty
    rw [hempty, List.splitOn_nil] at hpieces
    exact (h.named [] (by simp [← hpieces])).1.filled rfl
  rw [Directory.bytes, find, if_neg hpath, if_neg (Nat.not_le.mpr h.brief), hpieces,
    Path.isAbsolute_render_steps hfilled hsteps, if_neg Bool.false_ne_true,
    h.walk h.filled (List.nil_append names)]
  rfl

/-! ### The same files in memory -/

theorem read_eq_ok_iff {contents : Text} :
    directory.fileSystem.read path = .ok contents ↔
      ∃ bytes, directory.bytes path = .ok bytes ∧ Utf8.decode bytes = some contents := by
  dsimp only [fileSystem]
  cases directory.bytes path with
  | error fault => exact ⟨nofun, nofun⟩
  | ok bytes =>
    cases hdecode : Utf8.decode bytes with
    | none => simp [hdecode, bind, Except.bind, throw, throwThe, MonadExceptOf.throw]
    | some text => simp [hdecode, bind, Except.bind, pure, Except.pure]

/-- A memory holds the texts of a directory under the clean paths of their names. -/
def MirroredIn (directory : Directory) (memory : Memory) : Prop :=
  ∀ names bytes, directory.files.lookup names = some bytes →
    memory.files.lookup (Path.render (names.map name)) = Utf8.decode bytes

/-- Texts under names are mirrored by the same texts under the clean paths of these names. -/
theorem mirroredIn_texts (files : List (List Text × Text))
    (h : ∀ entry ∈ files, ∀ text ∈ entry.1, Path.IsName text) :
    MirroredIn ⟨files.map fun entry => (entry.1, Utf8.encode entry.2)⟩
      ⟨files.map fun entry => (Path.render (entry.1.map name), entry.2)⟩ := by
  intro names bytes hheld
  have hnames : ∀ text ∈ names, Path.IsName text := by
    obtain ⟨before, behind, hfiles, -⟩ := List.lookup_eq_some_iff.mp hheld
    have hmem : (names, bytes) ∈ files.map fun entry => (entry.1, Utf8.encode entry.2) := by
      dsimp only at hfiles
      simp [hfiles]
    obtain ⟨entry, hentry, heq⟩ := List.mem_map.mp hmem
    rw [← (Prod.mk.inj heq).1]
    exact h entry hentry
  induction files with
  | nil => contradiction
  | cons entry rest ih =>
    obtain ⟨hentry, hrest⟩ := List.forall_mem_cons.mp h
    dsimp only at hheld ⊢
    rw [List.map_cons, List.lookup_cons] at hheld ⊢
    by_cases hsame : names = entry.1
    · rw [hsame, beq_self_eq_true] at hheld ⊢
      obtain rfl := Option.some.inj hheld
      exact (Utf8.decode_encode entry.2).symm
    · have hother : Path.render (names.map name) ≠ Path.render (entry.1.map name) :=
        fun heq => hsame (Path.render_names_inj hnames hentry heq)
      rw [beq_false_of_ne hsame] at hheld
      rw [beq_false_of_ne hother]
      exact ih hrest hheld

/-- Every text that is read in a directory, by whatever path, is read from memory too. -/
theorem MirroredIn.fetch {memory : Memory} {contents : Text} (h : directory.MirroredIn memory)
    (hfetch : directory.fileSystem.fetch path = .text contents) :
    memory.fileSystem.fetch path = .text contents := by
  obtain ⟨bytes, hbytes, hdecode⟩ := read_eq_ok_iff.mp (fetch_eq_text_iff.mp hfetch).2
  obtain ⟨names, hclean, held⟩ := exists_names_of_bytes hbytes
  rw [Memory.fetch_eq, Memory.contents?, hclean, h names bytes held, hdecode]

/-- A file that stands in a directory is read by its clean path as it is from memory. -/
theorem MirroredIn.fetch_render {memory : Memory} (h : directory.MirroredIn memory)
    (hstands : directory.Stands names bytes) {contents : Text}
    (hdecode : Utf8.decode bytes = some contents) :
    let path := Path.render (names.map name)
    directory.fileSystem.fetch path = .text contents ∧
      memory.fileSystem.fetch path = .text contents := by
  intro path
  have hfetch : directory.fileSystem.fetch path = .text contents := by
    refine fetch_eq_text_iff.mpr ⟨?_, read_eq_ok_iff.mpr ⟨bytes, hstands.bytes_eq, hdecode⟩⟩
    dsimp only [fileSystem]
    rw [hstands.bytes_eq]
    rfl
  exact ⟨hfetch, h.fetch hfetch⟩

end MappedTrace.FileSystem.Directory
