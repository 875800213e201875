import MappedTrace.Proofs.MapCache.Inline
import MappedTrace.Proofs.Report.Header
import MappedTrace.Proofs.Text.LineEnds

/-!
# The line of source that is shown

A source is shown alike however its lines end, in one way or in several. In a source whose lines end
at line feeds these lines are counted from one, and each of them is shown unless it is empty.
-/

namespace MappedTrace.Report

variable {files : FileSystem} {position : Position} {contents text : Text} {texts : List Text}
  {line : UInt32}

theorem lineOf?_withLineFeeds (contents : Text) (line : UInt32) :
    lineOf? contents.withLineFeeds line = lineOf? contents line := by
  rw [lineOf?, lineOf?, Text.lines_withLineFeeds]

theorem lineOf?_intercalate_eq_some_iff (hends : ∀ text ∈ texts, '\r' ∉ text ∧ '\n' ∉ text) :
    lineOf? (['\n'].intercalate texts) line = some text ↔
      ∃ i, ∃ _ : i < texts.length, line.toNat = i + 1 ∧ texts[i] = text ∧ text ≠ [] := by
  have hcounted : 1 ≤ line ↔ 1 ≤ line.toNat := UInt32.le_iff_toNat_le
  rw [lineOf?_eq_some_iff, hcounted]
  by_cases hempty : texts = []
  · subst hempty
    refine iff_of_false ?_ ?_
    · rintro ⟨-, hline, hfilled⟩
      exact hfilled (List.mem_singleton.mp (List.mem_of_getElem? hline))
    · rintro ⟨i, hi, -⟩
      exact absurd hi (Nat.not_lt_zero i)
  · rw [Text.lines_intercalate hempty hends]
    constructor
    · rintro ⟨hone, hline, hfilled⟩
      obtain ⟨hi, hline⟩ := List.getElem?_eq_some_iff.mp hline
      exact ⟨line.toNat - 1, hi, by omega, hline, hfilled⟩
    · rintro ⟨i, hi, hnumber, hline, hfilled⟩
      refine ⟨by omega, ?_, hfilled⟩
      rw [hnumber, Nat.add_sub_cancel, List.getElem?_eq_getElem hi, hline]

theorem run_sourceLine? (h : files.Holds position.source contents) (cache : MapCache) :
    (sourceLine? files position).run cache =
      (lineOf? contents position.line,
        { cache with reads := cache.reads + 1, asked := position.source :: cache.asked }) := by
  have hfetch : files.fetch position.source = .text contents :=
    FileSystem.fetch_eq_text_iff.mpr h
  rw [sourceLine?, MapCache.run_bind (MapCache.run_fetch files position.source cache),
    MapCache.fetched, hfetch]
  rfl

/-- The line of source at a position does not depend on which line ends the source has. Where these
are line feeds it is the line of that number, if it is there and not empty. -/
theorem sourceLine?_whatever_line_ends (position : Position) (cache : MapCache) :
    (∀ (files other : FileSystem) (contents : Text), files.Holds position.source contents →
      other.Holds position.source contents.withLineFeeds →
        (sourceLine? other position).run cache = (sourceLine? files position).run cache) ∧
    ∀ (files : FileSystem) (texts : List Text),
      (∀ text ∈ texts, '\r' ∉ text ∧ '\n' ∉ text) →
      files.Holds position.source (['\n'].intercalate texts) →
        let shown := ((sourceLine? files position).run cache).1
        (∀ text, shown = some text ↔
          ∃ i, ∃ _ : i < texts.length,
            position.line.toNat = i + 1 ∧ texts[i] = text ∧ text ≠ []) ∧
        (shown = none ↔
          ∀ i, ∀ _ : i < texts.length, position.line.toNat = i + 1 → texts[i] = []) := by
  constructor
  · intro files other contents hfiles hother
    rw [run_sourceLine? hfiles, run_sourceLine? hother, lineOf?_withLineFeeds]
  · intro files texts hends hfiles shown
    have hline : shown = lineOf? (['\n'].intercalate texts) position.line :=
      congrArg Prod.fst (run_sourceLine? hfiles cache)
    have hshown : ∀ text, shown = some text ↔
        ∃ i, ∃ _ : i < texts.length,
          position.line.toNat = i + 1 ∧ texts[i] = text ∧ text ≠ [] := by
      intro text
      rw [hline, lineOf?_intercalate_eq_some_iff hends]
    refine ⟨hshown, ?_⟩
    rw [Option.eq_none_iff_forall_ne_some]
    constructor
    · intro hnone i hi hnumber
      by_contra hfilled
      exact hnone texts[i] ((hshown _).mpr ⟨i, hi, hnumber, rfl, hfilled⟩)
    · intro hempty text htext
      obtain ⟨i, hi, hnumber, rfl, hfilled⟩ := (hshown text).mp htext
      exact hfilled (hempty i hi hnumber)

/-- Five lines end in four ways, and all but the first and the last are empty. -/
theorem sourceLine?_behind_mixed_line_ends :
    let contents : Text := "one();\r\r\n\n\rfive();".toList
    let mixed : FileSystem.Memory := { files := [("a.ts".toList, contents)] }
    let plain : FileSystem.Memory := { files := [("a.ts".toList, contents.withLineFeeds)] }
    let texts : List Text := ["one();".toList, [], [], [], "five();".toList]
    let position (line : UInt32) : Position := ⟨"a.ts".toList, line, 0⟩
    let shown (line : UInt32) := ((sourceLine? mixed.fileSystem (position line)).run {}).1
    contents.withLineFeeds = ['\n'].intercalate texts ∧
      (∀ text ∈ texts, '\r' ∉ text ∧ '\n' ∉ text) ∧
      (∀ line, mixed.fileSystem.Holds (position line).source contents ∧
        plain.fileSystem.Holds (position line).source contents.withLineFeeds) ∧
      shown 5 = some "five();".toList ∧ shown 0 = none ∧ shown 3 = none ∧ shown 6 = none := by
  intro contents mixed plain texts position shown
  have hcontents : contents.withLineFeeds = ['\n'].intercalate texts := by decide
  have hends : ∀ text ∈ texts, '\r' ∉ text ∧ '\n' ∉ text := by decide
  have hmixed : mixed.fileSystem.Holds "a.ts".toList contents := ⟨by decide, rfl⟩
  have hplain : plain.fileSystem.Holds "a.ts".toList contents.withLineFeeds := ⟨by decide, rfl⟩
  have hsame (line : UInt32) :
      shown line = ((sourceLine? plain.fileSystem (position line)).run {}).1 :=
    (congrArg Prod.fst
      ((sourceLine?_whatever_line_ends (position line) {}).1 _ _ contents hmixed hplain)).symm
  have hlines (line : UInt32) :=
    (sourceLine?_whatever_line_ends (position line) {}).2 plain.fileSystem texts hends
      (hcontents ▸ hplain)
  refine ⟨hcontents, hends, fun _ => ⟨hmixed, hplain⟩, ?_, ?_, ?_, ?_⟩
  · rw [hsame]
    exact ((hlines 5).1 _).mpr ⟨4, by decide, rfl, rfl, by decide⟩
  · rw [hsame]
    exact (hlines 0).2.mpr (by decide)
  · rw [hsame]
    exact (hlines 3).2.mpr (by decide)
  · rw [hsame]
    exact (hlines 6).2.mpr (by decide)

end MappedTrace.Report
