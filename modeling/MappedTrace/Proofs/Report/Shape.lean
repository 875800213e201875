import MappedTrace.Proofs.Report.Header

/-!
# The shape of a report

A report is a header and the stack as it was given. There is a header exactly if the frame at the
top of the stack leads to a line of source with something on it, and then it shows that line as it
is, with the caret below the column or, where the column lies further out, right behind the line.
-/

namespace MappedTrace.Report

/-- The frame at the top of a stack leads to a position, and there to a line of text. -/
structure LeadsTo (files : FileSystem) (stack : Text) (position : Position) (text : Text) :
    Prop where
  top : ∃ printed, topPosition? stack = some printed ∧
    ((MapCache.relocate files printed).run {}).1 = position
  counted : 1 ≤ position.line
  line : ∃ contents, files.isFile position.source = true ∧
    files.read position.source = .ok contents ∧
    (Text.lines contents)[position.line.toNat - 1]? = some text
  filled : text ≠ []

variable {files : FileSystem} {stack text : Text} {position : Position}

theorem leadsTo_iff :
    LeadsTo files stack position text ↔ top? files stack = some (position, text) := by
  constructor
  · rintro ⟨⟨printed, htop, hmoved⟩, hcounted, ⟨contents, hpresent, hreadable, hline⟩, hfilled⟩
    have hshown : lineAt? files position = some text :=
      lineAt?_eq_some_iff.mpr ⟨contents, hpresent, hreadable,
        lineOf?_eq_some_iff.mpr ⟨hcounted, hline, hfilled⟩⟩
    rw [(MapCache.yields_relocate printed).run_empty] at hmoved
    rw [top?, htop, Option.map_some, hmoved, Option.bind_some, hshown, Option.map_some]
  · intro h
    obtain ⟨⟨printed, htop, hmoved⟩, hshown⟩ := top?_eq_some h
    obtain ⟨contents, hpresent, hreadable, hline⟩ := lineAt?_eq_some_iff.mp hshown
    obtain ⟨hcounted, hplace, hfilled⟩ := lineOf?_eq_some_iff.mp hline
    exact ⟨⟨printed, htop, (MapCache.yields_relocate printed).run_empty.trans hmoved⟩, hcounted,
      ⟨contents, hpresent, hreadable, hplace⟩, hfilled⟩

theorem LeadsTo.report_eq (h : LeadsTo files stack position text) (message : Text)
    (hfilled : stack ≠ []) :
    report files (some ⟨message, some stack⟩) = header position text ++ stack ++ ['\n'] := by
  rw [Report.report_eq message hfilled, leadsTo_iff.mp h]
  rfl

theorem report_eq_of_not_leadsTo (h : ∀ position text, ¬ LeadsTo files stack position text)
    (message : Text) (hfilled : stack ≠ []) :
    report files (some ⟨message, some stack⟩) = stack ++ ['\n'] := by
  have hnone : top? files stack = none := by
    rw [Option.eq_none_iff_forall_ne_some]
    rintro ⟨position, text⟩ htop
    exact h position text (leadsTo_iff.mpr htop)
  rw [Report.report_eq message hfilled, hnone]
  rfl

/-- A report of an error with a stack is a header and that stack. The header is there exactly if the
top of the stack leads to a line of source, which it shows with a caret below it. -/
theorem report_is_header_and_stack (files : FileSystem) (message : Text) {stack : Text}
    (hfilled : stack ≠ []) :
    ∃ header, report files (some ⟨message, some stack⟩) = header ++ stack ++ ['\n'] ∧
      (Command.reportThrown files (some ⟨message, some stack⟩)).Writes (header ++ stack ++ ['\n']) ∧
      (header ≠ [] ↔ ∃ position text, LeadsTo files stack position text) ∧
      ∀ position text, LeadsTo files stack position text →
        '\r' ∉ text ∧ '\n' ∉ text ∧
        ∃ k, k = min (position.column.toNat - 1) text.length ∧ k ≤ text.length ∧
          header = ['\n'] ++ position.source ++ [':'] ++ Numeral.write position.line ++ ['\n'] ++
            text ++ ['\n'] ++ List.replicate k ' ' ++ ['^', '\n'] := by
  have hwrites := writes_reportThrown files (some ⟨message, some stack⟩)
  by_cases hleads : ∃ position text, LeadsTo files stack position text
  · obtain ⟨position, text, h⟩ := hleads
    rw [h.report_eq message hfilled] at hwrites ⊢
    refine ⟨header position text, rfl, hwrites, iff_of_true ?_ ⟨position, text, h⟩, ?_⟩
    · simp [header]
    · intro other shown hother
      obtain ⟨rfl, rfl⟩ := Prod.mk.inj
        (Option.some.inj ((leadsTo_iff.mp h).symm.trans (leadsTo_iff.mp hother)))
      have hends := isLineEnd_of_lineAt? (top?_eq_some (leadsTo_iff.mp h)).2
      refine ⟨?_, ?_, _, rfl, Nat.min_le_right _ _, by simp [header]⟩
      · intro hmem
        exact absurd (hends '\r' hmem) (by decide)
      · intro hmem
        exact absurd (hends '\n' hmem) (by decide)
  · have hnone : ∀ position text, ¬ LeadsTo files stack position text := by
      intro position text h
      exact hleads ⟨position, text, h⟩
    rw [report_eq_of_not_leadsTo hnone message hfilled] at hwrites ⊢
    refine ⟨[], rfl, hwrites, iff_of_false (fun h => h rfl) hleads, ?_⟩
    intro position text h
    exact absurd h (hnone position text)

/-- The lines end in three ways, and the column is the largest there is. -/
theorem report_with_caret_behind_line :
    let memory : FileSystem.Memory :=
      { files := [("b.js".toList, "f();\n//# sourceMappingURL=m".toList),
          ("m".toList, "\x7b\"sources\":[\"a.ts\"],\"mappings\":\"AAEA\"\x7d".toList),
          ("a.ts".toList, "one();\r\r\nthree();\n".toList),
          ("c.ts".toList, "one();\r\ntwo();\rthree();\n".toList)] }
    let mapped : Text := "Error: late\n    at f (b.js:1:5)".toList
    let plain : Text := "Error: late\n    at f (c.ts:2:4294967295)".toList
    (mapped ≠ [] ∧ plain ≠ []) ∧
      LeadsTo memory.fileSystem mapped ⟨"a.ts".toList, 3, 0⟩ "three();".toList ∧
      report memory.fileSystem (some ⟨[], some mapped⟩) =
        "\na.ts:3\nthree();\n^\n".toList ++ mapped ++ ['\n'] ∧
      LeadsTo memory.fileSystem plain ⟨"c.ts".toList, 2, 4294967295⟩ "two();".toList ∧
      report memory.fileSystem (some ⟨[], some plain⟩) =
        "\nc.ts:2\ntwo();\n      ^\n".toList ++ plain ++ ['\n'] := by
  intro memory mapped plain
  have hmapped : mapped ≠ [] := by decide
  have hplain : plain ≠ [] := by decide
  have hthree : LeadsTo memory.fileSystem mapped ⟨"a.ts".toList, 3, 0⟩ "three();".toList := by
    refine ⟨⟨⟨"b.js".toList, 1, 5⟩, ?_, ?_⟩, ?_, ⟨_, rfl, rfl, ?_⟩, ?_⟩ <;> decide +kernel
  have htwo : LeadsTo memory.fileSystem plain ⟨"c.ts".toList, 2, 4294967295⟩ "two();".toList := by
    refine ⟨⟨⟨"c.ts".toList, 2, 4294967295⟩, ?_, ?_⟩, ?_, ⟨_, rfl, rfl, ?_⟩, ?_⟩ <;> decide +kernel
  obtain ⟨first, hfirst, -, -, hheader⟩ :=
    report_is_header_and_stack memory.fileSystem [] hmapped
  obtain ⟨second, hsecond, -, -, hother⟩ :=
    report_is_header_and_stack memory.fileSystem [] hplain
  obtain ⟨-, -, k, rfl, -, hfirstIs⟩ := hheader _ _ hthree
  obtain ⟨-, -, k, rfl, -, hsecondIs⟩ := hother _ _ htwo
  refine ⟨⟨hmapped, hplain⟩, hthree, ?_, htwo, ?_⟩
  · rw [hfirst, hfirstIs]
    decide +kernel
  · rw [hsecond, hsecondIs]
    decide +kernel

end MappedTrace.Report
