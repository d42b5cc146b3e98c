import CodeGraph.Proofs.Import.Dotted
import CodeGraph.Proofs.Import.Script

/-!
# Scanning a printed text

Scanning undoes printing (`scan_printed`): from import statements that are printed line by line come
these statements and no others, each with its module, its names and its line.  Those of the first
form of the language are listed first, then those of the second.
-/

namespace CodeGraph.Import

open CodeGraph.Text

/-- The statements of one form are those of the lines that are written in it. -/
theorem statements_printed {phrase : Phrase Clause} {p : Form → Bool} {Fits : Form → Prop}
    (each : LineByLine phrase Form.text
      (fun form => if p form then some form.clause else none) Fits)
    {forms : List Form} (fits : ∀ form ∈ forms, Fits form) (feeds : Nat) :
    statements phrase (printed forms feeds) = numbered p forms := by
  rw [statements, findAll, printed, findFrom_lines each fits, numbered]
  generalize forms.zipIdx 1 = lines
  induction lines with
  | nil => rfl
  | cons line lines ih =>
    obtain ⟨form, n⟩ := line
    by_cases h : p form = true
    · simpa [h, Form.statement] using ih
    · simpa [h, Form.statement] using ih

theorem numbered_eq_nil {p : Form → Bool} {forms : List Form}
    (h : ∀ form ∈ forms, p form = false) : numbered p forms = [] := by
  rw [numbered, List.map_eq_nil_iff, List.filter_eq_nil_iff]
  rintro ⟨form, line⟩ mem
  simpa using h form (List.fst_mem_of_mem_zipIdx mem)

/-- From a text of printed statements these statements are read and nothing else: those of the form
that is listed first and then the others, both in the order of the lines, each with its module, its
names and the number of its line. -/
theorem scan_printed {language : Language} {forms : List Form}
    (fits : ∀ form ∈ forms, form.Fits language) (feeds : Nat) :
    scan (some language) (printed forms feeds) =
      numbered Form.isLeading forms ++ numbered (fun form => !form.isLeading) forms := by
  have script (h : language = .javascript ∨ language = .typescript) :
      statements moduleImport (printed forms feeds) ++
          statements requireCall (printed forms feeds) =
        numbered Form.isLeading forms ++ numbered (fun form => !form.isLeading) forms := by
    rw [statements_printed (lineByLine_moduleImport h) fits,
      statements_printed (lineByLine_requireCall h) fits]
  cases language with
  | javascript => exact script (.inl rfl)
  | typescript => exact script (.inr rfl)
  | python =>
    show statements fromImport _ ++ statements plainImport _ = _
    rw [statements_printed lineByLine_fromImport fits,
      statements_printed lineByLine_plainImport fits]
  | java =>
    have none : numbered (fun form => !form.isLeading) forms = [] := by
      apply numbered_eq_nil
      intro form mem
      obtain ⟨isStatic, segments, rfl⟩ := (fits form mem).java
      rfl
    show statements javaImport _ = _
    rw [statements_printed lineByLine_javaImport fits, none, List.append_nil]

/-- Names that end with the words that open statements. -/
theorem scan_printed_words :
    scan (some .python) "import xfrom\nfrom ..importer import a, b as ximport\n".toList =
        [⟨"..importer", ["a", "b"], 2⟩, ⟨"xfrom", ["xfrom"], 1⟩] ∧
      scan (some .java) "import staticx.A;\nimport static p.B.c;".toList =
        [⟨"staticx.A", ["A"], 1⟩, ⟨"p.B.c", ["c"], 2⟩] ∧
      scan (some .javascript)
          "var ximport = require('./let')\nimport xlet, \x7b a as xvar \x7d from 'm';\n".toList =
        [⟨"m", ["xlet", "a"], 2⟩, ⟨"./let", ["ximport"], 1⟩] := by
  refine ⟨?_, ?_, ?_⟩
  · exact (@scan_printed .python
      [.module ["xfrom".toList], .names 2 ["importer".toList]
        [⟨"a".toList, none⟩, ⟨"b".toList, some "ximport".toList⟩]] (by decide) 1).trans (by decide)
  · exact (@scan_printed .java
      [.path false ["staticx".toList, "A".toList], .path true ["p".toList, "B".toList, "c".toList]]
      (by decide) 0).trans (by decide)
  · exact (@scan_printed .javascript
      [.require "var" (.single "ximport".toList) ⟨"./let".toList, false, false⟩,
        .binding (.both "xlet".toList [⟨"a".toList, some "xvar".toList⟩]) ⟨"m".toList, false, true⟩]
      (by decide) 1).trans (by decide)

end CodeGraph.Import
