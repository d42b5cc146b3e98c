import CodeGraph.Proofs.Ownership.Family
import CodeGraph.Proofs.Survey.Outcomes

/-!
# Sightings

The sightings of a file are all declarations that the walks of its reader come upon, repeats
included.  A reader gives them without the repeats (`runGuarded_standard`), and a survey gives those
of all files without the repeats (`declarationsOf_outcomes`): what a file repeats in itself and what
it repeats of the files before it is dropped alike.
-/

namespace CodeGraph

/-- All declarations that the walks of the reader of a language come upon, in their order. -/
def Language.sightings (file : ParsedFile) : Language → List Declaration
  | .javascript => JavaScript.declarations file
  | .typescript => JavaScript.declarations file ++ file.declarationsBy (TypeScript.declaredAt file)
  | .java => Java.declarations file
  | .python => if file.language = .python then Python.declarations file else []

theorem ownersFirst_sightings (file : ParsedFile) (language : Language) :
    OwnersFirstAt file (.root file.tree) (language.sightings file) := by
  have javascript := ownersFirst_declarationsBy (JavaScript.ownersFirst_declaredAt file)
  cases language with
  | javascript => exact javascript
  | typescript =>
    exact javascript.append (ownersFirst_declarationsBy (TypeScript.ownersFirst_declaredAt file))
  | java => exact ownersFirst_declarationsBy (Java.ownersFirst_declaredAt file)
  | python =>
    unfold Language.sightings
    split_ifs
    · exact ownersFirst_declarationsBy (Python.ownersFirst_declaredAt file)
    · exact .nil

/-- What the reader of a language gives. -/
theorem runGuarded_standard {language : Language} {reader : Reader}
    (h : ReaderTable.standard language = some reader) (file : ParsedFile) :
    reader.runGuarded file = distinctDeclarations (language.sightings file) := by
  cases language with
  | javascript => cases h; rfl
  | typescript =>
    cases h
    have merged (others : List Declaration) : distinctDeclarations
        (distinctDeclarations (JavaScript.declarations file) ++ others) =
          distinctDeclarations (JavaScript.declarations file ++ others) := by
      unfold distinctDeclarations
      rw [withoutRepeats_append, withoutRepeats_append, withoutRepeats_withoutRepeats]
      congr 1
      exact freshItems_congr _ (mem_map_withoutRepeats _ _) others
    exact merged _
  | java => cases h; rfl
  | python =>
    cases h
    unfold Reader.runGuarded Reader.run Reader.python Language.sightings
    by_cases own : file.language = .python
    · simp [own]
    · simp [own, distinctDeclarations, withoutRepeats, freshItems]

/-- The parser gives nested trees only. -/
def Toolbox.GivesNested (tools : Toolbox) : Prop :=
  ∀ grammar content root hasError, tools.parser grammar content = .tree root hasError → root.Nested

namespace Surveyor

variable (s : Surveyor)

/-- The sightings of a file that can be parsed. -/
def sightings (lack? : String → Option Fault) (file : SourceFile) : List Declaration :=
  match s.table.language file.path, s.tools.parsed lack? file.path file.content with
  | some language, .ok parsed => language.sightings parsed
  | _, _ => []

variable {s}

theorem declarations_outcomeOf (reader : Reader) (parsed : Except Fault ParsedFile) :
    (outcomeOf reader parsed).declarations =
      match parsed with
      | .ok file => reader.runGuarded file
      | .error _ => [] := by
  cases parsed with
  | error f => cases f <;> rfl
  | ok file =>
    simp only [outcomeOf, Reader.runGuarded]
    cases reader.run file <;> rfl

theorem declarations_outcome (standard : s.readers = .standard) (lack? : String → Option Fault)
    (file : SourceFile) :
    (s.outcome lack? file).declarations = distinctDeclarations (s.sightings lack? file) := by
  unfold outcome sightings reader?
  cases hlanguage : s.table.language file.path with
  | none => rfl
  | some language =>
    obtain ⟨reader, hreader⟩ : ∃ reader, ReaderTable.standard language = some reader := by
      cases language <;> exact ⟨_, rfl⟩
    rw [Option.bind_some, standard, hreader]
    dsimp only
    rw [declarations_outcomeOf]
    cases s.tools.parsed lack? file.path file.content with
    | error f => rfl
    | ok parsed => exact runGuarded_standard hreader parsed

theorem declarationsOf_outcomes (standard : s.readers = .standard)
    (lack? : String → Option Fault) (files : List SourceFile) :
    declarationsOf (s.outcomes lack? files) =
      distinctDeclarations (files.flatMap (s.sightings lack?)) := by
  unfold declarationsOf outcomes
  rw [List.flatMap_map]
  simp only [declarations_outcome standard]
  exact withoutRepeats_flatMap Declaration.id files (s.sightings lack?)

/-- The declaration is of one of the files; it has an owner exactly if it is a method. -/
structure Found (files : List SourceFile) (d : Declaration) : Prop where
  kind : d.owner.isSome ↔ d.kind = .method
  file : ∃ file ∈ files, d.path = file.path

/-- The sightings of a survey have their owners first; the owners own their members if the trees of
the parser are nested. -/
theorem ownersFirst_flatMap_sightings (lack? : String → Option Fault) (files : List SourceFile) :
    OwnersFirst (Found files) (fun t d => s.tools.GivesNested → Owns t d)
      (files.flatMap (s.sightings lack?)) := by
  refine OwnersFirst.flatMap fun file hfile => ?_
  unfold sightings
  split
  · rename_i language parsed _ hparsed
    obtain ⟨path, grammar, hasError, answered⟩ := Toolbox.parsed_eq_ok hparsed
    refine (ownersFirst_sightings parsed language).mono (fun d hd => ?_) fun t d owns nested => ?_
    · obtain ⟨q, -, hq⟩ := hd.place
      exact ⟨hd.kind, file, hfile, hq.path.trans path⟩
    · exact owns (nested _ _ _ _ answered)
  · exact .nil

end Surveyor

end CodeGraph
