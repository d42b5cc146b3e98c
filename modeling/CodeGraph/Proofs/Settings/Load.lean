import CodeGraph.Proofs.Text.Utf8
import CodeGraph.Settings.Analysis
import CodeGraph.Settings.Load

/-!
# When settings load

A settings file is read exactly if it is absent, or is UTF-8 without a whole number of too many
digits; then it holds an object, or nothing (`layer?_eq_ok_iff`).  Loading lays the objects of the
files over the standard settings and fails for no other reason than a file that is not read.  The
analysis takes every settings whose section of that name has no infinite number of workers and is an
object, unless it is empty or missing (`load_analysis`).
-/

namespace CodeGraph.Settings

open CodeGraph.Files CodeGraph.Json CodeGraph.Text

/-- The members that a file adds to the settings, if it is there and adds any. -/
inductive Adds : Option (List UInt8) → Option Members → Prop where
  | absent : Adds none none
  | object {text : List Char} {members : Members} (json : parse text = .ok (.object members)) :
      Adds (some (Utf8.encode text)) (some members)
  | other {text : List Char} {value : Value} (json : parse text = .ok value)
      (differs : ∀ members, value ≠ .object members) : Adds (some (Utf8.encode text)) none
  | malformed {text : List Char} (fails : parse text = .error .malformed) :
      Adds (some (Utf8.encode text)) none

/-- The file is there, but it is not UTF-8, or a whole number in it has too many digits. -/
inductive Unreadable : Option (List UInt8) → Prop where
  | undecodable {bytes : List UInt8} (fails : ∀ text, Utf8.encode text ≠ bytes) :
      Unreadable (some bytes)
  | longNumeral {text : List Char} (fails : parse text = .error .longNumeral) :
      Unreadable (some (Utf8.encode text))

variable {file user project : Option (List UInt8)} {layer : Option Members} {settings : Members}

/-! ## One file -/

/-- The layer that a text says, by the answer of the reader. -/
def layerOf : Except ReadFault Value → Except SettingsFault (Option Members)
  | .ok (.object members) => .ok (some members)
  | .ok _ => .ok none
  | .error .malformed => .ok none
  | .error .longNumeral => .error .longNumeral

@[simp]
theorem layer?_encode (text : List Char) :
    layer? (.ok (some (Utf8.encode text))) = layerOf (parse text) := by
  have decoded : Utf8.decode? (Utf8.encode text) = some text := Utf8.decode?_eq_some_iff.2 rfl
  rw [layer?, decoded]
  rfl

theorem layer?_undecodable {bytes : List UInt8} (h : ∀ text, Utf8.encode text ≠ bytes) :
    layer? (.ok (some bytes)) = .error .undecodable := by
  have none : Utf8.decode? bytes = none := by
    rw [Option.eq_none_iff_forall_ne_some]
    intro text decoded
    exact h text (Utf8.decode?_eq_some_iff.1 decoded)
  rw [layer?, none]

theorem layer?_of_adds (h : Adds file layer) : layer? (.ok file) = .ok layer := by
  cases h with
  | absent => rfl
  | object json => simp [json, layerOf]
  | malformed fails => simp [fails, layerOf]
  | @other text value json differs =>
    rw [layer?_encode, json]
    cases value with
    | object members => exact absurd rfl (differs members)
    | _ => rfl

theorem layer?_of_unreadable (h : Unreadable file) : ∃ f, layer? (.ok file) = .error f := by
  cases h with
  | undecodable fails => exact ⟨_, layer?_undecodable fails⟩
  | longNumeral fails => exact ⟨.longNumeral, by simp [fails, layerOf]⟩

/-- A file adds something, be it nothing, or cannot be read. -/
theorem adds_or_unreadable (file : Option (List UInt8)) :
    (∃ layer, Adds file layer) ∨ Unreadable file := by
  cases file with
  | none => exact Or.inl ⟨none, .absent⟩
  | some bytes =>
    by_cases written : ∃ text, Utf8.encode text = bytes
    · obtain ⟨text, rfl⟩ := written
      cases json : parse text with
      | ok value =>
        cases value with
        | object members => exact Or.inl ⟨_, .object json⟩
        | _ => exact Or.inl ⟨none, .other json nofun⟩
      | error f =>
        cases f with
        | malformed => exact Or.inl ⟨none, .malformed json⟩
        | longNumeral => exact Or.inr (.longNumeral json)
    · exact Or.inr (.undecodable fun text same => written ⟨text, same⟩)

@[simp]
theorem layer?_eq_ok_iff : layer? (.ok file) = .ok layer ↔ Adds file layer := by
  refine ⟨fun h => ?_, layer?_of_adds⟩
  rcases adds_or_unreadable file with ⟨other, adds⟩ | unreadable
  · rw [layer?_of_adds adds] at h
    cases h
    exact adds
  · obtain ⟨f, failed⟩ := layer?_of_unreadable unreadable
    rw [failed] at h
    cases h

theorem layer?_eq_error_iff : (∃ f, layer? (.ok file) = .error f) ↔ Unreadable file := by
  refine ⟨fun ⟨f, failed⟩ => ?_, layer?_of_unreadable⟩
  rcases adds_or_unreadable file with ⟨layer, adds⟩ | unreadable
  · rw [layer?_of_adds adds] at failed
    cases failed
  · exact unreadable

/-! ## Both files -/

theorem load_eq_ok_iff :
    load (.ok user) (.ok project) = .ok settings ↔
      ∃ u p, Adds user u ∧ Adds project p ∧ settings = withLayer (withLayer standard u) p := by
  simp only [← layer?_eq_ok_iff]
  unfold load
  cases layer? (.ok user) with
  | error f => simp [bind, Except.bind]
  | ok u =>
    cases layer? (.ok project) with
    | error f => simp [bind, Except.bind]
    | ok p => simp [bind, Except.bind, pure, Except.pure, eq_comm]

theorem load_eq_error_iff :
    (∃ f, load (.ok user) (.ok project) = .error f) ↔ Unreadable user ∨ Unreadable project := by
  rw [← layer?_eq_error_iff, ← layer?_eq_error_iff]
  unfold load
  cases layer? (.ok user) with
  | error f => simp [bind, Except.bind]
  | ok u =>
    cases layer? (.ok project) with
    | error f => simp [bind, Except.bind]
    | ok p => simp [bind, Except.bind, pure, Except.pure]

/-! ## The analysis -/

/-- The section of the analysis, if it is there and not empty, is an object, and does not ask for
infinitely many workers. -/
def Tolerable (settings : Members) : Prop :=
  ∀ options, find? "analysis" settings = some options → options.isTruthy = true →
    ∃ members, options = .object members ∧
      ∀ negative, find? "max_workers" members ≠ some (.number (.infinite negative))

theorem wholeNumber?_eq_ok_iff (value : Value) :
    (∃ n, wholeNumber? value = .ok n) ↔ ∀ negative, value ≠ .number (.infinite negative) := by
  cases value with
  | number d => cases d <;> simp [wholeNumber?]
  | _ => simp [wholeNumber?]

@[simp]
theorem truthy?_eq_some_iff {found : Option Value} {value : Value} :
    truthy? found = some value ↔ found = some value ∧ value.isTruthy = true := by
  rw [truthy?, Option.filter_eq_some_iff]

/-- The settings of a run for a section that is an object, when the number of workers is read. -/
def Analysis.ofSection (members : Members) (workers : Option Int) : Analysis where
  workers := max 1 (workers.getD 1).toNat
  strict := (truthy? (find? "strict_parse" members)).isSome
  extensions :=
    match find? "extensions" members with
    | some (.object extensions) => extensions
    | _ => []

/-- The settings of a run are read off the section of the analysis, which must be an object. -/
theorem analysis_eq (settings : Members) :
    analysis (.object settings) =
      match (truthy? (find? "analysis" settings)).getD (.object []) with
      | .object members =>
        (wholeNumber? ((find? "max_workers" members).getD (.integer 1))).map
          (.ofSection members)
      | _ => .error .notObject := by
  have options : sectionOf (.object settings) "analysis" =
      .ok ((truthy? (find? "analysis" settings)).getD (.object [])) := rfl
  unfold analysis
  rw [options]
  cases (truthy? (find? "analysis" settings)).getD (.object []) with
  | object members =>
    simp only [bind, Except.bind, member?]
    cases wholeNumber? ((find? "max_workers" members).getD (.integer 1)) with
    | error f => rfl
    | ok workers => rfl
  | _ => rfl

theorem analysis_eq_ok_iff :
    (∃ a, analysis (.object settings) = .ok a) ↔ Tolerable settings := by
  rw [analysis_eq]
  cases h : truthy? (find? "analysis" settings) with
  | none =>
    have standard : ∃ a, (wholeNumber? (.integer 1)).map (Analysis.ofSection []) = .ok a := ⟨_, rfl⟩
    refine iff_of_true standard fun options found on => ?_
    rw [truthy?_eq_some_iff.2 ⟨found, on⟩] at h
    cases h
  | some options =>
    obtain ⟨found, on⟩ := truthy?_eq_some_iff.1 h
    have only : Tolerable settings ↔ ∃ members, options = .object members ∧
        ∀ negative, find? "max_workers" members ≠ some (.number (.infinite negative)) := by
      refine ⟨fun tolerable => tolerable options found on, fun tolerable other found' _ => ?_⟩
      obtain rfl := Option.some.inj (found.symm.trans found')
      exact tolerable
    rw [only, Option.getD_some]
    cases options with
    | object members =>
      have read := wholeNumber?_eq_ok_iff ((find? "max_workers" members).getD (.integer 1))
      have workers : (∀ negative,
          (find? "max_workers" members).getD (.integer 1) ≠ .number (.infinite negative)) ↔
            ∀ negative, find? "max_workers" members ≠ some (.number (.infinite negative)) := by
        cases find? "max_workers" members <;> simp
      simp only [Value.object.injEq, exists_eq_left', ← workers, ← read]
      cases wholeNumber? ((find? "max_workers" members).getD (.integer 1)) <;> simp [Except.map]
    | _ => simp

theorem one_le_workers {a : Analysis} (h : analysis (.object settings) = .ok a) :
    1 ≤ a.workers := by
  rw [analysis_eq] at h
  split at h
  · rename_i members _
    cases read : wholeNumber? ((find? "max_workers" members).getD (.integer 1)) with
    | error f =>
      rw [read] at h
      cases h
    | ok workers =>
      rw [read] at h
      cases h
      exact Nat.le_max_left 1 _
  · cases h

/-! ## Loading and reading -/

variable (user project) in
/-- Settings load exactly if both files can be read, and are then the standard ones under what the
files add.  The analysis takes them exactly if they are tolerable, and then has a worker. -/
theorem load_analysis :
    ((∃ f, load (.ok user) (.ok project) = .error f) ↔ Unreadable user ∨ Unreadable project) ∧
      (∀ settings, load (.ok user) (.ok project) = .ok settings ↔
        ∃ u p, Adds user u ∧ Adds project p ∧ settings = withLayer (withLayer standard u) p) ∧
      ∀ settings, load (.ok user) (.ok project) = .ok settings →
        ((∃ a, analysis (.object settings) = .ok a) ↔ Tolerable settings) ∧
          ∀ a, analysis (.object settings) = .ok a → 1 ≤ a.workers :=
  ⟨load_eq_error_iff, fun _ => load_eq_ok_iff,
    fun _ _ => ⟨analysis_eq_ok_iff, fun _ => one_le_workers⟩⟩

/-- How many workers the settings of two files ask for. -/
def workersOf (user project : Option (List UInt8)) : Except SettingsFault Nat := do
  let settings ← load (.ok user) (.ok project)
  return (← analysis (.object settings)).workers

theorem workersOf_eq_ok {n : Nat} (h : workersOf user project = .ok n) :
    ∃ settings a, load (.ok user) (.ok project) = .ok settings ∧
      analysis (.object settings) = .ok a ∧ a.workers = n := by
  unfold workersOf at h
  cases loaded : load (.ok user) (.ok project) with
  | error f =>
    rw [loaded] at h
    cases h
  | ok settings =>
    cases taken : analysis (.object settings) with
    | error f =>
      simp only [loaded, bind, Except.bind, taken] at h
      cases h
    | ok a =>
      simp only [loaded, bind, Except.bind, taken] at h
      exact ⟨settings, a, rfl, taken, Except.ok.inj h⟩

/-- A file with a text. -/
def holding (text : String) : Option (List UInt8) := some (Utf8.encode text.toList)

/-- Numbers of workers may be given as texts, and the file of the project counts more than that of
the user. -/
theorem load_analysis_texts :
    let user := holding "\x7b\"analysis\": \x7b\"max_workers\": 4\x7d\x7d"
    let project := holding "\x7b\"analysis\": \x7b\"max_workers\": \"8\"\x7d\x7d"
    ¬ Unreadable user ∧ ¬ Unreadable project ∧
      ∃ settings a, load (.ok user) (.ok project) = .ok settings ∧ Tolerable settings ∧
        analysis (.object settings) = .ok a ∧ 1 ≤ a.workers ∧ a.workers = 8 := by
  intro user project
  obtain ⟨settings, a, loaded, taken, eight⟩ := workersOf_eq_ok
    (show workersOf user project = .ok 8 by decide +kernel)
  obtain ⟨fails, -, tolerated⟩ := load_analysis user project
  have read : ¬ (Unreadable user ∨ Unreadable project) := by
    rw [← fails, loaded]
    rintro ⟨f, failed⟩
    cases failed
  obtain ⟨tolerable, workers⟩ := tolerated settings loaded
  exact ⟨fun h => read (Or.inl h), fun h => read (Or.inr h), settings, a, loaded,
    tolerable.1 ⟨a, taken⟩, taken, workers a taken, eight⟩

/-- A file that is not UTF-8 makes loading fail.  Settings load, but are not taken, if the section
of the analysis is a list, or asks for infinitely many workers. -/
theorem load_analysis_fails :
    let list := holding "\x7b\"analysis\": [1]\x7d"
    let endless := holding "\x7b\"analysis\": \x7b\"max_workers\": Infinity\x7d\x7d"
    (load (.ok (some [0xFF])) (.ok none)).isOk = false ∧
      workersOf (some [0xFF]) none = .error .undecodable ∧
      (load (.ok none) (.ok list)).isOk = true ∧ workersOf none list = .error .notObject ∧
      (load (.ok none) (.ok endless)).isOk = true ∧ workersOf none endless = .error .infinite := by
  decide +kernel

end CodeGraph.Settings
