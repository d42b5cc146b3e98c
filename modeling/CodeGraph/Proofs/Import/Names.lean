import CodeGraph.Import.Statement
import CodeGraph.Proofs.Text.Pieces
import CodeGraph.Proofs.Text.Runs

/-!
# Lists of names

Names, some of them with an alias, stand with commas between them (`commaList`).  From such a list
the names are read, without their aliases (`itemNames_items`) or as they are (`itemNames_names`).
-/

namespace CodeGraph.Import

open CodeGraph.Text

/-! ## Names -/

/-- A character of a list of names: a word character, a comma or a space. -/
def isListed (c : Char) : Bool := isWord c || c == ',' || c == ' '

theorem ne_of_isListed {c d : Char} (h : isListed c = true) (hd : isListed d = false) : c ≠ d := by
  rintro rfl
  rw [h] at hd
  cases hd

/-- A name: one word character or more. -/
structure IsIdentifier (name : List Char) : Prop where
  ne_nil : name ≠ []
  word : ∀ c ∈ name, isWord c = true

instance (name : List Char) : Decidable (IsIdentifier name) :=
  decidable_of_iff (name ≠ [] ∧ name.all isWord = true)
    ⟨fun h => ⟨h.1, List.all_eq_true.1 h.2⟩, fun h => ⟨h.ne_nil, List.all_eq_true.2 h.word⟩⟩

namespace IsIdentifier

variable {name : List Char}

theorem isToken (h : IsIdentifier name) : IsToken name :=
  ⟨h.ne_nil, fun c hc => isBlank_eq_false (h.word c hc)⟩

theorem notMem (h : IsIdentifier name) {c : Char} (hc : isWord c = false) : c ∉ name := fun mem =>
  ne_of_isWord (h.word c mem) hc rfl

theorem listed (h : IsIdentifier name) : ∀ c ∈ name, isListed c = true := fun c hc => by
  simp [isListed, h.word c hc]

end IsIdentifier

/-- A name that is taken from a module, and the alias that it gets, if it gets one. -/
structure Item where
  name : List Char
  alias? : Option (List Char)

/-- `a` or `b as c`. -/
def Item.text (item : Item) : List Char :=
  match item.alias? with
  | none => item.name
  | some other => item.name ++ (" as ".toList ++ other)

/-- The name and the alias are identifiers. -/
structure Item.Fits (item : Item) : Prop where
  name : IsIdentifier item.name
  other : ∀ other ∈ item.alias?, IsIdentifier other

instance (item : Item) : Decidable item.Fits :=
  decidable_of_iff (IsIdentifier item.name ∧ ∀ other ∈ item.alias?, IsIdentifier other)
    ⟨fun h => ⟨h.1, h.2⟩, fun h => ⟨h.name, h.other⟩⟩

/-! ## Lists -/

/-- Texts with commas between them and a blank in front of each. -/
def commaList (texts : List (List Char)) : List Char := joinWith ',' (texts.map (' ' :: ·))

theorem commaList_cons {texts : List (List Char)} (h : texts ≠ []) (text : List Char) :
    commaList (text :: texts) = ' ' :: (text ++ ',' :: commaList texts) := by
  have more : texts.map (' ' :: ·) ≠ [] := by simpa using h
  rw [commaList, List.map_cons, joinWith_cons more]
  rfl

theorem listed_commaList {texts : List (List Char)}
    (h : ∀ text ∈ texts, ∀ c ∈ text, isListed c = true) :
    ∀ c ∈ commaList texts, isListed c = true := by
  refine forall_mem_joinWith (by decide) fun piece mem => ?_
  obtain ⟨text, inside, rfl⟩ := List.mem_map.1 mem
  exact List.forall_mem_cons.2 ⟨by decide, h text inside⟩

/-- A list of names begins with its first blank. -/
theorem exists_commaList {texts : List (List Char)} (filled : texts ≠ [])
    (h : ∀ text ∈ texts, IsTrimmed text) :
    ∃ names, commaList texts = ' ' :: names ∧ names ≠ [] ∧ Stops isBlank names := by
  obtain ⟨text, texts, rfl⟩ := List.exists_cons_of_ne_nil filled
  have trimmed := h text List.mem_cons_self
  by_cases last : texts = []
  · subst last
    exact ⟨text, rfl, trimmed.ne_nil, trimmed.first⟩
  · exact ⟨_, commaList_cons last text, by simp, trimmed.first.append trimmed.ne_nil _⟩

/-! ## Reading -/

@[simp]
theorem itemNames_nil (dropAlias : Bool) : itemNames dropAlias [] = [] := by
  cases dropAlias <;> rfl

@[simp]
theorem itemNames_append_comma (dropAlias : Bool) (a b : List Char) :
    itemNames dropAlias (a ++ ',' :: b) = itemNames dropAlias a ++ itemNames dropAlias b := by
  simp [itemNames]

theorem itemNames_of_notMem {dropAlias : Bool} {text name : List Char} (comma : ',' ∉ text)
    (h : itemName dropAlias text = name) (filled : name ≠ []) :
    itemNames dropAlias text = [String.ofList name] := by
  simp [itemNames, cutAt_of_notMem comma, h, filled]

/-- The names of texts behind commas, when blanks may stand behind the last one. -/
theorem itemNames_commaList {dropAlias : Bool} {α : Type} {items : List α}
    {pad : List Char} (written name : α → List Char) (filled : items ≠ [])
    (blank : ∀ c ∈ pad, isBlank c = true) (comma : ∀ item ∈ items, ',' ∉ written item)
    (read : ∀ item ∈ items, ∀ back : List Char, (∀ c ∈ back, isBlank c = true) →
      itemName dropAlias (' ' :: (written item ++ back)) = name item)
    (named : ∀ item ∈ items, name item ≠ []) :
    itemNames dropAlias (commaList (items.map written) ++ pad) =
      items.map fun item => String.ofList (name item) := by
  have outside : ',' ∉ pad := fun h => absurd (blank _ h) (by decide)
  induction items with
  | nil => exact absurd rfl filled
  | cons item items ih =>
    have free : ',' ∉ written item := comma item List.mem_cons_self
    have here := read item List.mem_cons_self
    have called := named item List.mem_cons_self
    by_cases last : items = []
    · subst last
      have apart : ',' ∉ ' ' :: (written item ++ pad) := by simp [free, outside]
      exact itemNames_of_notMem apart (here pad blank) called
    · have more : items.map written ≠ [] := by simpa using last
      have split : commaList ((item :: items).map written) ++ pad =
          (' ' :: (written item ++ [])) ++ ',' :: (commaList (items.map written) ++ pad) := by
        rw [List.map_cons, commaList_cons more]
        simp
      have apart : ',' ∉ ' ' :: (written item ++ []) := by simp [free]
      have none : ∀ c ∈ ([] : List Char), isBlank c = true := fun c hc => by cases hc
      rw [split, itemNames_append_comma, itemNames_of_notMem apart (here [] none) called,
        ih last (fun i hi => comma i (List.mem_cons_of_mem _ hi))
          (fun i hi => read i (List.mem_cons_of_mem _ hi))
          fun i hi => named i (List.mem_cons_of_mem _ hi)]
      rfl

theorem beforeAlias_append {text : List Char} (free : ∀ c ∈ text, isBlank c = false)
    (rest : List Char) : beforeAlias (text ++ rest) = text ++ beforeAlias rest := by
  induction text with
  | nil => rfl
  | cons c text ih =>
    obtain ⟨here, later⟩ := List.forall_mem_cons.1 free
    rw [List.cons_append, beforeAlias, here, ih later]
    rfl

theorem beforeAlias_alias (other : List Char) : beforeAlias (" as ".toList ++ other) = [] := rfl

theorem Item.Fits.beforeAlias_text {item : Item} (fits : item.Fits) :
    beforeAlias item.text = item.name := by
  unfold Item.text
  split
  · have whole := beforeAlias_append fits.name.isToken.free []
    rwa [List.append_nil, beforeAlias, List.append_nil] at whole
  · rw [beforeAlias_append fits.name.isToken.free, beforeAlias_alias, List.append_nil]

theorem Item.Fits.isTrimmed {item : Item} (fits : item.Fits) : IsTrimmed item.text := by
  have name := fits.name.isToken.isTrimmed
  unfold Item.text
  split
  · exact name
  · rename_i other isAlias
    exact name.append (fits.other other isAlias).isToken.isTrimmed _

theorem Item.Fits.listed {item : Item} (fits : item.Fits) : ∀ c ∈ item.text, isListed c = true := by
  unfold Item.text
  split
  · exact fits.name.listed
  · rename_i other isAlias
    have between : ∀ c ∈ " as ".toList, isListed c = true := List.all_eq_true.1 (by decide)
    intro c h
    rw [List.mem_append, List.mem_append] at h
    rcases h with h | h | h
    · exact fits.name.listed c h
    · exact between c h
    · exact (fits.other other isAlias).listed c h

/-- There is no comma inside an item. -/
theorem Item.Fits.noComma {item : Item} (fits : item.Fits) : ',' ∉ item.text := by
  unfold Item.text
  split
  · exact fits.name.notMem (by decide)
  · rename_i other isAlias
    have between : ',' ∉ " as ".toList := by decide
    rw [List.mem_append, List.mem_append, not_or, not_or]
    exact ⟨fits.name.notMem (by decide), between, (fits.other other isAlias).notMem (by decide)⟩

theorem listed_items {items : List Item} (fits : ∀ item ∈ items, item.Fits) :
    ∀ c ∈ commaList (items.map Item.text), isListed c = true :=
  listed_commaList (List.forall_mem_map.2 fun item mem => (fits item mem).listed)

theorem listed_names {names : List (List Char)} (fits : ∀ name ∈ names, IsIdentifier name) :
    ∀ c ∈ commaList names, isListed c = true :=
  listed_commaList fun name mem => (fits name mem).listed

theorem itemName_padded {item : Item} (fits : item.Fits) {back : List Char}
    (blank : ∀ c ∈ back, isBlank c = true) :
    itemName true (' ' :: (item.text ++ back)) = item.name := by
  have trimmed := fits.isTrimmed.trim_padded blank_space blank
  rw [List.singleton_append] at trimmed
  rw [itemName, if_pos rfl, trimmed, fits.beforeAlias_text]
  exact fits.name.isToken.isTrimmed.trim_eq_self

/-- Items with commas between them are read as their names. -/
theorem itemNames_items {items : List Item} (filled : items ≠ []) (fits : ∀ item ∈ items, item.Fits)
    {pad : List Char} (blank : ∀ c ∈ pad, isBlank c = true) :
    itemNames true (commaList (items.map Item.text) ++ pad) =
      items.map fun item => String.ofList item.name :=
  itemNames_commaList Item.text Item.name filled blank (fun item h => (fits item h).noComma)
    (fun item h _ => itemName_padded (fits item h)) fun item h => (fits item h).name.ne_nil

/-- Names with commas between them are read as they are. -/
theorem itemNames_names {names : List (List Char)} (filled : names ≠ [])
    (fits : ∀ name ∈ names, IsIdentifier name) {pad : List Char}
    (blank : ∀ c ∈ pad, isBlank c = true) :
    itemNames false (commaList names ++ pad) = names.map String.ofList := by
  have read : ∀ name ∈ names, ∀ back : List Char, (∀ c ∈ back, isBlank c = true) →
      itemName false (' ' :: (name ++ back)) = name := by
    intro name hname back blank
    have trimmed := (fits name hname).isToken.isTrimmed.trim_padded blank_space blank
    rwa [List.singleton_append] at trimmed
  have called := itemNames_commaList id id filled blank
    (fun name h => (fits name h).notMem (by decide)) read fun name h => (fits name h).ne_nil
  rwa [List.map_id] at called

/-- Blanks in front of a list of names do not matter. -/
theorem itemNames_cons_blank (dropAlias : Bool) {c : Char} (h : isBlank c = true)
    (text : List Char) : itemNames dropAlias (c :: text) = itemNames dropAlias text := by
  have noComma : c ≠ ',' := by
    rintro rfl
    exact absurd h (by decide)
  obtain ⟨piece, pieces, whole, longer⟩ := cutAt_cons_of_ne noComma text
  have trimmed : trim (c :: piece) = trim piece := by
    rw [trim, trim, dropEnds, dropEnds, List.dropWhile_cons_of_pos h]
  have same : itemName dropAlias (c :: piece) = itemName dropAlias piece := by
    unfold itemName
    rw [trimmed]
  rw [itemNames, itemNames, longer, whole, List.map_cons, List.map_cons, same]

end CodeGraph.Import
