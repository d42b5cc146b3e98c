import CodeGraph.Proofs.Declaration.Reading
import CodeGraph.Proofs.Repeats

/-!
# TypeScript after JavaScript

The reader of TypeScript gives what the reader of JavaScript gives for the same tree, and behind it
what the phrases of TypeScript alone declare, in preorder, each id once (`runGuarded_typescript`).
At such a phrase stands one type, followed by its members if it is an interface or an abstract class
(`Family`).
-/

namespace CodeGraph.TypeScript

variable {file : ParsedFile} {p : Place}

/-! ## Phrases of TypeScript alone -/

/-- What a phrase of TypeScript alone declares. -/
def ownKind? (phrase : String) : Option DeclarationKind :=
  if phrase = "interface_declaration" then some .interfaceType
  else if phrase = "type_alias_declaration" then some .interfaceType
  else if phrase = "enum_declaration" then some .classType
  else if phrase = "abstract_class_declaration" then some .classType
  else none

/-- The phrases that give the members of a type; aliases and enums have none. -/
def memberPhrases (phrase : String) : List String :=
  if phrase = "interface_declaration" then ["method_signature", "property_signature"]
  else if phrase = "abstract_class_declaration" then
    ["method_definition", "method_signature", "abstract_method_signature"]
  else []

/-- The places of the members of the type at a place: the children of its body that are members and
have a name. -/
def memberPlaces (p : Place) : List Place :=
  match p.fieldChild? "body" with
  | none => []
  | some body =>
    body.children.filter fun child =>
      (memberPhrases p.kind).contains child.kind && (child.tree.fieldChild? "name").isSome

/-- What is declared at a place that the JavaScript part passes over: nothing, or a type without an
owner and behind it its members, one for each of their places. -/
inductive Family (file : ParsedFile) (p : Place) : List Declaration → Prop where
  | none (h : ownKind? p.kind = none ∨ p.tree.fieldChild? "name" = none) : Family file p []
  | type {t : Declaration} {members : List Declaration} (kind : ownKind? p.kind = some t.kind)
      (owner : t.owner = none) (read : ReadsOff file p t)
      (isAbstract : t.traits.isAbstract = (p.kind = "abstract_class_declaration" : Bool))
      (each : List.Forall₂ (ReadsMember file t) (memberPlaces p) members) :
      Family file p (t :: members)

theorem memberPlaces_of_childless (h : memberPhrases p.kind = []) : memberPlaces p = [] := by
  unfold memberPlaces
  split
  · rfl
  · simp [h]

/-- The members found in a body, where each member phrase with a name gives one of them. -/
theorem forall₂_memberPlaces {t : Declaration} {found : Place → List Declaration}
    (one : ∀ child : Place, child.kind ∈ memberPhrases p.kind → ∀ name,
      child.tree.fieldChild? "name" = some name →
        ∃ m, found child = [m] ∧ ReadsMember file t child m)
    (unnamed : ∀ child : Place, child.tree.fieldChild? "name" = none → found child = [])
    (other : ∀ child : Place, child.kind ∉ memberPhrases p.kind → found child = []) :
    List.Forall₂ (ReadsMember file t) (memberPlaces p)
      (match p.fieldChild? "body" with
        | none => []
        | some body => body.children.flatMap found) := by
  unfold memberPlaces
  split
  · exact .nil
  · refine forall₂_filter_flatMap (fun child _ isMember => ?_) fun child _ noMember => ?_
    · rw [Bool.and_eq_true, List.contains_iff_mem, Option.isSome_iff_exists] at isMember
      obtain ⟨member, name, named⟩ := isMember
      exact one child member name named
    · rw [Bool.and_eq_false_iff, Option.isSome_eq_false_iff, Option.isNone_iff_eq_none] at noMember
      rcases noMember with member | named
      · refine other child fun h => ?_
        rw [← List.contains_iff_mem, member] at h
        cases h
      · exact unnamed child named

/-! ## One phrase -/

theorem exists_memberAt {t : Declaration} {name : Tree}
    (member : p.kind = "method_signature" ∨ p.kind = "property_signature")
    (named : p.tree.fieldChild? "name" = some name) :
    ∃ m, memberAt file t.id p = [m] ∧ ReadsMember file t p m := by
  unfold memberAt
  rw [if_pos member, named]
  exact ⟨_, rfl, readsOff_declaration _ _ named _ _, rfl, rfl⟩

theorem exists_methodAt {t : Declaration} {name : Tree}
    (named : p.tree.fieldChild? "name" = some name) :
    ∃ m, JavaScript.methodAt file t.id p = [m] ∧ ReadsMember file t p m := by
  unfold JavaScript.methodAt
  rw [named]
  exact ⟨_, rfl, readsOff_declaration _ _ named _ _, rfl, rfl⟩

theorem family_interfaceAt (isInterface : p.kind = "interface_declaration") :
    Family file p (interfaceAt file p) := by
  have phrases : memberPhrases p.kind = ["method_signature", "property_signature"] := by
    rw [isInterface]
    rfl
  unfold interfaceAt
  cases named : p.tree.fieldChild? "name" with
  | none => exact .none (Or.inr named)
  | some name =>
    refine .type (by rw [isInterface]; rfl) rfl (readsOff_declaration _ _ named _ _) ?_ ?_
    · rw [isInterface]
      rfl
    · refine forall₂_memberPlaces (fun child member name named => ?_) (fun child unnamed => ?_)
        fun child other => ?_
      · have listed : child.kind = "method_signature" ∨ child.kind = "property_signature" := by
          simpa [phrases] using member
        exact exists_memberAt listed named
      · rw [memberAt, unnamed]
        exact ite_self []
      · have foreign : ¬(child.kind = "method_signature" ∨ child.kind = "property_signature") := by
          simpa [phrases] using other
        rw [memberAt, if_neg foreign]

theorem family_classAt (isClass : p.kind = "abstract_class_declaration") :
    Family file p (JavaScript.classAt file true p) := by
  have phrases : memberPhrases p.kind = JavaScript.methodKinds := by
    rw [isClass]
    rfl
  unfold JavaScript.classAt
  cases named : p.tree.fieldChild? "name" with
  | none => exact .none (Or.inr named)
  | some name =>
    refine .type (by rw [isClass]; rfl) rfl (readsOff_declaration _ _ named _ _) ?_ ?_
    · rw [isClass]
      rfl
    · unfold JavaScript.methodsOf
      refine forall₂_memberPlaces (fun child member name named => ?_) (fun child unnamed => ?_)
        fun child other => ?_
      · rw [phrases, ← List.contains_iff_mem] at member
        rw [if_pos member]
        exact exists_methodAt named
      · rw [JavaScript.methodAt, unnamed]
        exact ite_self []
      · rw [phrases, ← List.contains_iff_mem] at other
        rw [if_neg other]

/-- Aliases and enums stand alone. -/
theorem family_namedAt {kind : DeclarationKind} (own : ownKind? p.kind = some kind)
    (plain : p.kind ≠ "abstract_class_declaration") (childless : memberPhrases p.kind = []) :
    Family file p (namedAt file kind p) := by
  unfold namedAt
  cases named : p.tree.fieldChild? "name" with
  | none => exact .none (Or.inr named)
  | some name =>
    refine .type own rfl (readsOff_declaration _ _ named _ _) ?_ ?_
    · rw [decide_eq_false plain]
      rfl
    · rw [memberPlaces_of_childless childless]
      exact .nil

theorem family_declaredAt (file : ParsedFile) (p : Place) : Family file p (declaredAt file p) := by
  unfold declaredAt
  split_ifs with isInterface isAlias isEnum isClass
  · exact family_interfaceAt isInterface
  · refine family_namedAt ?_ ?_ ?_ <;> rw [isAlias] <;> decide
  · refine family_namedAt ?_ ?_ ?_ <;> rw [isEnum] <;> decide
  · exact family_classAt isClass
  · refine .none (Or.inl ?_)
    rw [ownKind?, if_neg isInterface, if_neg isAlias, if_neg isEnum, if_neg isClass]

theorem declaredAt_of_foreign (h : ownKind? p.kind = none) : declaredAt file p = [] := by
  have family := family_declaredAt file p
  generalize declaredAt file p = ds at family ⊢
  cases family with
  | none => rfl
  | type kind =>
    rw [h] at kind
    cases kind

/-! ## The whole file -/

theorem runGuarded_eq (file : ParsedFile) :
    Reader.typescript.runGuarded file =
      Reader.javascript.runGuarded file ++
        newOnes Declaration.id (Reader.javascript.runGuarded file)
          ((Place.root file.tree).preorder.flatMap (declaredAt file)) := by
  have candidates : file.declarationsBy (declaredAt file) =
      (Place.root file.tree).preorder.flatMap (declaredAt file) := by
    rw [ParsedFile.declarationsBy, emitted_eq_flatMap, Tree.places_eq]
  have own : Reader.javascript.runGuarded file =
      distinctDeclarations (JavaScript.declarations file) := rfl
  have whole : Reader.typescript.runGuarded file =
      distinctDeclarations (distinctDeclarations (JavaScript.declarations file) ++
        file.declarationsBy (declaredAt file)) := rfl
  rw [whole, own, candidates, distinctDeclarations, withoutRepeats_append, freshItems_eq_newOnes]
  unfold distinctDeclarations
  rw [withoutRepeats_withoutRepeats]

/-- The declarations of a file in TypeScript are those that it has in JavaScript and then, in
preorder, the types of TypeScript alone, each followed by its members; of these each is kept exactly
if no declaration before it, of either part, has its id.  A file without such types has the same
declarations in both languages. -/
theorem runGuarded_typescript (file : ParsedFile) :
    Reader.typescript.runGuarded file =
        Reader.javascript.runGuarded file ++
          newOnes Declaration.id (Reader.javascript.runGuarded file)
            ((Place.root file.tree).preorder.flatMap (declaredAt file)) ∧
      (∀ p, Family file p (declaredAt file p)) ∧
      ((∀ p ∈ (Place.root file.tree).preorder, ownKind? p.kind = none) →
        Reader.typescript.runGuarded file = Reader.javascript.runGuarded file) := by
  refine ⟨runGuarded_eq file, family_declaredAt file, fun foreign => ?_⟩
  have nothing : (Place.root file.tree).preorder.flatMap (declaredAt file) = [] :=
    List.flatMap_eq_nil_iff.2 fun p hp => declaredAt_of_foreign (foreign p hp)
  rw [runGuarded_eq, nothing]
  exact List.append_nil _

end CodeGraph.TypeScript
