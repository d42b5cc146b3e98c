import CodeGraph.Declaration.Signature

/-!
# Declarations in Java

Classes, enums (reported as classes) and interfaces at any depth, each followed by its methods and
constructors.
-/

namespace CodeGraph.Java

open CodeGraph.Text

/-! ## Signatures -/

/-- The name of a parameter. -/
def parameterName (file : ParsedFile) (t : Tree) : Option String :=
  if t.kind = "formal_parameter" then (t.fieldChild? "name").map file.textOf
  else if t.kind = "spread_parameter" then
    (t.kindChild? "variable_declarator").bind fun declarator =>
      (declarator.fieldChild? "name").map file.textOf
  else if t.kind = "identifier" then some (file.textOf t)
  else none

/-- The type of a parameter; that of a spread parameter ends in three dots. -/
def parameterType (file : ParsedFile) (t : Tree) : Option String :=
  if t.kind = "formal_parameter" then (t.fieldChild? "type").map file.textOf
  else if t.kind = "spread_parameter" then
    (t.namedChildren.find? fun child =>
      child.kind ≠ "modifiers" ∧ child.kind ≠ "variable_declarator").map fun type =>
        file.textOf type ++ "..."
  else none

/-- The kinds of the phrases that name a type. -/
def typeNameKinds : List String := ["type_identifier", "scoped_type_identifier"]

/-- Collects the names of types and goes neither below them nor into type arguments. -/
def typeNameVisitor (file : ParsedFile) : Visitor (List String) := fun names p =>
  if p.kind = "type_arguments" then (names, false)
  else if typeNameKinds.contains p.kind then (names ++ [file.textOf p.tree], false)
  else (names, true)

/-- The names of the types in a clause, without type arguments. -/
def typeNames (file : ParsedFile) (clause : Option Tree) : List String :=
  match clause with
  | some t => walk (typeNameVisitor file) [.root t] []
  | none => []

/-- The kinds of annotations. -/
def annotationKinds : List String := ["marker_annotation", "annotation"]

/-- The nodes before a declaration that modify it. -/
def modifiers (t : Tree) : List Tree :=
  match t.kindChild? "modifiers" with
  | some m => m.children
  | none => []

/-- The keywords among the modifiers. -/
def keywords (file : ParsedFile) (t : Tree) : List String :=
  ((modifiers t).filter fun m => !annotationKinds.contains m.kind).map file.textOf

/-- The names of the annotations among the modifiers. -/
def annotations (file : ParsedFile) (t : Tree) : List String :=
  ((modifiers t).filter fun m => annotationKinds.contains m.kind).map fun m =>
    annotationName (file.textOf m).toList

/-- The visibility that the keywords give; what is not restricted is public. -/
def visibilityOf (keywords : List String) : Visibility :=
  if keywords.contains "private" then .privateAccess
  else if keywords.contains "protected" then .protectedAccess
  else .publicAccess

/-! ## Declarations -/

/-- The kinds of the members that are methods. -/
def methodKinds : List String := ["method_declaration", "constructor_declaration"]

/-- The text that names a method; a constructor without a name is called so. -/
def methodName? (file : ParsedFile) (t : Tree) : Option String :=
  match t.fieldChild? "name" with
  | some name => some (file.textOf name)
  | none => if t.kind = "constructor_declaration" then some "constructor" else none

/-- The method or constructor at a place. -/
def methodAt (file : ParsedFile) (owner : String) (p : Place) : List Declaration :=
  match methodName? file p.tree with
  | none => []
  | some name =>
    let words := keywords file p.tree
    [{ name, kind := .method, language := file.language, path := file.path,
       span := file.spanOf p.tree, owner := some owner,
       traits :=
        { parameters :=
            match p.tree.fieldChild? "parameters" with
            | some list => parametersOf (parameterName file) (parameterType file) list.children
            | none => []
          isStatic := words.contains "static"
          isAbstract := words.contains "abstract"
          visibility := some (visibilityOf words)
          returnType := (p.tree.fieldChild? "type").map file.textOf
          decorators := annotations file p.tree
          doc := docComment? file [] p } }]

/-- The members in the body of a type; those of an enum stand in nested nodes after the others. -/
def membersOf (body : Place) : List Place :=
  body.children ++
    (body.children.filter fun child => child.kind = "enum_body_declarations").flatMap Place.children

/-- The type at a place, followed by its methods and constructors. -/
def typeAt (file : ParsedFile) (kind : DeclarationKind) (p : Place) : List Declaration :=
  match p.tree.fieldChild? "name" with
  | none => []
  | some name =>
    let words := keywords file p.tree
    let bases :=
      if kind = .interfaceType then typeNames file (p.tree.kindChild? "extends_interfaces")
      else typeNames file (p.tree.fieldChild? "superclass")
    let interfaces :=
      if kind = .interfaceType then [] else typeNames file (p.tree.fieldChild? "interfaces")
    let declared := file.declaration kind name p none
      { base := bases.head?
        interfaces
        isAbstract := words.contains "abstract"
        visibility := some (visibilityOf words)
        decorators := annotations file p.tree
        doc := docComment? file [] p }
    declared ::
      match p.fieldChild? "body" with
      | none => []
      | some body =>
        (membersOf body).flatMap fun member =>
          if methodKinds.contains member.kind then methodAt file declared.id member else []

/-- What is declared at a place. -/
def declaredAt (file : ParsedFile) (p : Place) : List Declaration :=
  if p.kind = "class_declaration" ∨ p.kind = "enum_declaration" then typeAt file .classType p
  else if p.kind = "interface_declaration" then typeAt file .interfaceType p
  else []

/-- The declarations of a file in the order of its text, members right after their type. -/
def declarations (file : ParsedFile) : List Declaration := file.declarationsBy (declaredAt file)

end CodeGraph.Java
