import CodeGraph.Declaration.Signature

/-!
# Declarations in JavaScript

Functions, functions bound to variables, and classes with their methods, at any depth of the file.
The type annotations of TypeScript are read as well, since both languages share these phrases.
-/

namespace CodeGraph.JavaScript

open CodeGraph.Text

/-! ## Signatures -/

/-- The name of a parameter; patterns that take a value apart have none. -/
def parameterName (file : ParsedFile) (t : Tree) : Option String :=
  if t.kind = "identifier" then some (file.textOf t)
  else if t.kind = "assignment_pattern" then
    match t.fieldChild? "left" with
    | some left => if left.kind = "identifier" then some (file.textOf left) else none
    | none => none
  else if t.kind = "rest_pattern" then
    (t.kindChild? "identifier").map fun name => "..." ++ file.textOf name
  else if t.kind = "required_parameter" ∨ t.kind = "optional_parameter" then
    match _h : t.fieldChild? "pattern" with
    | some pattern => if pattern.kind = "this" then none else parameterName file pattern
    | none => (t.kindChild? "identifier").map file.textOf
  else none
termination_by t.size
decreasing_by exact Tree.size_lt_of_fieldChild? _h

/-- The type written at a node's field. -/
def fieldType? (file : ParsedFile) (t : Tree) (field : String) : Option String :=
  (t.fieldChild? field).bind fun type => plainType? (file.textOf type).toList

/-- The type of a parameter. -/
def parameterType (file : ParsedFile) (t : Tree) : Option String :=
  if t.kind = "required_parameter" ∨ t.kind = "optional_parameter" then fieldType? file t "type"
  else none

/-- The parameters of a function: those of its list, or the single one of an arrow. -/
def parameters (file : ParsedFile) (t : Tree) : List Parameter :=
  match t.fieldChild? "parameters" with
  | some list => parametersOf (parameterName file) (parameterType file) list.children
  | none =>
    match t.fieldChild? "parameter" with
    | some single => parametersOf (parameterName file) (fun _ => none) [single]
    | none => []

/-- The return type of a function. -/
def returnType (file : ParsedFile) (t : Tree) : Option String := fieldType? file t "return_type"

/-- The documentation of a declaration, exported or not. -/
def docOf (file : ParsedFile) (p : Place) : Option String :=
  docComment? file ["export_statement"] p

/-! ## Bases of classes -/

/-- The name of a type without its type arguments. -/
def typeName (file : ParsedFile) (t : Tree) : String :=
  if t.kind = "generic_type" then
    match (t.fieldChild? "name").or t.namedChildren.head? with
    | some name => file.textOf name
    | none => file.textOf t
  else file.textOf t

/-- The name of the class that a class extends. -/
def baseOf (file : ParsedFile) (heritage : Tree) : Option String :=
  match heritage.kindChild? "extends_clause" with
  | some clause =>
    ((clause.fieldChild? "value").or clause.namedChildren.head?).map (typeName file)
  | none =>
    match heritage.children with
    | first :: _ =>
      if first.kind = "extends" then heritage.namedChildren.head?.map (typeName file) else none
    | [] => none

/-- The names of the interfaces that a class implements. -/
def interfacesOf (file : ParsedFile) (heritage : Tree) : List String :=
  match heritage.kindChild? "implements_clause" with
  | some clause => clause.namedChildren.map (typeName file)
  | none => []

/-! ## Declarations -/

/-- The kinds of the phrases that declare a function. -/
def functionKinds : List String :=
  ["function_declaration", "generator_function_declaration", "function", "function_expression"]

/-- The kinds of the phrases that declare variables. -/
def variableKinds : List String := ["lexical_declaration", "variable_declaration"]

/-- The kinds of the phrases that declare a class. -/
def classKinds : List String := ["class_declaration", "class"]

/-- The kinds of the values that make a variable a function. -/
def functionValueKinds : List String :=
  ["arrow_function", "function", "function_expression", "generator_function"]

/-- The kinds of the class members that are methods. -/
def methodKinds : List String :=
  ["method_definition", "method_signature", "abstract_method_signature"]

/-- The function declared at a place, if it has a name. -/
def functionAt (file : ParsedFile) (p : Place) : List Declaration :=
  match p.tree.fieldChild? "name" with
  | none => []
  | some name =>
    [file.declaration .function name p none
      { parameters := parameters file p.tree
        isAsync := (leadingKinds p.tree name).contains "async"
        returnType := returnType file p.tree
        doc := docOf file p }]

/-- The function bound to a variable by the declarator at a place. -/
def boundFunction (file : ParsedFile) (doc : Option String) (declarator : Place) :
    List Declaration :=
  match declarator.tree.fieldChild? "name", declarator.tree.fieldChild? "value" with
  | some name, some value =>
    if declarator.kind = "variable_declarator" ∧ functionValueKinds.contains value.kind then
      [file.declaration .function name declarator none
        { parameters := parameters file value
          isAsync := value.children.head?.any fun first => first.kind = "async"
          returnType := returnType file value
          doc }]
    else []
  | _, _ => []

/-- The functions bound by the variable declaration at a place. -/
def boundFunctions (file : ParsedFile) (p : Place) : List Declaration :=
  p.children.flatMap (boundFunction file (docOf file p))

/-- The visibility of a method: the one written before its name, or private for a name with a
number sign. -/
def methodVisibility (file : ParsedFile) (t name : Tree) : Option Visibility :=
  match t.kindChild? "accessibility_modifier" with
  | some modifier =>
    if modifier.label.start < name.label.start then
      Visibility.ofName? (String.ofList (trim (file.textOf modifier).toList))
    else if name.kind = "private_property_identifier" then some .privateAccess else none
  | none => if name.kind = "private_property_identifier" then some .privateAccess else none

/-- The method at a place, if it has a name. -/
def methodAt (file : ParsedFile) (owner : String) (p : Place) : List Declaration :=
  match p.tree.fieldChild? "name" with
  | none => []
  | some name =>
    let keywords := leadingKinds p.tree name
    [file.declaration .method name p (some owner)
      { parameters := parameters file p.tree
        isStatic := keywords.contains "static"
        isAsync := keywords.contains "async"
        isAbstract := p.kind = "abstract_method_signature" || keywords.contains "abstract"
        visibility := methodVisibility file p.tree name
        returnType := returnType file p.tree
        doc := docOf file p }]

/-- The methods in the body of the class at a place. -/
def methodsOf (file : ParsedFile) (owner : String) (p : Place) : List Declaration :=
  match p.fieldChild? "body" with
  | none => []
  | some body =>
    body.children.flatMap fun child =>
      if methodKinds.contains child.kind then methodAt file owner child else []

/-- The class at a place, followed by its methods. -/
def classAt (file : ParsedFile) (isAbstract : Bool) (p : Place) : List Declaration :=
  match p.tree.fieldChild? "name" with
  | none => []
  | some name =>
    let heritage := p.tree.kindChild? "class_heritage"
    let declared := file.declaration .classType name p none
      { base := heritage.bind (baseOf file)
        interfaces := (heritage.map (interfacesOf file)).getD []
        isAbstract
        doc := docOf file p }
    declared :: methodsOf file declared.id p

/-- What is declared at a place. -/
def declaredAt (file : ParsedFile) (p : Place) : List Declaration :=
  if functionKinds.contains p.kind then functionAt file p
  else if variableKinds.contains p.kind then boundFunctions file p
  else if classKinds.contains p.kind then classAt file false p
  else []

/-- The declarations of a file in the order of its text, methods right after their class. -/
def declarations (file : ParsedFile) : List Declaration := file.declarationsBy (declaredAt file)

end CodeGraph.JavaScript
