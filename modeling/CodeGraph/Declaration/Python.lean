import CodeGraph.Declaration.Signature

/-!
# Declarations in Python

Functions and classes at any depth; a function that stands in the body of a class is a method and
follows its class.
-/

namespace CodeGraph.Python

open CodeGraph.Text

/-! ## Signatures -/

/-- The name of a parameter; that of a splat keeps its stars. -/
def parameterName (file : ParsedFile) (t : Tree) : Option String :=
  if t.kind = "identifier" then some (file.textOf t)
  else if t.kind = "default_parameter" ∨ t.kind = "typed_default_parameter" then
    (t.fieldChild? "name").map file.textOf
  else if t.kind = "typed_parameter" then
    match _h : t.namedChildren.head? with
    | some inner => parameterName file inner
    | none => none
  else if t.kind = "list_splat_pattern" then
    (t.kindChild? "identifier").map fun name => "*" ++ file.textOf name
  else if t.kind = "dictionary_splat_pattern" then
    (t.kindChild? "identifier").map fun name => "**" ++ file.textOf name
  else none
termination_by t.size
decreasing_by exact Tree.size_lt_of_namedChildren _h

/-- The type of a parameter. -/
def parameterType (file : ParsedFile) (t : Tree) : Option String :=
  if t.kind = "typed_parameter" ∨ t.kind = "typed_default_parameter" then
    (t.fieldChild? "type").map file.textOf
  else none

/-- The names of the parameters that stand for the object or its class. -/
def receiverNames : List String := ["self", "cls"]

/-- The parameters of a function without the receiver. -/
def parameters (file : ParsedFile) (t : Tree) : List Parameter :=
  match t.fieldChild? "parameters" with
  | some list =>
    (parametersOf (parameterName file) (parameterType file) list.children).filter fun p =>
      !receiverNames.contains p.name
  | none => []

/-- Two underscores. -/
def twoUnderscores : List Char := ['_', '_']

/-- The visibility that a name gives: private with two underscores in front, unless two stand at
the end as well, and protected with one. -/
def visibilityOf (name : List Char) : Visibility :=
  if twoUnderscores.isPrefixOf name ∧ ¬ twoUnderscores.isSuffixOf name then .privateAccess
  else if ['_'].isPrefixOf name ∧ ¬ twoUnderscores.isPrefixOf name then .protectedAccess
  else .publicAccess

/-- The text of a string literal without the quotation marks around it and the blanks inside. -/
def docText? (literal : List Char) : Option String :=
  let double := dropEnds (· = doubleMark)
  let single := dropEnds (· = singleMark)
  someText? (trim (single (double (single (double literal)))))

/-- The documentation in a body: a string that stands alone as its first statement. -/
def docOf (file : ParsedFile) (body : Option Tree) : Option String :=
  match body.bind fun b => b.children.head? with
  | some first =>
    match first.children.head? with
    | some expression =>
      if first.kind = "expression_statement" ∧ expression.kind = "string" then
        docText? (file.textOf expression).toList
      else none
    | none => none
  | none => none

/-- The decorators of the declaration at a place: those of the decorated definition around it, or
those right before it. -/
def decorators (file : ParsedFile) (p : Place) : List String :=
  let name (t : Tree) := annotationName (file.textOf t).toList
  match p.parent? with
  | some parent =>
    if parent.kind = "decorated_definition" then
      (parent.tree.children.filter fun child => child.kind = "decorator").map name
    else ((p.before.takeWhile fun sibling => sibling.kind = "decorator").reverse).map name
  | none => []

/-- The function is declared as asynchronous. -/
def isAsync (t : Tree) : Bool :=
  t.kind = "async_function_definition" || t.children.head?.any fun first => first.kind = "async"

/-! ## Declarations -/

/-- The place is the block of a class. -/
def isClassBody (p : Place) : Bool :=
  p.kind = "block" && p.parent?.any fun parent => parent.kind = "class_definition"

/-- The function at a place stands in the block of a class, decorated or not. -/
def isMethod (p : Place) : Bool :=
  match p.parent? with
  | some parent =>
    if parent.kind = "decorated_definition" then parent.parent?.any isClassBody
    else isClassBody parent
  | none => false

/-- The function at a place, or the method of a type. -/
def functionAt (file : ParsedFile) (owner : Option String) (p : Place) : List Declaration :=
  match p.tree.fieldChild? "name" with
  | none => []
  | some name =>
    let marks := decorators file p
    [file.declaration (if owner.isSome then .method else .function) name p owner
      { parameters := parameters file p.tree
        decorators := marks
        isAsync := isAsync p.tree
        isStatic := owner.isSome && (marks.contains "staticmethod" || marks.contains "classmethod")
        visibility := some (visibilityOf (file.textOf name).toList)
        returnType := (p.tree.fieldChild? "return_type").map file.textOf
        doc := docOf file (p.tree.fieldChild? "body") }]

/-- The function that a statement of a class block defines, decorated or not. -/
def definition? (p : Place) : Option Place :=
  let inner :=
    if p.kind = "decorated_definition" then
      (p.fieldChild? "definition").or (p.kindChild? "function_definition")
    else some p
  inner.filter fun f => f.kind = "function_definition"

/-- The class that is extended: the first plain name among the bases, `object` counting as none. -/
def baseOf (file : ParsedFile) (t : Tree) : Option String :=
  ((t.fieldChild? "superclasses").bind fun bases =>
    (bases.kindChild? "identifier").map file.textOf).filter (· ≠ "object")

/-- The class at a place, followed by its methods. -/
def classAt (file : ParsedFile) (p : Place) : List Declaration :=
  match p.tree.fieldChild? "name" with
  | none => []
  | some name =>
    let declared := file.declaration .classType name p none
      { base := baseOf file p.tree
        decorators := decorators file p
        doc := docOf file (p.tree.fieldChild? "body") }
    declared ::
      match p.fieldChild? "body" with
      | none => []
      | some body =>
        (body.children.filterMap definition?).flatMap (functionAt file (some declared.id))

/-- What is declared at a place; methods are declared with their class. -/
def declaredAt (file : ParsedFile) (p : Place) : List Declaration :=
  if p.kind = "function_definition" then if isMethod p then [] else functionAt file none p
  else if p.kind = "class_definition" then classAt file p
  else []

/-- The declarations of a file in the order of its text, methods right after their class. -/
def declarations (file : ParsedFile) : List Declaration := file.declarationsBy (declaredAt file)

end CodeGraph.Python
