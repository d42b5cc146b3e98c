import CodeGraph.Declaration.JavaScript

/-!
# Declarations in TypeScript

TypeScript has the declarations of JavaScript and, after them, its own: interfaces with their
members, type aliases (reported as interfaces), enums (reported as classes) and abstract classes.
-/

namespace CodeGraph.TypeScript

/-- The type that an interface extends: the first one written. -/
def baseOf (file : ParsedFile) (t : Tree) : Option String :=
  (t.kindChild? "extends_type_clause").bind fun clause =>
    clause.namedChildren.head?.map (JavaScript.typeName file)

/-- The member of an interface at a place: a method or a property with a name. -/
def memberAt (file : ParsedFile) (owner : String) (p : Place) : List Declaration :=
  if p.kind = "method_signature" ∨ p.kind = "property_signature" then
    match p.tree.fieldChild? "name" with
    | none => []
    | some name =>
      [file.declaration .method name p (some owner)
        { parameters := JavaScript.parameters file p.tree
          returnType :=
            if p.kind = "property_signature" then JavaScript.fieldType? file p.tree "type"
            else JavaScript.returnType file p.tree }]
  else []

/-- The interface at a place, followed by its members. -/
def interfaceAt (file : ParsedFile) (p : Place) : List Declaration :=
  match p.tree.fieldChild? "name" with
  | none => []
  | some name =>
    let declared := file.declaration .interfaceType name p none
      { base := baseOf file p.tree, doc := JavaScript.docOf file p }
    declared ::
      match p.fieldChild? "body" with
      | none => []
      | some body => body.children.flatMap (memberAt file declared.id)

/-- A type alias or an enum. -/
def namedAt (file : ParsedFile) (kind : DeclarationKind) (p : Place) : List Declaration :=
  match p.tree.fieldChild? "name" with
  | none => []
  | some name => [file.declaration kind name p none { doc := JavaScript.docOf file p }]

/-- What TypeScript alone declares at a place. -/
def declaredAt (file : ParsedFile) (p : Place) : List Declaration :=
  if p.kind = "interface_declaration" then interfaceAt file p
  else if p.kind = "type_alias_declaration" then namedAt file .interfaceType p
  else if p.kind = "enum_declaration" then namedAt file .classType p
  else if p.kind = "abstract_class_declaration" then JavaScript.classAt file true p
  else []

/-- The declarations of a file: those of JavaScript, each id once, then those of TypeScript. -/
def declarations (file : ParsedFile) : List Declaration :=
  distinctDeclarations (JavaScript.declarations file) ++ file.declarationsBy (declaredAt file)

end CodeGraph.TypeScript
