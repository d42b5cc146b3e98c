import CodeGraph.Proofs.Identity
import CodeGraph.Proofs.Ownership.Survey

/-!
# Moving a file

A file that is moved to another path has the same declarations there, in the same order and with the
same traits; only their paths, their ids and the ids of their owners are new (`reading_moved`).  No
reader looks at the path while it walks through the tree (`sightings_moved`), and two declarations
of a file have one id at the new path exactly if they have one at the old path, so the same repeats
are dropped (`distinctDeclarations_moved`).
-/

namespace CodeGraph

variable {file : ParsedFile} {path : String}

/-- The file at another path. -/
def ParsedFile.moved (path : String) (file : ParsedFile) : ParsedFile := { file with path }

/-- The id that a declaration of the file at `old` has when the file is at `new`. -/
def movedId (old new id : String) : String := new ++ String.ofList (id.toList.drop old.length)

/-- The declaration when its file is at another path. -/
def Declaration.moved (path : String) (d : Declaration) : Declaration :=
  { d with path, owner := d.owner.map (movedId d.path path) }

@[simp]
theorem movedId_declarationId (old new : String) (line : Int) (name : String) :
    movedId old new (declarationId old line name) = declarationId new line name := by
  apply String.toList_inj.1
  rw [movedId, String.toList_append, toList_declarationId, toList_declarationId,
    String.toList_ofList, ← String.length_toList, List.drop_left]

theorem Declaration.movedId_id (path : String) (d : Declaration) :
    movedId d.path path d.id = (d.moved path).id :=
  movedId_declarationId d.path path d.span.start.line d.name

/-! ## Repeats -/

/-- In one file the new ids tell the same declarations apart as the old ones. -/
theorem Declaration.id_moved_eq_iff {d e : Declaration} (same : d.path = e.path) :
    (d.moved path).id = (e.moved path).id ↔ d.id = e.id := by
  have new : (d.moved path).id = (e.moved path).id ↔
      d.span.start.line = e.span.start.line ∧ d.name = e.name := by
    constructor
    · intro h
      exact declarationId_inj_left h
    · rintro ⟨line, name⟩
      show declarationId path d.span.start.line d.name = declarationId path e.span.start.line e.name
      rw [line, name]
  have old : d.id = e.id ↔ d.span.start.line = e.span.start.line ∧ d.name = e.name := by
    rw [Declaration.id, Declaration.id, same]
    constructor
    · exact declarationId_inj_left
    · rintro ⟨line, name⟩
      rw [line, name]
  rw [new, old]

theorem distinctDeclarations_moved {ds : List Declaration} {old : String}
    (one : ∀ d ∈ ds, d.path = old) :
    distinctDeclarations (ds.map (Declaration.moved path)) =
      (distinctDeclarations ds).map (Declaration.moved path) := by
  unfold distinctDeclarations
  rw [withoutRepeats_map]
  congr 1
  apply withoutRepeats_congr
  intro d hd e he
  exact Declaration.id_moved_eq_iff ((one d hd).trans (one e he).symm)

/-! ## Places -/

theorem declarationsBy_moved {emit emit' : Place → List Declaration}
    (h : ∀ p, emit' p = (emit p).map (Declaration.moved path)) :
    (file.moved path).declarationsBy emit' =
      (file.declarationsBy emit).map (Declaration.moved path) := by
  unfold ParsedFile.declarationsBy
  rw [emitted_eq_flatMap, emitted_eq_flatMap, List.map_flatMap]
  exact List.flatMap_congr fun p _ => h p

/-- A type and, behind it, its members, which are found under its id. -/
theorem family_moved {t t' : Declaration} (places : List Place)
    (found found' : String → Place → List Declaration) (type : t' = t.moved path)
    (h : ∀ owner p, found' (movedId t.path path owner) p =
      (found owner p).map (Declaration.moved path)) :
    t' :: places.flatMap (found' t'.id) =
      (t :: places.flatMap (found t.id)).map (Declaration.moved path) := by
  rw [type, List.map_cons, List.map_flatMap, ← Declaration.movedId_id]
  congr 1
  exact List.flatMap_congr fun p _ => h t.id p

/-- What is declared on one condition only. -/
theorem onlyIf_moved {c : Prop} [Decidable c] {ds ds' : List Declaration}
    (h : ds' = ds.map (Declaration.moved path)) :
    (if c then ds' else []) = (if c then ds else []).map (Declaration.moved path) := by
  split_ifs
  · exact h
  · rfl

namespace Python

@[simp]
theorem parameterName_moved (t : Tree) :
    parameterName (file.moved path) t = parameterName file t := by
  rw [parameterName, parameterName]
  split_ifs
  · rfl
  · rfl
  · cases first : t.namedChildren.head? with
    | none => rfl
    | some inner => exact parameterName_moved inner
  · rfl
  · rfl
  · rfl
termination_by t.size
decreasing_by exact Tree.size_lt_of_namedChildren first

@[simp]
theorem parameters_moved (t : Tree) : parameters (file.moved path) t = parameters file t := by
  have names : parameterName (file.moved path) = parameterName file := funext parameterName_moved
  unfold parameters
  rw [names]
  rfl

@[simp]
theorem functionAt_moved (owner : Option String) (p : Place) :
    functionAt (file.moved path) (owner.map (movedId file.path path)) p =
      (functionAt file owner p).map (Declaration.moved path) := by
  unfold functionAt
  cases p.tree.fieldChild? "name" with
  | none => rfl
  | some name =>
    rw [parameters_moved, Option.isSome_map]
    rfl

@[simp]
theorem classAt_moved (p : Place) :
    classAt (file.moved path) p = (classAt file p).map (Declaration.moved path) := by
  unfold classAt
  cases p.tree.fieldChild? "name" with
  | none => rfl
  | some name =>
    cases p.fieldChild? "body" with
    | none => rfl
    | some body =>
      exact family_moved (body.children.filterMap definition?)
        (fun owner => functionAt file (some owner))
        (fun owner => functionAt (file.moved path) (some owner)) rfl
        fun owner => functionAt_moved (some owner)

@[simp]
theorem declaredAt_moved (p : Place) :
    declaredAt (file.moved path) p = (declaredAt file p).map (Declaration.moved path) := by
  unfold declaredAt
  split_ifs
  · rfl
  · exact functionAt_moved none p
  · exact classAt_moved p
  · rfl

end Python

namespace JavaScript

@[simp]
theorem parameterName_moved (t : Tree) :
    parameterName (file.moved path) t = parameterName file t := by
  rw [parameterName, parameterName]
  split_ifs
  · rfl
  · rfl
  · rfl
  · cases found : t.fieldChild? "pattern" with
    | none => rfl
    | some pattern =>
      dsimp only
      rw [parameterName_moved pattern]
  · rfl
termination_by t.size
decreasing_by exact Tree.size_lt_of_fieldChild? found

@[simp]
theorem parameters_moved (t : Tree) : parameters (file.moved path) t = parameters file t := by
  have names : parameterName (file.moved path) = parameterName file := funext parameterName_moved
  unfold parameters
  rw [names]
  rfl

@[simp]
theorem functionAt_moved (p : Place) :
    functionAt (file.moved path) p = (functionAt file p).map (Declaration.moved path) := by
  unfold functionAt
  cases p.tree.fieldChild? "name" with
  | none => rfl
  | some name =>
    rw [parameters_moved]
    rfl

@[simp]
theorem boundFunction_moved (doc : Option String) (p : Place) :
    boundFunction (file.moved path) doc p =
      (boundFunction file doc p).map (Declaration.moved path) := by
  unfold boundFunction
  cases p.tree.fieldChild? "name" with
  | none => rfl
  | some name =>
    cases p.tree.fieldChild? "value" with
    | none => rfl
    | some value =>
      dsimp only
      rw [parameters_moved]
      split_ifs <;> rfl

@[simp]
theorem methodAt_moved (owner : String) (p : Place) :
    methodAt (file.moved path) (movedId file.path path owner) p =
      (methodAt file owner p).map (Declaration.moved path) := by
  unfold methodAt
  cases p.tree.fieldChild? "name" with
  | none => rfl
  | some name =>
    rw [parameters_moved]
    rfl

@[simp]
theorem classAt_moved (isAbstract : Bool) (p : Place) :
    classAt (file.moved path) isAbstract p =
      (classAt file isAbstract p).map (Declaration.moved path) := by
  unfold classAt
  cases p.tree.fieldChild? "name" with
  | none => rfl
  | some name =>
    dsimp only
    unfold methodsOf
    cases p.fieldChild? "body" with
    | none => rfl
    | some body =>
      refine family_moved body.children
        (fun owner child =>
          if methodKinds.contains child.kind then methodAt file owner child else [])
        (fun owner child =>
          if methodKinds.contains child.kind then methodAt (file.moved path) owner child else [])
        rfl fun owner child => ?_
      exact onlyIf_moved (methodAt_moved owner child)

@[simp]
theorem declaredAt_moved (p : Place) :
    declaredAt (file.moved path) p = (declaredAt file p).map (Declaration.moved path) := by
  unfold declaredAt
  split_ifs
  · exact functionAt_moved p
  · unfold boundFunctions
    rw [List.map_flatMap]
    exact List.flatMap_congr fun declarator _ => boundFunction_moved _ declarator
  · exact classAt_moved false p
  · rfl

@[simp]
theorem declarations_moved :
    declarations (file.moved path) = (declarations file).map (Declaration.moved path) :=
  declarationsBy_moved declaredAt_moved

end JavaScript

namespace TypeScript

@[simp]
theorem memberAt_moved (owner : String) (p : Place) :
    memberAt (file.moved path) (movedId file.path path owner) p =
      (memberAt file owner p).map (Declaration.moved path) := by
  unfold memberAt
  apply onlyIf_moved
  cases p.tree.fieldChild? "name" with
  | none => rfl
  | some name =>
    dsimp only
    rw [JavaScript.parameters_moved]
    rfl

@[simp]
theorem interfaceAt_moved (p : Place) :
    interfaceAt (file.moved path) p = (interfaceAt file p).map (Declaration.moved path) := by
  unfold interfaceAt
  cases p.tree.fieldChild? "name" with
  | none => rfl
  | some name =>
    cases p.fieldChild? "body" with
    | none => rfl
    | some body =>
      exact family_moved body.children (memberAt file) (memberAt (file.moved path)) rfl
        memberAt_moved

@[simp]
theorem namedAt_moved (kind : DeclarationKind) (p : Place) :
    namedAt (file.moved path) kind p = (namedAt file kind p).map (Declaration.moved path) := by
  unfold namedAt
  cases p.tree.fieldChild? "name" <;> rfl

@[simp]
theorem declaredAt_moved (p : Place) :
    declaredAt (file.moved path) p = (declaredAt file p).map (Declaration.moved path) := by
  unfold declaredAt
  split_ifs
  · exact interfaceAt_moved p
  · exact namedAt_moved .interfaceType p
  · exact namedAt_moved .classType p
  · exact JavaScript.classAt_moved true p
  · rfl

end TypeScript

namespace Java

@[simp]
theorem methodAt_moved (owner : String) (p : Place) :
    methodAt (file.moved path) (movedId file.path path owner) p =
      (methodAt file owner p).map (Declaration.moved path) := by
  have names : methodName? (file.moved path) p.tree = methodName? file p.tree := rfl
  unfold methodAt
  rw [names]
  cases methodName? file p.tree <;> rfl

@[simp]
theorem typeAt_moved (kind : DeclarationKind) (p : Place) :
    typeAt (file.moved path) kind p = (typeAt file kind p).map (Declaration.moved path) := by
  unfold typeAt
  cases p.tree.fieldChild? "name" with
  | none => rfl
  | some name =>
    cases p.fieldChild? "body" with
    | none => rfl
    | some body =>
      refine family_moved (membersOf body)
        (fun owner member =>
          if methodKinds.contains member.kind then methodAt file owner member else [])
        (fun owner member =>
          if methodKinds.contains member.kind then methodAt (file.moved path) owner member else [])
        rfl fun owner member => ?_
      exact onlyIf_moved (methodAt_moved owner member)

@[simp]
theorem declaredAt_moved (p : Place) :
    declaredAt (file.moved path) p = (declaredAt file p).map (Declaration.moved path) := by
  unfold declaredAt
  split_ifs
  · exact typeAt_moved .classType p
  · exact typeAt_moved .interfaceType p
  · rfl

end Java

/-! ## Files -/

theorem sightings_moved (language : Language) :
    language.sightings (file.moved path) =
      (language.sightings file).map (Declaration.moved path) := by
  cases language with
  | javascript => exact JavaScript.declarations_moved
  | typescript =>
    have own : (file.moved path).declarationsBy (TypeScript.declaredAt (file.moved path)) =
        (file.declarationsBy (TypeScript.declaredAt file)).map (Declaration.moved path) :=
      declarationsBy_moved TypeScript.declaredAt_moved
    unfold Language.sightings
    simp [own]
  | java => exact declarationsBy_moved Java.declaredAt_moved
  | python =>
    have same : (file.moved path).language = file.language := rfl
    unfold Language.sightings
    rw [same]
    split_ifs
    · exact declarationsBy_moved Python.declaredAt_moved
    · rfl

theorem path_of_mem_sightings {language : Language} {d : Declaration}
    (h : d ∈ language.sightings file) : d.path = file.path := by
  obtain ⟨q, -, stands⟩ := ((ownersFirst_sightings file language).forall_mem d h).place
  exact stands.path

/-- Whether a reader takes a file has nothing to do with its path. -/
theorem isOk_read_moved {language : Language} {reader : Reader}
    (h : ReaderTable.standard language = some reader) :
    (reader.read (file.moved path)).isOk = (reader.read file).isOk := by
  cases language with
  | python =>
    obtain rfl := Option.some.inj h
    have same : (file.moved path).language = file.language := rfl
    unfold Reader.python
    dsimp only
    rw [same]
    split_ifs <;> rfl
  | _ =>
    obtain rfl := Option.some.inj h
    rfl

theorem toOption_run (reader : Reader) (file : ParsedFile) :
    (reader.run file).toOption =
      if (reader.read file).isOk then some (reader.runGuarded file) else none := by
  unfold Reader.runGuarded Reader.run
  cases reader.read file <;> rfl

/-- The declarations of a moved file are those of the file, each with the new path; a member whose
owner is a declaration `t` of the file has the moved `t` as its owner.  A file that cannot be read
cannot be read at another path either. -/
theorem reading_moved {language : Language} {reader : Reader}
    (standard : ReaderTable.standard language = some reader) (file : ParsedFile) (path : String) :
    reader.runGuarded (file.moved path) =
        (reader.runGuarded file).map (Declaration.moved path) ∧
      (reader.run (file.moved path)).toOption =
        (reader.run file).toOption.map (List.map (Declaration.moved path)) ∧
      ∀ d ∈ reader.runGuarded file, d.path = file.path ∧
        ∀ id, d.owner = some id → ∃ t ∈ reader.runGuarded file,
          t.id = id ∧ (d.moved path).owner = some (t.moved path).id := by
  have declared : reader.runGuarded (file.moved path) =
      (reader.runGuarded file).map (Declaration.moved path) := by
    rw [runGuarded_standard standard, runGuarded_standard standard, sightings_moved]
    exact distinctDeclarations_moved fun d hd => path_of_mem_sightings hd
  have inFile : ∀ d ∈ reader.runGuarded file, d.path = file.path := by
    intro d hd
    rw [runGuarded_standard standard] at hd
    exact path_of_mem_sightings (mem_of_mem_withoutRepeats _ hd)
  refine ⟨declared, ?_, fun d hd => ⟨inFile d hd, fun id owner => ?_⟩⟩
  · rw [toOption_run, toOption_run, isOk_read_moved standard, declared]
    split_ifs <;> rfl
  · have first := (ownersFirst_sightings file language).distinct
    rw [← runGuarded_standard standard] at first
    obtain ⟨t, ht, rfl, -⟩ := first.exists_owner hd owner
    refine ⟨t, ht, rfl, ?_⟩
    show d.owner.map (movedId d.path path) = _
    rw [owner, inFile d hd, ← inFile t ht, Option.map_some, Declaration.movedId_id]

/-- A file whose path looks like an id, with a class in a function of the same name. -/
def colonFile : ParsedFile :=
  { path := "a:1:A", language := .javascript, grammar := "javascript", hasError := false,
    source := Text.Utf8.encode Surveyor.shadowed.content.toList, tree := Surveyor.shadowedTree }

/-- At both paths the class goes as a repeat of the function. -/
theorem reading_moved_colon :
    ReaderTable.standard .javascript = some .javascript ∧
      (Reader.javascript.runGuarded colonFile).map (fun d => (d.id, d.owner)) =
        [("a:1:A:1:A", none), ("a:1:A:1:m", some "a:1:A:1:A")] ∧
      Reader.javascript.runGuarded (colonFile.moved "b:1") =
        (Reader.javascript.runGuarded colonFile).map (Declaration.moved "b:1") ∧
      (Reader.javascript.runGuarded (colonFile.moved "b:1")).map (fun d => (d.id, d.owner)) =
        [("b:1:1:A", none), ("b:1:1:m", some "b:1:1:A")] := by
  have known : ReaderTable.standard .javascript = some .javascript := rfl
  have moved := (reading_moved known colonFile "b:1").1
  refine ⟨known, by decide +kernel, moved, ?_⟩
  rw [moved]
  decide +kernel

end CodeGraph
