import CodeGraph.Proofs.Declaration.Python
import CodeGraph.Proofs.Survey.Sightings
import CodeGraph.Proofs.Text.Ends

/-!
# Parameters and documentation in Python

Every declaration is that of a function or of a class in the tree (`exists_definition`), and its
parameters and its documentation are read off that node.  The parameters are the written ones
without those named `self` or `cls`, which are missing in plain functions as they are in methods
(`parameters_written`).  The documentation is the string at the beginning of the body without the
quotation marks around it; with them go the marks that stand at the ends of the string itself
(`doc_quoted`).
-/

namespace CodeGraph.Python

open CodeGraph.Text

variable {file : ParsedFile} {root : Tree} {p c : Place} {d : Declaration}

/-! ## Definitions -/

/-- The declaration is that of the function at the place: a plain function, or a method if the
function is found in the body of a class. -/
structure DefinesFunction (file : ParsedFile) (p : Place) (d : Declaration) : Prop
    extends ReadsOff file p d where
  met : p ∈ (Place.root file.tree).preorder
  kind : p.kind = "function_definition"
  place : (d.kind = .function ∧ isMethod p = false) ∨
    (d.kind = .method ∧ ∃ c ∈ (Place.root file.tree).preorder,
      c.kind = "class_definition" ∧ p ∈ methodPlaces c)
  parameters : d.traits.parameters = parameters file p.tree
  doc : d.traits.doc = docOf file (p.tree.fieldChild? "body")

/-- The declaration is that of the class at the place. -/
structure DefinesClass (file : ParsedFile) (p : Place) (d : Declaration) : Prop
    extends ReadsOff file p d where
  met : p ∈ (Place.root file.tree).preorder
  kind : p.kind = "class_definition"
  classType : d.kind = .classType
  doc : d.traits.doc = docOf file (p.tree.fieldChild? "body")

theorem mem_functionAt {owner : Option String} (h : d ∈ functionAt file owner p) :
    ReadsOff file p d ∧ d.kind = (if owner.isSome then .method else .function) ∧
      d.traits.parameters = parameters file p.tree ∧
      d.traits.doc = docOf file (p.tree.fieldChild? "body") := by
  unfold functionAt at h
  split at h
  · cases h
  · rename_i name named
    obtain rfl := List.mem_singleton.1 h
    exact ⟨readsOff_declaration file _ named _ _, rfl, rfl, rfl⟩

theorem mem_classAt (h : d ∈ classAt file c) :
    (ReadsOff file c d ∧ d.kind = .classType ∧
      d.traits.doc = docOf file (c.tree.fieldChild? "body")) ∨
      ∃ p ∈ methodPlaces c, ∃ id, d ∈ functionAt file (some id) p := by
  unfold classAt at h
  split at h
  · cases h
  · rename_i name named
    rcases List.mem_cons.1 h with rfl | h
    · exact Or.inl ⟨readsOff_declaration file _ named _ _, rfl, rfl⟩
    · split at h
      · cases h
      · rename_i body inside
        obtain ⟨p, hp, hd⟩ := List.mem_flatMap.1 h
        refine Or.inr ⟨p, ?_, _, hd⟩
        rwa [methodPlaces, inside]

/-- The methods of a class are functions of the tree. -/
theorem met_of_mem_methodPlaces (hc : c ∈ (Place.root root).preorder) (hp : p ∈ methodPlaces c) :
    p ∈ (Place.root root).preorder ∧ p.kind = "function_definition" := by
  unfold methodPlaces at hp
  split at hp
  · cases hp
  · rename_i body inside
    obtain ⟨child, hchild, defined⟩ := List.mem_filterMap.1 hp
    constructor
    · have below := below_of_definition? hchild defined
      have reached := Place.mem_preorder_iff.1
        (Place.mem_preorder_of_mem_children hc (Place.mem_children_of_fieldChild? inside))
      exact Place.mem_preorder_iff.2 (reached.trans below.to_reflTransGen)
    · exact of_decide_eq_true (Option.filter_eq_some_iff.1 defined).2

theorem exists_definition (h : d ∈ declarations file) :
    ∃ p, DefinesFunction file p d ∨ DefinesClass file p d := by
  rw [declarations_eq] at h
  obtain ⟨q, met, h⟩ := List.mem_flatMap.1 h
  unfold declaredAt at h
  split_ifs at h with isFunction inClass isClass
  · cases h
  · obtain ⟨read, kind, parameters, doc⟩ := mem_functionAt h
    have free : isMethod q = false := Bool.eq_false_iff.2 inClass
    exact ⟨q, Or.inl ⟨read, met, isFunction, Or.inl ⟨kind, free⟩, parameters, doc⟩⟩
  · rcases mem_classAt h with ⟨read, kind, doc⟩ | ⟨p, hp, id, h⟩
    · exact ⟨q, Or.inr ⟨read, met, isClass, kind, doc⟩⟩
    · obtain ⟨read, kind, parameters, doc⟩ := mem_functionAt h
      obtain ⟨metInside, isFunction⟩ := met_of_mem_methodPlaces met hp
      exact ⟨p, Or.inl ⟨read, metInside, isFunction, Or.inr ⟨kind, q, met, isClass, hp⟩, parameters,
        doc⟩⟩
  · cases h

theorem exists_definition_of_mem_runGuarded (h : d ∈ Reader.python.runGuarded file) :
    ∃ p, DefinesFunction file p d ∨ DefinesClass file p d := by
  have known : ReaderTable.standard .python = some Reader.python := rfl
  rw [runGuarded_standard known] at h
  have sighted := mem_of_mem_withoutRepeats _ h
  unfold Language.sightings at sighted
  split_ifs at sighted
  · exact exists_definition sighted
  · cases sighted

/-! ## Parameters -/

/-- The children of a parameter list that have a name. -/
def parameterNodes (file : ParsedFile) (t : Tree) : List Tree :=
  ((t.fieldChild? "parameters").elim [] Tree.children).filter fun child =>
    (filled? (parameterName file child)).isSome

/-- The node writes a parameter with this name and this type. -/
def Writes (file : ParsedFile) (t : Tree) (written : Parameter) : Prop :=
  parameterName file t = some written.name ∧ written.type = parameterType file t

theorem forall₂_parametersOf (file : ParsedFile) (nodes : List Tree) :
    List.Forall₂ (Writes file) (nodes.filter fun t => (filled? (parameterName file t)).isSome)
      (parametersOf (parameterName file) (parameterType file) nodes) := by
  rw [parametersOf, List.filterMap_eq_flatMap_toList]
  refine forall₂_filter_flatMap (fun t _ named => ?_) fun t _ unnamed => ?_
  · obtain ⟨name, hname⟩ := Option.isSome_iff_exists.1 named
    refine ⟨⟨name, parameterType file t⟩, by rw [hname]; rfl, ?_, rfl⟩
    exact (Option.filter_eq_some_iff.1 hname).1
  · have none : filled? (parameterName file t) = none :=
      Option.isNone_iff_eq_none.1 (Option.isSome_eq_false_iff.1 unnamed)
    rw [none]
    rfl

/-- The parameters of a node are the written ones without the receiver. -/
theorem exists_written (file : ParsedFile) (t : Tree) :
    ∃ written, List.Forall₂ (Writes file) (parameterNodes file t) written ∧
      parameters file t = written.filter fun w => !receiverNames.contains w.name := by
  unfold parameterNodes parameters
  cases t.fieldChild? "parameters" with
  | none => exact ⟨[], .nil, rfl⟩
  | some list => exact ⟨_, forall₂_parametersOf file list.children, rfl⟩

/-- The parameters of a function or of a method are the written ones, one for every child of the
list with a name and in the same order, without those named `self` or `cls`.  So nothing is missing
exactly if no written parameter has such a name; whether the function stands in a class does not
matter. -/
theorem parameters_written (h : d ∈ Reader.python.runGuarded file)
    (callable : d.kind.isCallable = true) :
    ∃ p, DefinesFunction file p d ∧
      ∃ written, List.Forall₂ (Writes file) (parameterNodes file p.tree) written ∧
        d.traits.parameters = (written.filter fun w => !receiverNames.contains w.name) ∧
        (d.traits.parameters = written ↔ ∀ w ∈ written, w.name ≠ "self" ∧ w.name ≠ "cls") := by
  obtain ⟨p, function | type⟩ := exists_definition_of_mem_runGuarded h
  · obtain ⟨written, nodes, kept⟩ := exists_written file p.tree
    rw [← function.parameters] at kept
    refine ⟨p, function, written, nodes, kept, ?_⟩
    rw [kept, List.filter_eq_self]
    refine forall₂_congr fun w _ => ?_
    simp [receiverNames]
  · rw [type.classType] at callable
    cases callable

/-- The function with the parameters `cls` and `n` whose body is a string. -/
def letterTree : Tree :=
  let token (text : String) (start stop : Nat) : Tree := .node ⟨text, false, start, stop, none⟩ []
  let word (kind : String) (start stop : Nat) : Tree := .node ⟨kind, true, start, stop, none⟩ []
  let list := Tree.node ⟨"parameters", true, 5, 13, some "parameters"⟩
    [token "(" 5 6, word "identifier" 6 9, token "," 9 10, word "identifier" 11 12, token ")" 12 13]
  let string := Tree.node ⟨"string", true, 17, 31, none⟩
    [word "string_start" 17 18, word "string_content" 18 30, word "string_end" 30 31]
  let body := Tree.node ⟨"block", true, 17, 31, some "body"⟩
    [.node ⟨"expression_statement", true, 17, 31, none⟩ [string]]
  .node ⟨"function_definition", true, 0, 31, none⟩
    [token "def" 0 3, .node ⟨"identifier", true, 4, 5, some "name"⟩ [], list, token ":" 13 14, body]

/-- A file with one plain function, documented by `'a' is first`. -/
def letterFile : ParsedFile :=
  { path := "a.py", language := .python, grammar := "python", hasError := false,
    source := Utf8.encode "def f(cls, n):\n  \"'a' is first\"\n".toList,
    tree := .node ⟨"module", true, 0, 32, none⟩ [letterTree] }

/-- The declaration of the function in `letterFile`. -/
def letterFunction : Declaration :=
  { name := "f", kind := .function, language := .python, path := "a.py",
    span := ⟨⟨1, 0⟩, ⟨2, 16⟩⟩, owner := none,
    traits :=
      { parameters := [⟨"n", none⟩], visibility := some .publicAccess, doc := some "a' is first" } }

theorem mem_runGuarded_letterFile : letterFunction ∈ Reader.python.runGuarded letterFile := by
  decide +kernel

theorem DefinesFunction.tree_letterFile (h : DefinesFunction letterFile p d) :
    p.tree = letterTree := by
  have only : letterFile.tree.Everywhere fun t =>
      t.kind = "function_definition" → t = letterTree := by
    simp [letterFile, letterTree, Tree.kind, Tree.label]
  exact Tree.Everywhere.of_mem_preorder (p := .root letterFile.tree) only h.met h.kind

theorem length_parameterNodes_letter : (parameterNodes letterFile letterTree).length = 2 := by
  decide +kernel

/-- One of the two written parameters of the plain function is missing. -/
theorem parameters_written_letter :
    letterFunction ∈ Reader.python.runGuarded letterFile ∧ letterFunction.kind.isCallable = true ∧
      ∃ written, List.Forall₂ (Writes letterFile) (parameterNodes letterFile letterTree) written ∧
        letterFunction.traits.parameters =
          (written.filter fun w => !receiverNames.contains w.name) ∧
        ¬ ∀ w ∈ written, w.name ≠ "self" ∧ w.name ≠ "cls" := by
  refine ⟨mem_runGuarded_letterFile, by decide, ?_⟩
  obtain ⟨p, defines, written, nodes, kept, whole⟩ :=
    parameters_written mem_runGuarded_letterFile (by decide)
  rw [defines.tree_letterFile] at nodes
  refine ⟨written, nodes, kept, fun free => ?_⟩
  have length := nodes.length_eq
  rw [← whole.2 free, length_parameterNodes_letter] at length
  cases length

/-- A plain function does not keep its parameter named `cls`. -/
theorem not_forall₂_writes_letter :
    ∃ d ∈ Reader.python.runGuarded letterFile, d.kind = .function ∧
      ∃ p, DefinesFunction letterFile p d ∧
        ¬ List.Forall₂ (Writes letterFile) (parameterNodes letterFile p.tree)
          d.traits.parameters := by
  obtain ⟨p, function | type⟩ := exists_definition_of_mem_runGuarded mem_runGuarded_letterFile
  · refine ⟨letterFunction, mem_runGuarded_letterFile, rfl, p, function, fun nodes => ?_⟩
    have length := nodes.length_eq
    rw [function.tree_letterFile, length_parameterNodes_letter] at length
    cases length
  · cases type.classType

/-! ## Documentation -/

/-- The characters that strip a string literal, in their order. -/
def quotationMarks : List Char := [doubleMark, singleMark, doubleMark, singleMark]

/-- The marks between which a string stands. -/
def delimiters : List (List Char) :=
  [[doubleMark, doubleMark, doubleMark], [singleMark, singleMark, singleMark], [doubleMark],
    [singleMark]]

/-- A delimiter consists of one kind of marks. -/
theorem delimiter_cases {q : List Char} (hq : q ∈ delimiters) :
    q ≠ [] ∧ ((∀ c ∈ q, c = doubleMark) ∨ ∀ c ∈ q, c = singleMark) := by
  simp only [delimiters, List.mem_cons, List.not_mem_nil, or_false] at hq
  rcases hq with rfl | rfl | rfl | rfl <;> simp

@[simp]
theorem isBlank_quotationMark {mark : Char} (h : mark ∈ quotationMarks) : isBlank mark = false := by
  simp only [quotationMarks, List.mem_cons, List.not_mem_nil, or_false] at h
  rcases h with rfl | rfl | rfl | rfl <;> rfl

theorem someText?_inj {a b : List Char} (h : someText? a = someText? b) : a = b := by
  unfold someText? at h
  split_ifs at h with emptyLeft emptyRight
  · rw [List.isEmpty_iff.1 emptyLeft, List.isEmpty_iff.1 emptyRight]
  · exact String.ofList_injective (Option.some.inj h)

theorem docText?_eq (literal : List Char) :
    docText? literal = someText? (trim (peel quotationMarks literal)) := by
  simp only [docText?, peel, quotationMarks, List.foldl_cons, List.foldl_nil]

/-- The delimiters go with the first mark that is theirs, and both marks are still dropped behind
it. -/
theorem peel_literal {q : List Char} (hq : q ∈ delimiters) (s : List Char) :
    ∃ marks, peel quotationMarks (q ++ (s ++ q)) = peel marks s ∧
      ∀ mark, mark ∈ marks ↔ mark ∈ quotationMarks := by
  obtain ⟨some, double | single⟩ := delimiter_cases hq
  · refine ⟨quotationMarks, peel_padded double _ s, fun mark => Iff.rfl⟩
  · -- No double mark stands at an end of the literal, so the first strip does nothing.
    have free : FreeEnds [doubleMark] (q ++ (s ++ q)) := by
      refine freeEnds_padded some (fun c hc => ?_) s
      rw [single c hc]
      decide
    refine ⟨[singleMark, doubleMark, singleMark], ?_, ?_⟩
    · rw [quotationMarks, peel_cons_of_freeEnds free, peel_padded single]
    · intro mark
      refine ⟨List.mem_cons_of_mem _, fun h => ?_⟩
      rcases List.mem_cons.1 h with rfl | later
      · decide
      · exact later

/-- The first statement of the body is a string `s` between the marks `q`. -/
def BeginsWithString (file : ParsedFile) (body : Tree) (q s : List Char) : Prop :=
  ∃ first string, body.children.head? = some first ∧ first.kind = "expression_statement" ∧
    first.children.head? = some string ∧ string.kind = "string" ∧
    (file.textOf string).toList = q ++ (s ++ q)

theorem docOf_string {body : Tree} {q s : List Char} (h : BeginsWithString file body q s) :
    docOf file (some body) = docText? (q ++ (s ++ q)) := by
  obtain ⟨first, string, hfirst, statement, hstring, kind, text⟩ := h
  unfold docOf
  rw [Option.bind_some, hfirst]
  dsimp only
  rw [hstring]
  dsimp only
  rw [if_pos ⟨statement, kind⟩, text]

/-- The documentation of a function or a class whose body begins with a string `s` is a part of `s`
without blanks around it, and only quotation marks are missing at its ends.  It is `s` without the
blanks around it exactly if no quotation mark stands at an end of `s`. -/
theorem doc_quoted (h : d ∈ Reader.python.runGuarded file) :
    ∃ p, (DefinesFunction file p d ∨ DefinesClass file p d) ∧
      ∀ body, p.tree.fieldChild? "body" = some body → ∀ q ∈ delimiters, ∀ s,
        BeginsWithString file body q s →
          (∃ front part back, s = front ++ (part ++ back) ∧ (∀ c ∈ front, c ∈ quotationMarks) ∧
            (∀ c ∈ back, c ∈ quotationMarks) ∧ d.traits.doc = someText? (trim part)) ∧
          (d.traits.doc = someText? (trim s) ↔ FreeEnds quotationMarks s) := by
  obtain ⟨p, defines⟩ := exists_definition_of_mem_runGuarded h
  have doc : d.traits.doc = docOf file (p.tree.fieldChild? "body") := by
    rcases defines with function | type
    · exact function.doc
    · exact type.doc
  refine ⟨p, defines, fun body inside q hq s string => ?_⟩
  obtain ⟨marks, peeled, both⟩ := peel_literal hq s
  rw [doc, inside, docOf_string string, docText?_eq, peeled]
  constructor
  · obtain ⟨front, back, split, before, behind⟩ := peel_decomposition marks s
    exact ⟨front, _, back, split, fun c hc => (both c).1 (before c hc),
      fun c hc => (both c).1 (behind c hc), rfl⟩
  · have visible : ∀ mark ∈ marks, isBlank mark = false := fun mark hmark =>
      isBlank_quotationMark ((both mark).1 hmark)
    have free : FreeEnds marks s ↔ FreeEnds quotationMarks s := by
      simp only [FreeEnds, both]
    rw [← free, ← trim_peel_eq_iff visible]
    exact ⟨someText?_inj, congrArg someText?⟩

/-- The string in `letterFile`. -/
def letterString : List Char := "'a' is first".toList

theorem beginsWithString_letter :
    ∃ body, letterTree.fieldChild? "body" = some body ∧
      BeginsWithString letterFile body [doubleMark] letterString :=
  ⟨_, rfl, _, _, rfl, rfl, rfl, rfl, by decide +kernel⟩

/-- The mark at the beginning of the string is missing. -/
theorem doc_quoted_letter :
    letterFunction ∈ Reader.python.runGuarded letterFile ∧ [doubleMark] ∈ delimiters ∧
      (∃ body, letterTree.fieldChild? "body" = some body ∧
        BeginsWithString letterFile body [doubleMark] letterString) ∧
      ∃ front part back, letterString = front ++ (part ++ back) ∧
        (∀ c ∈ front, c ∈ quotationMarks) ∧
        (∀ c ∈ back, c ∈ quotationMarks) ∧ letterFunction.traits.doc = someText? (trim part) := by
  obtain ⟨body, inside, string⟩ := beginsWithString_letter
  obtain ⟨p, defines, doc⟩ := doc_quoted mem_runGuarded_letterFile
  rcases defines with function | type
  · rw [function.tree_letterFile] at doc
    have delimiter : [doubleMark] ∈ delimiters := by decide
    exact ⟨mem_runGuarded_letterFile, delimiter, ⟨body, inside, string⟩,
      (doc body inside _ delimiter _ string).1⟩
  · cases type.classType

/-- The string has no mark of the kind that stands around it, but it is not recorded as it is. -/
theorem doc_ne_letterString :
    ∃ d ∈ Reader.python.runGuarded letterFile, ∃ p, DefinesFunction letterFile p d ∧
      ∃ body, p.tree.fieldChild? "body" = some body ∧
        BeginsWithString letterFile body [doubleMark] letterString ∧ [doubleMark] ∈ delimiters ∧
        ¬ [doubleMark] <:+: letterString ∧ d.traits.doc ≠ someText? (trim letterString) := by
  obtain ⟨body, inside, string⟩ := beginsWithString_letter
  obtain ⟨p, function | type⟩ := exists_definition_of_mem_runGuarded mem_runGuarded_letterFile
  · refine ⟨letterFunction, mem_runGuarded_letterFile, p, function, body, ?_, string, by decide,
      by decide, by decide⟩
    rwa [function.tree_letterFile]
  · cases type.classType

end CodeGraph.Python
