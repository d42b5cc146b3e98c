import CodeGraph.Proofs.Link.Calls

/-!
# Calls that a text shows

In a text a name is called wherever it stands with an opening parenthesis behind it and no
identifier going on in front (`TextualCall`).  A link needs more: a word must begin or end
there.  So all textual calls of a name that begins with a word character are linked, but those of a
name such as `$f` or `#f` only if the name is called behind a word character or the word `new`
elsewhere in the body (`resolve_textualCall`).
-/

namespace CodeGraph

open CodeGraph.Text

/-! ## Places of calls -/

/-- A character of an identifier: a word character or the dollar sign. -/
def isIdentifierChar (c : Char) : Bool := isWord c || c == '$'

/-- The name is called in the text, and what stands in front of it has the property. -/
def CalledBehind (p : Option Char → Bool) (name text : List Char) : Prop :=
  ∃ before after, text = before ++ after ∧ p before.getLast? = true ∧ Calls name after

section Places

variable {p q : Option Char → Bool} {name text : List Char}

theorem CalledBehind.mono (h : CalledBehind p name text) (weaker : ∀ c, p c = true → q c = true) :
    CalledBehind q name text := by
  obtain ⟨before, after, eq, place, call⟩ := h
  exact ⟨before, after, eq, weaker _ place, call⟩

theorem CalledBehind.ne_nil (h : CalledBehind p name text) : text ≠ [] := by
  obtain ⟨before, after, rfl, -, call⟩ := h
  simp [call.ne_nil]

theorem exists_calledAt_iff (some : name ≠ []) :
    (∃ k, CalledAt name text k) ↔
      CalledBehind (fun c => isWordBoundary c name.head?) name text := by
  have first {after : List Char} (call : Calls name after) : after.head? = name.head? := by
    obtain ⟨gap, rest, rfl, -⟩ := call
    rw [List.head?_append_of_ne_nil _ some]
  constructor
  · rintro ⟨k, before, after, eq, -, place, call⟩
    exact ⟨before, after, eq, first call ▸ place, call⟩
  · rintro ⟨before, after, eq, place, call⟩
    exact ⟨before.length, before, after, eq, rfl, (first call).symm ▸ place, call⟩

end Places

/-! ## Calls and their links -/

/-- The links show that one declaration calls another. -/
def ShowsCall (links : List Link) (caller target : Declaration) : Prop :=
  ∃ l ∈ links, l.kind = .call ∧ l.source = caller.id ∧ l.target = target.id

instance (links : List Link) (caller target : Declaration) :
    Decidable (ShowsCall links caller target) :=
  inferInstanceAs (Decidable (∃ l ∈ links, _))

/-- No other declaration of the batch makes a call with the id of this one. -/
def OwnCallId (ds : List Declaration) (caller target : Declaration) : Prop :=
  ∀ s ∈ ds, ∀ t ∈ ds, linkId .call s.id t.id = linkId .call caller.id target.id → s.id = caller.id

instance (ds : List Declaration) (caller target : Declaration) :
    Decidable (OwnCallId ds caller target) :=
  inferInstanceAs (Decidable (∀ s ∈ ds, ∀ t ∈ ds, _))

/-- A function or method calls a name of the batch in its text. -/
structure TextualCall (ds : List Declaration) (files : List SourceFile) (caller : Declaration)
    (name : String) where
  /-- The file of the declaration. -/
  file : SourceFile
  /-- The lines of the declaration. -/
  body : List Char
  known : caller ∈ ds
  callable : caller.kind.isCallable = true
  given : file ∈ files
  path : file.path = caller.path
  lines : bodyOf (cutAt '\n' file.content.toList) caller.span.start.line caller.span.stop.line =
    some body
  declared : ∃ d ∈ ds, d.name = name
  long : 1 < name.length
  foreign : name ≠ caller.name
  called : CalledBehind (fun c => !c.any isIdentifierChar) name.toList body

/-- A function of one line of a file. -/
def dollarFunction (name : String) (line : Int) : Declaration :=
  ⟨name, .function, .javascript, "f.js", ⟨⟨line, 6⟩, ⟨line, 20⟩⟩, {}, none⟩

/-- A function and the two that it calls. -/
def dollarFunctions : List Declaration :=
  [dollarFunction "foo" 1, dollarFunction "$bar" 2, dollarFunction "baz" 3]

/-- The text of the functions. -/
def dollarFile : SourceFile :=
  ⟨"f.js", "const foo = () => $bar() + baz (1);\nconst $bar = () => 1;\nconst baz = () => 2;\n"⟩

/-- The first function calls the last one. -/
def bazCall : TextualCall dollarFunctions [dollarFile] (dollarFunction "foo" 1) "baz" where
  file := dollarFile
  body := "const foo = () => $bar() + baz (1);".toList
  known := by decide
  callable := rfl
  given := List.mem_singleton_self _
  path := rfl
  lines := by decide +kernel
  declared := by decide
  long := by decide
  foreign := by decide
  called := ⟨"const foo = () => $bar() + ".toList, "baz (1);".toList, by decide, by decide,
    [' '], "1);".toList, by decide, List.forall_mem_singleton.2 rfl⟩

/-- The first function calls the one whose name begins with a dollar sign. -/
def barCall : TextualCall dollarFunctions [dollarFile] (dollarFunction "foo" 1) "$bar" where
  file := dollarFile
  body := "const foo = () => $bar() + baz (1);".toList
  known := by decide
  callable := rfl
  given := List.mem_singleton_self _
  path := rfl
  lines := by decide +kernel
  declared := by decide
  long := by decide
  foreign := by decide
  called := ⟨"const foo = () => ".toList, "$bar() + baz (1);".toList, by decide, by decide,
    [], ") + baz (1);".toList, by decide, List.forall_mem_nil _⟩

section Links

variable {table : ExtensionTable} {ds : List Declaration} {files : List SourceFile}
  {caller target : Declaration} {name : String}

theorem ownCallId_of_plain (plain : ∀ d ∈ ds, d.Plain) (known : caller ∈ ds) :
    OwnCallId ds caller target := by
  intro s hs t _ same
  exact (linkId_inj (plain s hs) (plain caller known) same).2.1

variable (table) in
/-- The call is among the links, unless another call has its id. -/
theorem CallSite.showsCall (site : CallSite ds files caller name) (known : caller ∈ ds)
    (own : OwnCallId ds caller site.target) :
    ShowsCall (resolve table ds files) caller site.target := by
  have found : site.link ∈ allLinks table ds files :=
    mem_allLinks.2 (Or.inr (Or.inr (Or.inr (site.link_mem known))))
  obtain ⟨l, hl, same⟩ := exists_mem_withoutRepeats Link.id found
  obtain ⟨s, hs, t, ht, source, target⟩ := ends_of_mem_allLinks (mem_of_mem_withoutRepeats _ hl)
  have kind : l.kind = .call := kind_eq_of_linkId_eq same
  have ids : linkId .call s.id t.id = linkId .call caller.id site.target.id := by
    rw [Link.id, kind, source, target] at same
    exact same
  have sources := own s hs t ht ids
  refine ⟨l, hl, kind, source.trans sources, target.trans ?_⟩
  rw [sources] at ids
  exact target_eq_of_linkId_eq ids

/-- Where no id is shared, a call that the links show has a call site. -/
theorem ShowsCall.exists_callSite (h : ShowsCall (resolve table ds files) caller target)
    (ids : (ds.map Declaration.id).Nodup) (hcaller : caller ∈ ds) (htarget : target ∈ ds) :
    Nonempty (CallSite ds files caller target.name) := by
  obtain ⟨l, hl, kind, source, ends⟩ := h
  have call := mem_callLinks_of_kind (mem_of_mem_withoutRepeats _ hl) kind
  obtain ⟨caller', hcaller', name, site, rfl⟩ := CodeGraph.exists_callSite call
  obtain rfl : caller' = caller := List.inj_on_of_nodup_map ids hcaller' hcaller source
  obtain ⟨mem, called⟩ := bestMatch_named site.best
  have same : site.target = target := List.inj_on_of_nodup_map ids mem htarget ends
  rw [← same, called]
  exact ⟨site⟩

/-- A textual call has a call site if the name is found in the body. -/
theorem TextualCall.nonempty_callSite_iff (call : TextualCall ds files caller name)
    (paths : (files.map SourceFile.path).Nodup)
    (best : bestMatch caller (named ds name) = some target) (away : target.id ≠ caller.id) :
    Nonempty (CallSite ds files caller name) ↔ ∃ k, FirstCalledAt name.toList call.body k := by
  constructor
  · rintro ⟨site⟩
    have file : site.file = call.file :=
      List.inj_on_of_nodup_map paths site.file_mem call.given (site.path.trans call.path.symm)
    have lines := site.lines
    rw [file, call.lines] at lines
    exact ⟨site.offset, (Option.some.inj lines).symm ▸ site.first⟩
  · rintro ⟨k, first⟩
    obtain ⟨before, after, whole⟩ := List.append_of_mem call.given
    have last : ∀ other ∈ after, other.path ≠ caller.path := by
      intro other hother same
      rw [whole, List.map_append, List.map_cons] at paths
      have fresh := (List.nodup_cons.1 (List.nodup_append.1 paths).2.1).1
      exact fresh (List.mem_map.2 ⟨other, hother, same.trans call.path.symm⟩)
    exact ⟨⟨call.file, call.body, k, target, call.callable, call.path, ⟨before, after, whole, last⟩,
      call.lines, call.called.ne_nil, call.declared, call.long, call.foreign, first, best, away⟩⟩

variable (table) in
/-- A textual call is shown exactly if a word begins or ends in front of the name at one of its
calls, or if the name stands behind the word `new` at one. -/
theorem TextualCall.showsCall_iff (call : TextualCall ds files caller target.name)
    (ids : (ds.map Declaration.id).Nodup) (paths : (files.map SourceFile.path).Nodup)
    (best : bestMatch caller (named ds target.name) = some target) (away : target.id ≠ caller.id)
    (own : OwnCallId ds caller target) :
    ShowsCall (resolve table ds files) caller target ↔
      CalledBehind (fun c => isWordBoundary c target.name.toList.head?) target.name.toList
          call.body ∨
        ∃ k, CreatedAt target.name.toList call.body k := by
  have filled : target.name.toList ≠ [] := by
    have := call.long
    rw [← String.length_toList] at this
    exact List.ne_nil_of_length_pos (by omega)
  rw [← exists_calledAt_iff filled, ← exists_firstCalledAt_iff,
    ← call.nonempty_callSite_iff paths best away]
  constructor
  · exact fun h => h.exists_callSite ids call.known (bestMatch_named best).1
  · rintro ⟨site⟩
    have same : site.target = target := Option.some.inj (site.best.symm.trans best)
    have shows := site.showsCall table call.known (same.symm ▸ own)
    rwa [same] at shows

/-- The declaration that a textual call of a name means is there.  If it is not the caller itself
and no other call has the id of the call, then the links show the call, provided that the name
begins with a word character.  If it does not, they show it exactly if the name is also called
behind a word character or the word `new`. -/
theorem resolve_textualCall (table : ExtensionTable) (ids : (ds.map Declaration.id).Nodup)
    (paths : (files.map SourceFile.path).Nodup) (call : TextualCall ds files caller name) :
    ∃ target, bestMatch caller (named ds name) = some target ∧
      (target ≠ caller → OwnCallId ds caller target →
        (name.toList.head?.any isWord = true →
          ShowsCall (resolve table ds files) caller target) ∧
        (name.toList.head?.any isWord = false →
          (ShowsCall (resolve table ds files) caller target ↔
            CalledBehind (fun c => c.any isWord) name.toList call.body ∨
              ∃ k, CreatedAt name.toList call.body k))) := by
  have any : named ds name ≠ [] := by
    obtain ⟨d, hd, named⟩ := call.declared
    exact List.ne_nil_of_mem (mem_named.2 ⟨hd, named⟩)
  obtain ⟨target, best⟩ := exists_bestMatch caller any
  obtain ⟨mem, rfl⟩ := bestMatch_named best
  refine ⟨target, best, fun foreign own => ?_⟩
  have away : target.id ≠ caller.id := fun same =>
    foreign (List.inj_on_of_nodup_map ids mem call.known same)
  have shown := call.showsCall_iff table ids paths best away own
  constructor
  · intro word
    refine shown.2 (Or.inl (call.called.mono fun c free => ?_))
    -- No identifier goes on in front, so no word does.
    have outside : c.any isWord = false := by
      cases c with
      | none => rfl
      | some c =>
        have parts : isWord c = false ∧ c ≠ '$' := by simpa [isIdentifierChar] using free
        exact parts.1
    simp [isWordBoundary, outside, word]
  · intro other
    rw [shown]
    simp [isWordBoundary, other]

/-- The function `foo` is linked with `baz`, whose name begins with a word character. -/
theorem resolve_textualCall_baz :
    (dollarFunctions.map Declaration.id).Nodup ∧ ([dollarFile].map SourceFile.path).Nodup ∧
      OwnCallId dollarFunctions (dollarFunction "foo" 1) (dollarFunction "baz" 3) ∧
      ShowsCall (resolve .standard dollarFunctions [dollarFile]) (dollarFunction "foo" 1)
        (dollarFunction "baz" 3) := by
  have ids : (dollarFunctions.map Declaration.id).Nodup := by decide +kernel
  have paths : ([dollarFile].map SourceFile.path).Nodup := List.nodup_singleton _
  have own : OwnCallId dollarFunctions (dollarFunction "foo" 1) (dollarFunction "baz" 3) :=
    ownCallId_of_plain (by decide) (by decide)
  obtain ⟨target, best, shown⟩ := resolve_textualCall .standard ids paths bazCall
  obtain rfl : dollarFunction "baz" 3 = target := Option.some.inj (Eq.trans (by decide) best)
  exact ⟨ids, paths, own, (shown (by decide) own).1 (by decide)⟩

/-- The function `foo` calls `$bar`, but the links do not show it. -/
theorem not_showsCall_dollar :
    (dollarFunctions.map Declaration.id).Nodup ∧
      Nonempty (TextualCall dollarFunctions [dollarFile] (dollarFunction "foo" 1) "$bar") ∧
      bestMatch (dollarFunction "foo" 1) (named dollarFunctions "$bar") =
        some (dollarFunction "$bar" 2) ∧
      dollarFunction "$bar" 2 ≠ dollarFunction "foo" 1 ∧
      OwnCallId dollarFunctions (dollarFunction "foo" 1) (dollarFunction "$bar" 2) ∧
      ¬ ShowsCall (resolve .standard dollarFunctions [dollarFile]) (dollarFunction "foo" 1)
        (dollarFunction "$bar" 2) :=
  ⟨by decide +kernel, ⟨barCall⟩, by decide, by decide, by decide +kernel, by decide +kernel⟩

end Links

end CodeGraph
