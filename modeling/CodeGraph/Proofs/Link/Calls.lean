import CodeGraph.Proofs.Link.CallForm
import CodeGraph.Proofs.Link.Passes
import CodeGraph.Proofs.Text.Position
import Mathlib.Data.List.Forall2

/-!
# The links for calls

A `CallSite` is all that makes a declaration call a name: the file and the body in which the name is
called, the first place where it is, and the declaration that the name stands for.  The pass gives
one link for every declaration and every name with a call site (`callLinks_sites`), and the position
in the link is that of the place in the text of the file.
-/

namespace CodeGraph

open CodeGraph.Text

/-! ## One result for each pair -/

section Pairs

variable {α β γ : Type}

theorem forall₂_filterMap (f : β → Option γ) (bs : List β) :
    List.Forall₂ (fun b c => f b = some c) (bs.filter fun b => (f b).isSome) (bs.filterMap f) := by
  induction bs with
  | nil => exact .nil
  | cons b bs ih =>
    cases h : f b with
    | none => simpa [h] using ih
    | some c => simpa [h] using ih

/-- What is found for the items of one list and those of another, one item of the first list after
the other, comes from different pairs, and every pair that gives anything is among them. -/
theorem exists_pairs (f : α → β → Option γ) {bs : List β} (nodup : bs.Nodup) (as : List α) :
    ∃ pairs : List (Nat × β), pairs.Nodup ∧
      (∀ i b, (i, b) ∈ pairs ↔ b ∈ bs ∧ ∃ a, as[i]? = some a ∧ (f a b).isSome) ∧
      List.Forall₂ (fun pair c => ∃ a, as[pair.1]? = some a ∧ f a pair.2 = some c) pairs
        (as.flatMap fun a => bs.filterMap (f a)) := by
  -- from the back: an item that is added in front would move all indices
  induction as using List.reverseRecOn with
  | nil => exact ⟨[], List.nodup_nil, by simp, .nil⟩
  | append_singleton as a ih =>
    obtain ⟨pairs, distinct, mem, found⟩ := ih
    have front {i : Nat} {x : α} (h : as[i]? = some x) : (as ++ [a])[i]? = some x := by
      rw [List.getElem?_append_left (List.getElem?_eq_some_iff.1 h).1, h]
    have last : (as ++ [a])[as.length]? = some a := List.getElem?_concat_length
    refine ⟨pairs ++ (bs.filter fun b => (f a b).isSome).map fun b => (as.length, b), ?_, ?_, ?_⟩
    · have own : Function.Injective fun b : β => (as.length, b) := by
        intro b b' same
        exact (Prod.mk.inj same).2
      refine List.Nodup.append distinct ((nodup.filter _).map own) ?_
      rintro ⟨i, b⟩ old new
      obtain ⟨-, x, here, -⟩ := (mem i b).1 old
      obtain ⟨b', -, same⟩ := List.mem_map.1 new
      have bound := (List.getElem?_eq_some_iff.1 here).1
      have later := (Prod.mk.inj same).1
      omega
    · intro i b
      rw [List.mem_append, mem, List.mem_map]
      constructor
      · grind
      · rintro ⟨known, x, here, some⟩
        by_cases inside : i < as.length
        · rw [List.getElem?_append_left inside] at here
          exact Or.inl ⟨known, x, here, some⟩
        · have bound := (List.getElem?_eq_some_iff.1 here).1
          rw [List.length_append, List.length_singleton] at bound
          obtain rfl : i = as.length := by omega
          obtain rfl := Option.some.inj (last.symm.trans here)
          exact Or.inr ⟨b, List.mem_filter.2 ⟨known, some⟩, rfl⟩
    · rw [List.flatMap_append, List.flatMap_singleton]
      refine List.rel_append ?_ ?_
      · exact found.imp fun pair c ⟨x, here, found⟩ => ⟨x, front here, found⟩
      · rw [List.forall₂_map_left_iff]
        exact (forall₂_filterMap (f a) bs).imp fun b c found => ⟨a, last, found⟩

end Pairs

/-! ## Call sites -/

/-- A declaration calls a name. -/
structure CallSite (ds : List Declaration) (files : List SourceFile) (caller : Declaration)
    (name : String) where
  /-- The last file of the path of the declaration. -/
  file : SourceFile
  /-- The lines of the declaration. -/
  body : List Char
  /-- The first place of the body where the name is called. -/
  offset : Nat
  /-- What the name stands for. -/
  target : Declaration
  callable : caller.kind.isCallable = true
  path : file.path = caller.path
  last : ∃ before after, files = before ++ file :: after ∧
    ∀ other ∈ after, other.path ≠ caller.path
  lines : bodyOf (cutAt '\n' file.content.toList) caller.span.start.line caller.span.stop.line =
    some body
  nonempty : body ≠ []
  declared : ∃ d ∈ ds, d.name = name
  long : 1 < name.length
  foreign : name ≠ caller.name
  first : FirstCalledAt name.toList body offset
  best : bestMatch caller (named ds name) = some target
  away : target.id ≠ caller.id

variable {ds : List Declaration} {files : List SourceFile} {caller : Declaration} {name : String}
  {l : Link}

/-- The link that is found for a call site. -/
def CallSite.link (site : CallSite ds files caller name) : Link :=
  .shown .call caller.id site.target.id (positionIn caller.span.start.line site.body site.offset)
    (caller.name ++ " calls " ++ site.target.name)

theorem CallSite.file_mem (site : CallSite ds files caller name) : site.file ∈ files := by
  obtain ⟨before, after, whole, -⟩ := site.last
  have mem : site.file ∈ before ++ site.file :: after := by simp
  rwa [← whole] at mem

theorem mem_calledNames :
    name ∈ calledNames ds ↔ (∃ d ∈ ds, d.name = name) ∧ 1 < name.length := by
  have key := mem_map_withoutRepeats (fun name => name)
    ((ds.map Declaration.name).filter fun name => 1 < name.length) name
  rw [List.map_id', List.map_id'] at key
  rw [calledNames, key, List.mem_filter, List.mem_map, decide_eq_true_eq]

theorem nodup_calledNames (ds : List Declaration) : (calledNames ds).Nodup := by
  have := nodup_map_withoutRepeats (fun name => name)
    ((ds.map Declaration.name).filter fun name => 1 < name.length)
  rwa [List.map_id'] at this

theorem lookup_map {α β : Type} (key : α → String) (value : α → β) (path : String)
    (items : List α) :
    (items.map fun item => (key item, value item)).lookup path =
      (items.find? fun item => key item = path).map value := by
  induction items with
  | nil => rfl
  | cons item items ih =>
    by_cases h : key item = path
    · simp [h]
    · have differs : (path == key item) = false := by simpa using Ne.symm h
      rw [List.map_cons, List.lookup_cons, differs, List.find?_cons_of_neg (by simpa using h)]
      exact ih

/-- The lines of a path are those of the last file that has it. -/
theorem lookup_linesByPath {path : String} {lines : List (List Char)} :
    (linesByPath files).lookup path = some lines ↔
      ∃ file : SourceFile, file.path = path ∧ cutAt '\n' file.content.toList = lines ∧
        ∃ before after, files = before ++ file :: after ∧ ∀ other ∈ after, other.path ≠ path := by
  unfold linesByPath
  rw [lookup_map, Option.map_eq_some_iff]
  refine exists_congr fun file => ?_
  rw [List.find?_eq_some_iff_append, decide_eq_true_eq, and_assoc, and_comm (b := _ = lines)]
  refine and_congr_right fun _ => and_congr_right fun _ => ?_
  constructor
  · rintro ⟨after, before, eq, none⟩
    refine ⟨before.reverse, after.reverse, ?_, ?_⟩
    · rw [← List.reverse_reverse files, eq]
      simp
    · intro other mem
      simpa using none other (List.mem_reverse.1 mem)
  · rintro ⟨before, after, rfl, none⟩
    refine ⟨after.reverse, before.reverse, by simp, ?_⟩
    intro other mem
    simpa using none other (List.mem_reverse.1 mem)

theorem callerBody?_eq_some {body : List Char} :
    callerBody? (linesByPath files) caller = some body ↔
      ∃ file : SourceFile, file.path = caller.path ∧
        (∃ before after, files = before ++ file :: after ∧
          ∀ other ∈ after, other.path ≠ caller.path) ∧
        bodyOf (cutAt '\n' file.content.toList) caller.span.start.line caller.span.stop.line =
          some body := by
  unfold callerBody?
  rw [Option.bind_eq_some_iff]
  constructor
  · rintro ⟨lines, found, body⟩
    obtain ⟨file, path, rfl, last⟩ := lookup_linesByPath.1 found
    exact ⟨file, path, last, body⟩
  · rintro ⟨file, path, last, body⟩
    exact ⟨_, lookup_linesByPath.2 ⟨file, path, rfl, last⟩, body⟩

theorem callLink?_eq_some_iff {body : List Char} :
    callLink? ds caller body name = some l ↔
      name ≠ caller.name ∧ ∃ offset target, FirstCalledAt name.toList body offset ∧
        bestMatch caller (named ds name) = some target ∧ target.id ≠ caller.id ∧
        .shown .call caller.id target.id (positionIn caller.span.start.line body offset)
          (caller.name ++ " calls " ++ target.name) = l := by
  unfold callLink?
  constructor
  · intro h
    split_ifs at h with own
    split at h
    · cases h
    · rename_i offset first
      split at h
      · cases h
      · rename_i target best
        split_ifs at h with self
        exact ⟨own, offset, target, firstCall_eq_some_iff.1 first, best, self, Option.some.inj h⟩
  · rintro ⟨foreign, offset, target, first, best, away, rfl⟩
    simp only [if_neg foreign, firstCall_eq_some_iff.2 first, best, if_neg away]

/-! ## The pass -/

variable (ds files) in
/-- The link for a name in the body of a declaration. -/
def linkTo? (caller : Declaration) (name : String) : Option Link :=
  if caller.kind.isCallable then
    match callerBody? (linesByPath files) caller with
    | some (c :: body) => callLink? ds caller (c :: body) name
    | _ => none
  else none

theorem callLinksOf_eq (names : List String) :
    callLinksOf ds names (linesByPath files) caller =
      names.filterMap (linkTo? ds files caller) := by
  unfold callLinksOf linkTo?
  split_ifs
  · rcases callerBody? (linesByPath files) caller with _ | _ | ⟨c, body⟩
    · simp
    · simp
    · rfl
  · simp

theorem linkTo?_eq_some_iff (known : name ∈ calledNames ds) :
    linkTo? ds files caller name = some l ↔
      ∃ site : CallSite ds files caller name, site.link = l := by
  obtain ⟨declared, long⟩ := mem_calledNames.1 known
  unfold linkTo?
  constructor
  · intro h
    split_ifs at h with callable
    split at h
    · rename_i c body found
      obtain ⟨file, path, last, lines⟩ := callerBody?_eq_some.1 found
      obtain ⟨foreign, offset, target, first, best, away, rfl⟩ := callLink?_eq_some_iff.1 h
      exact ⟨⟨file, c :: body, offset, target, callable, path, last, lines, by simp, declared, long,
        foreign, first, best, away⟩, rfl⟩
    · cases h
  · rintro ⟨site, rfl⟩
    have found := callerBody?_eq_some.2 ⟨site.file, site.path, site.last, site.lines⟩
    obtain ⟨c, body, cons⟩ := List.exists_cons_of_ne_nil site.nonempty
    rw [if_pos site.callable, found, cons]
    dsimp only
    rw [← cons]
    exact callLink?_eq_some_iff.2
      ⟨site.foreign, site.offset, site.target, site.first, site.best, site.away, rfl⟩

/-- The link shows the call: its position is that of the call in the text of the file, and from
there on the text goes on with the name, or with `new` if the name is called behind that word
only. -/
structure CallSite.ShownBy (site : CallSite ds files caller name) (l : Link) : Prop where
  kind : l.kind = .call
  source : l.source = caller.id
  target : l.target = site.target.id
  position : ∃ p front rest, l.site = some p ∧
    site.file.content.toList = front ++ (site.body ++ rest) ∧
    (front.count '\n' : Int) + 1 = caller.span.start.line ∧ lastPiece '\n' front = [] ∧
    p = positionIn 1 site.file.content.toList (front.length + site.offset) ∧
    p.IsIn (cutAt '\n' site.file.content.toList) ∧
    p.textFrom site.file.content.toList = site.body.drop site.offset ++ rest ∧
    (name.toList <+: p.textFrom site.file.content.toList ∨
      (∀ j, ¬ CalledAt name.toList site.body j) ∧
        "new".toList <+: p.textFrom site.file.content.toList)

theorem CallSite.shownBy_link (site : CallSite ds files caller name) : site.ShownBy site.link := by
  refine ⟨rfl, rfl, rfl, ?_⟩
  obtain ⟨inside, begins⟩ := site.first.begins
  obtain ⟨front, rest, whole, count, fresh, place⟩ := exists_body site.lines site.nonempty
  have here := place site.offset (Nat.le_of_lt inside)
  have text : (positionIn caller.span.start.line site.body site.offset).textFrom
      site.file.content.toList = site.body.drop site.offset ++ rest := by
    rw [here, textFrom_positionIn, whole, List.drop_length_add_append,
      List.drop_append_of_le_length (Nat.le_of_lt inside)]
  refine ⟨_, front, rest, rfl, whole, count, fresh, here, ?_, text, ?_⟩
  · rw [here]
    exact (liesIn_positionIn _ _).isIn
  · rw [text]
    rcases begins with call | ⟨none, creation⟩
    · exact Or.inl (call.trans (List.prefix_append _ _))
    · exact Or.inr ⟨none, creation.trans (List.prefix_append _ _)⟩

variable (ds files) in
theorem callLinks_eq :
    callLinks ds files =
      ds.flatMap fun caller => (calledNames ds).filterMap (linkTo? ds files caller) := by
  unfold callLinks
  exact List.flatMap_congr fun caller _ => callLinksOf_eq _

theorem exists_callSite (h : l ∈ callLinks ds files) :
    ∃ caller ∈ ds, ∃ name, ∃ site : CallSite ds files caller name, site.link = l := by
  rw [callLinks_eq] at h
  obtain ⟨caller, mem, h⟩ := List.mem_flatMap.1 h
  obtain ⟨name, known, hl⟩ := List.mem_filterMap.1 h
  obtain ⟨site, same⟩ := (linkTo?_eq_some_iff known).1 hl
  exact ⟨caller, mem, name, site, same⟩

theorem CallSite.link_mem (site : CallSite ds files caller name) (mem : caller ∈ ds) :
    site.link ∈ callLinks ds files := by
  rw [callLinks_eq]
  have known := mem_calledNames.2 ⟨site.declared, site.long⟩
  exact List.mem_flatMap.2
    ⟨caller, mem, List.mem_filterMap.2 ⟨name, known, (linkTo?_eq_some_iff known).2 ⟨site, rfl⟩⟩⟩

variable (ds files) in
/-- Every declaration and name with a call site have one link, which shows a call, and no others
have any. -/
theorem callLinks_sites :
    ∃ pairs : List (Nat × String), pairs.Nodup ∧
      (∀ i name, (i, name) ∈ pairs ↔
        ∃ caller, ds[i]? = some caller ∧ Nonempty (CallSite ds files caller name)) ∧
      List.Forall₂ (fun pair l => ∃ caller, ds[pair.1]? = some caller ∧
        ∃ site : CallSite ds files caller pair.2, site.ShownBy l) pairs (callLinks ds files) := by
  obtain ⟨pairs, nodup, mem, found⟩ := exists_pairs (linkTo? ds files) (nodup_calledNames ds) ds
  have known : ∀ pair ∈ pairs, pair.2 ∈ calledNames ds :=
    fun pair hpair => ((mem pair.1 pair.2).1 hpair).1
  refine ⟨pairs, nodup, fun i name => ?_, ?_⟩
  · rw [mem]
    constructor
    · rintro ⟨known, caller, here, some⟩
      obtain ⟨l, hl⟩ := Option.isSome_iff_exists.1 some
      obtain ⟨site, -⟩ := (linkTo?_eq_some_iff known).1 hl
      exact ⟨caller, here, ⟨site⟩⟩
    · rintro ⟨caller, here, ⟨site⟩⟩
      have known := mem_calledNames.2 ⟨site.declared, site.long⟩
      refine ⟨known, caller, here, ?_⟩
      rw [(linkTo?_eq_some_iff known).2 ⟨site, rfl⟩]
      rfl
  · rw [callLinks_eq]
    refine ((List.forall₂_and_left _ _).2 ⟨known, found⟩).imp ?_
    rintro pair l ⟨known, caller, here, hl⟩
    obtain ⟨site, rfl⟩ := (linkTo?_eq_some_iff known).1 hl
    exact ⟨caller, here, site, site.shownBy_link⟩

end CodeGraph
