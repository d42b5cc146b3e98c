import CodeGraph.Declaration.Reader
import CodeGraph.Proofs.Ownership.Sequence

/-!
# Types and their members

A type owns a declaration that lies in the same file and within its lines (`Owns`).  In every
language a type is reported right before its members, and the members lie below it in the tree.  So
among the declarations found at a place, and among those of a whole file
(`ownersFirst_declarationsBy`), the owners come first, and they own their members if the tree is
nested.
-/

namespace CodeGraph

/-- The first declaration is a type of the same file whose lines include those of the second. -/
structure Owns (t d : Declaration) : Prop where
  isType : t.kind.isType = true
  path : t.path = d.path
  lines : d.span.LinesWithin t.span

/-- The declaration has the path of the file and the span of the node at the place. -/
structure StandsAt (file : ParsedFile) (p : Place) (d : Declaration) : Prop where
  path : d.path = file.path
  span : d.span = file.spanOf p.tree

/-- The declaration stands at the place or below it; it has an owner exactly if it is a method. -/
structure Sighted (file : ParsedFile) (p : Place) (d : Declaration) : Prop where
  kind : d.owner.isSome ↔ d.kind = .method
  place : ∃ q, Relation.ReflTransGen Place.IsChild p q ∧ StandsAt file q d

/-- The declarations are sighted at the place, owners first; the owners own their members if the
tree there is nested. -/
abbrev OwnersFirstAt (file : ParsedFile) (p : Place) (ds : List Declaration) : Prop :=
  OwnersFirst (Sighted file p) (fun t d => p.tree.Nested → Owns t d) ds

theorem standsAt_declaration (file : ParsedFile) (kind : DeclarationKind) (name : Tree) (p : Place)
    (owner : Option String) (traits : Traits) :
    StandsAt file p (file.declaration kind name p owner traits) :=
  ⟨rfl, rfl⟩

theorem Sighted.from {file : ParsedFile} {p q : Place} {d : Declaration}
    (hpq : Relation.ReflTransGen Place.IsChild p q) (h : Sighted file q d) : Sighted file p d := by
  obtain ⟨o, ho, hd⟩ := h.place
  exact ⟨h.kind, o, hpq.trans ho, hd⟩

/-- What is declared without an owner is sighted where it stands. -/
theorem sighted_declaration (file : ParsedFile) {kind : DeclarationKind} (hk : kind ≠ .method)
    (name : Tree) (p : Place) (traits : Traits) :
    Sighted file p (file.declaration kind name p none traits) where
  kind := ⟨fun h => absurd h Bool.false_ne_true, fun h => absurd h hk⟩
  place := ⟨p, .refl, standsAt_declaration ..⟩

/-- A method of the type that stands at a place. -/
structure IsMember (file : ParsedFile) (p : Place) (t m : Declaration) : Prop where
  kind : m.kind = .method
  owner : m.owner = some t.id
  below : ∃ q, p.Below q ∧ StandsAt file q m

namespace IsMember

variable {file : ParsedFile} {p : Place} {t m : Declaration}

theorem sighted (h : IsMember file p t m) : Sighted file p m := by
  obtain ⟨q, hq, hm⟩ := h.below
  refine ⟨?_, q, hq.to_reflTransGen, hm⟩
  simp [h.kind, h.owner]

theorem owns (h : IsMember file p t m) (ht : StandsAt file p t) (isType : t.kind.isType = true)
    (nested : p.tree.Nested) : Owns t m := by
  obtain ⟨q, hq, hm⟩ := h.below
  refine ⟨isType, ht.path.trans hm.path.symm, ?_⟩
  rw [ht.span, hm.span]
  exact linesWithin_of_below file hq nested

end IsMember

/-- A type without an owner and, behind it, its members. -/
theorem ownersFirst_family {file : ParsedFile} {p : Place} {kind : DeclarationKind}
    (isType : kind.isType = true) {name : Tree} {traits : Traits} {members : List Declaration}
    (h : ∀ m ∈ members, IsMember file p (file.declaration kind name p none traits) m) :
    OwnersFirstAt file p (file.declaration kind name p none traits :: members) := by
  have noMethod : kind ≠ .method := fun hk => by rw [hk] at isType; cases isType
  refine OwnersFirst.family (sighted_declaration file noMethod name p traits) rfl fun m hm => ?_
  exact ⟨(h m hm).sighted, (h m hm).owner, (h m hm).owns (standsAt_declaration ..) isType⟩

theorem ownersFirst_declarationsBy {file : ParsedFile} {emit : Place → List Declaration}
    (h : ∀ p, OwnersFirstAt file p (emit p)) :
    OwnersFirstAt file (.root file.tree) (file.declarationsBy emit) := by
  rw [ParsedFile.declarationsBy, emitted_eq_flatMap]
  refine OwnersFirst.flatMap fun p hp => ?_
  have reached := reachable_of_mem_places hp
  refine (h p).mono (fun d => Sighted.from reached) fun t d owns nested => ?_
  exact owns (nested_of_reachable reached nested)

/-! ## Python -/

namespace Python

theorem below_of_definition? {p child f : Place} (hp : child ∈ p.children)
    (h : definition? child = some f) : p.Below f := by
  have inner : f = child ∨ f ∈ child.children := by
    obtain ⟨h, -⟩ := Option.filter_eq_some_iff.1 h
    split_ifs at h with decorated
    · rcases Option.or_eq_some_iff.1 h with h | ⟨-, h⟩
      · exact Or.inr (Place.mem_children_of_fieldChild? h)
      · exact Or.inr (Place.mem_children_of_kindChild? h)
    · exact Or.inl (Option.some.inj h).symm
  rcases inner with rfl | hf
  · exact .child hp
  · exact (Place.Below.child hp).step hf

theorem ownersFirst_functionAt (file : ParsedFile) (p : Place) :
    OwnersFirstAt file p (functionAt file none p) := by
  refine OwnersFirst.of_free fun d hd => ?_
  rw [functionAt] at hd
  split at hd
  · cases hd
  · rw [List.mem_singleton.1 hd]
    exact ⟨sighted_declaration file (by decide) .., rfl⟩

theorem isMember_of_mem_functionAt {file : ParsedFile} {p q : Place} {t m : Declaration}
    (hq : p.Below q) (hm : m ∈ functionAt file (some t.id) q) : IsMember file p t m := by
  rw [functionAt] at hm
  split at hm
  · cases hm
  · rw [List.mem_singleton.1 hm]
    exact ⟨rfl, rfl, q, hq, standsAt_declaration ..⟩

theorem ownersFirst_classAt (file : ParsedFile) (p : Place) :
    OwnersFirstAt file p (classAt file p) := by
  rw [classAt]
  split
  · exact .nil
  · refine ownersFirst_family rfl fun m hm => ?_
    split at hm
    · cases hm
    · rename_i body hbody
      obtain ⟨f, hf, hm⟩ := List.mem_flatMap.1 hm
      obtain ⟨child, hchild, hf⟩ := List.mem_filterMap.1 hf
      have below : p.Below f :=
        (Place.Below.child (Place.mem_children_of_fieldChild? hbody)).trans
          (below_of_definition? hchild hf)
      exact isMember_of_mem_functionAt below hm

theorem ownersFirst_declaredAt (file : ParsedFile) (p : Place) :
    OwnersFirstAt file p (declaredAt file p) := by
  rw [declaredAt]
  split_ifs with isFunction method isClass
  · exact .nil
  · exact ownersFirst_functionAt file p
  · exact ownersFirst_classAt file p
  · exact .nil

end Python

/-! ## JavaScript -/

namespace JavaScript

theorem sighted_of_mem_functionAt {file : ParsedFile} {p : Place} {d : Declaration}
    (hd : d ∈ functionAt file p) : Sighted file p d ∧ d.owner = none := by
  rw [functionAt] at hd
  split at hd
  · cases hd
  · rw [List.mem_singleton.1 hd]
    exact ⟨sighted_declaration file (by decide) .., rfl⟩

theorem sighted_of_mem_boundFunctions {file : ParsedFile} {p : Place} {d : Declaration}
    (hd : d ∈ boundFunctions file p) : Sighted file p d ∧ d.owner = none := by
  obtain ⟨declarator, below, hd⟩ := List.mem_flatMap.1 hd
  rw [boundFunction] at hd
  split at hd
  · split_ifs at hd
    · rw [List.mem_singleton.1 hd]
      exact ⟨(sighted_declaration file (by decide) ..).from (.single below), rfl⟩
    · cases hd
  · cases hd

theorem isMember_of_mem_methodAt {file : ParsedFile} {p q : Place} {t m : Declaration}
    (hq : p.Below q) (hm : m ∈ methodAt file t.id q) : IsMember file p t m := by
  rw [methodAt] at hm
  split at hm
  · cases hm
  · rw [List.mem_singleton.1 hm]
    exact ⟨rfl, rfl, q, hq, standsAt_declaration ..⟩

theorem isMember_of_mem_methodsOf {file : ParsedFile} {p : Place} {t m : Declaration}
    (hm : m ∈ methodsOf file t.id p) : IsMember file p t m := by
  rw [methodsOf] at hm
  split at hm
  · cases hm
  · rename_i body hbody
    obtain ⟨child, hchild, hm⟩ := List.mem_flatMap.1 hm
    have inBody := Place.Below.child (Place.mem_children_of_fieldChild? hbody)
    exact isMember_of_mem_methodAt (inBody.step hchild) (List.mem_ite_nil_right.1 hm).2

theorem ownersFirst_classAt (file : ParsedFile) (isAbstract : Bool) (p : Place) :
    OwnersFirstAt file p (classAt file isAbstract p) := by
  rw [classAt]
  split
  · exact .nil
  · exact ownersFirst_family rfl fun m hm =>
      isMember_of_mem_methodsOf hm

theorem ownersFirst_declaredAt (file : ParsedFile) (p : Place) :
    OwnersFirstAt file p (declaredAt file p) := by
  rw [declaredAt]
  split_ifs with isFunction isVariable isClass
  · exact .of_free fun d hd => sighted_of_mem_functionAt hd
  · exact .of_free fun d hd => sighted_of_mem_boundFunctions hd
  · exact ownersFirst_classAt file false p
  · exact .nil

end JavaScript

/-! ## TypeScript -/

namespace TypeScript

theorem isMember_of_mem_memberAt {file : ParsedFile} {p q : Place} {t m : Declaration}
    (hq : p.Below q) (hm : m ∈ memberAt file t.id q) : IsMember file p t m := by
  rw [memberAt, List.mem_ite_nil_right] at hm
  obtain ⟨-, hm⟩ := hm
  split at hm
  · cases hm
  · rw [List.mem_singleton.1 hm]
    exact ⟨rfl, rfl, q, hq, standsAt_declaration ..⟩

theorem ownersFirst_interfaceAt (file : ParsedFile) (p : Place) :
    OwnersFirstAt file p (interfaceAt file p) := by
  rw [interfaceAt]
  split
  · exact .nil
  · refine ownersFirst_family rfl fun m hm => ?_
    split at hm
    · cases hm
    · rename_i body hbody
      obtain ⟨child, hchild, hm⟩ := List.mem_flatMap.1 hm
      have inBody := Place.Below.child (Place.mem_children_of_fieldChild? hbody)
      exact isMember_of_mem_memberAt (inBody.step hchild) hm

theorem ownersFirst_namedAt (file : ParsedFile) {kind : DeclarationKind} (hk : kind ≠ .method)
    (p : Place) : OwnersFirstAt file p (namedAt file kind p) := by
  refine OwnersFirst.of_free fun d hd => ?_
  rw [namedAt] at hd
  split at hd
  · cases hd
  · rw [List.mem_singleton.1 hd]
    exact ⟨sighted_declaration file hk .., rfl⟩

theorem ownersFirst_declaredAt (file : ParsedFile) (p : Place) :
    OwnersFirstAt file p (declaredAt file p) := by
  rw [declaredAt]
  split_ifs with isInterface isAlias isEnum isAbstractClass
  · exact ownersFirst_interfaceAt file p
  · exact ownersFirst_namedAt file (by decide) p
  · exact ownersFirst_namedAt file (by decide) p
  · exact JavaScript.ownersFirst_classAt file true p
  · exact .nil

end TypeScript

/-! ## Java -/

namespace Java

theorem below_of_mem_membersOf {body q : Place} (h : q ∈ membersOf body) : body.Below q := by
  rcases List.mem_append.1 h with h | h
  · exact .child h
  · obtain ⟨nested, hn, hq⟩ := List.mem_flatMap.1 h
    exact (Place.Below.child (List.mem_filter.1 hn).1).step hq

theorem isMember_of_mem_methodAt {file : ParsedFile} {p q : Place} {t m : Declaration}
    (hq : p.Below q) (hm : m ∈ methodAt file t.id q) : IsMember file p t m := by
  rw [methodAt] at hm
  split at hm
  · cases hm
  · rw [List.mem_singleton.1 hm]
    exact ⟨rfl, rfl, q, hq, rfl, rfl⟩

theorem ownersFirst_typeAt (file : ParsedFile) {kind : DeclarationKind} (hk : kind.isType = true)
    (p : Place) : OwnersFirstAt file p (typeAt file kind p) := by
  rw [typeAt]
  split
  · exact .nil
  · refine ownersFirst_family hk fun m hm => ?_
    split at hm
    · cases hm
    · rename_i body hbody
      obtain ⟨member, hmember, hm⟩ := List.mem_flatMap.1 hm
      have inBody := Place.Below.child (Place.mem_children_of_fieldChild? hbody)
      exact isMember_of_mem_methodAt (inBody.trans (below_of_mem_membersOf hmember))
        (List.mem_ite_nil_right.1 hm).2

theorem ownersFirst_declaredAt (file : ParsedFile) (p : Place) :
    OwnersFirstAt file p (declaredAt file p) := by
  rw [declaredAt]
  split_ifs with isClass isInterface
  · exact ownersFirst_typeAt file rfl p
  · exact ownersFirst_typeAt file rfl p
  · exact .nil

end Java

end CodeGraph
