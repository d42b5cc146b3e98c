import CodeGraph.Link
import Mathlib.Data.List.Basic

/-!
# What an id says

The id of a declaration is made of a path, a line and a name with colons between them, that of a
link of a kind and two ids.  In one file the id gives back line and name (`declarationId_inj_left`);
where neither paths nor names have a colon it gives back all three parts (`declarationId_inj`), and
the id of a link gives back the two ids (`linkId_inj`).
-/

namespace CodeGraph

theorem append_cons_inj {sep : Char} {a b c d : List Char} (ha : sep ∉ a) (hc : sep ∉ c)
    (h : a ++ sep :: b = c ++ sep :: d) : a = c ∧ b = d := by
  induction a generalizing c with
  | nil =>
    cases c with
    | nil => exact ⟨rfl, (List.cons.inj h).2⟩
    | cons x c =>
      have := (List.cons.inj h).1
      subst this
      exact absurd List.mem_cons_self hc
  | cons x a ih =>
    cases c with
    | nil =>
      have := (List.cons.inj h).1
      subst this
      exact absurd List.mem_cons_self ha
    | cons y c =>
      obtain ⟨rfl, rest⟩ := List.cons.inj h
      obtain ⟨rfl, rfl⟩ := ih (fun hm => ha (List.mem_cons_of_mem _ hm))
        (fun hm => hc (List.mem_cons_of_mem _ hm)) rest
      exact ⟨rfl, rfl⟩

/-! ## Numbers -/

theorem colon_notMem_repr (n : Nat) : ':' ∉ n.repr.toList := by
  rw [Nat.toList_repr]
  intro h
  have := Nat.isDigit_of_mem_toDigits (by decide) (by decide) h
  exact absurd this (by decide)

theorem colon_notMem_toString (n : Int) : ':' ∉ (toString n).toList := by
  rw [Int.toString_eq_repr, Int.repr_eq_if]
  split_ifs
  · exact colon_notMem_repr _
  · rw [String.toList_append, List.mem_append]
    rintro (h | h)
    · exact absurd h (by decide)
    · exact colon_notMem_repr _ h

theorem repr_inj {m n : Nat} (h : m.repr = n.repr) : m = n := by
  have digits : Nat.toDigits 10 m = Nat.toDigits 10 n := by
    rw [← Nat.toList_repr, ← Nat.toList_repr, h]
  rw [← Nat.ofDigitChars_ten_toDigits (n := m), digits, Nat.ofDigitChars_ten_toDigits]

/-- A minus sign is no digit. -/
theorem repr_ne_minus_append (m n : Nat) : m.repr ≠ "-" ++ n.repr := by
  intro h
  have first : '-' ∈ m.repr.toList := by
    rw [h, String.toList_append]
    exact List.mem_append_left _ (by decide)
  rw [Nat.toList_repr] at first
  have := Nat.isDigit_of_mem_toDigits (by decide) (by decide) first
  exact absurd this (by decide)

theorem toString_inj {m n : Int} (h : toString m = toString n) : m = n := by
  rw [Int.toString_eq_repr, Int.toString_eq_repr, Int.repr_eq_if, Int.repr_eq_if] at h
  split_ifs at h with hm hn hn
  · have := repr_inj h
    omega
  · exact absurd h (repr_ne_minus_append _ _)
  · exact absurd h.symm (repr_ne_minus_append _ _)
  · have := repr_inj ((String.append_right_inj "-").1 h)
    omega

/-! ## Declarations -/

@[simp]
theorem toList_declarationId (path : String) (line : Int) (name : String) :
    (declarationId path line name).toList =
      path.toList ++ ':' :: ((toString line).toList ++ ':' :: name.toList) := by
  simp only [declarationId, String.toList_append, List.append_assoc]
  rfl

/-- In one file an id gives back the line and the name, whatever characters they have. -/
theorem declarationId_inj_left {path name name' : String} {line line' : Int}
    (h : declarationId path line name = declarationId path line' name') :
    line = line' ∧ name = name' := by
  have texts := congrArg String.toList h
  rw [toList_declarationId, toList_declarationId, List.append_cancel_left_eq] at texts
  obtain ⟨lines, names⟩ := append_cons_inj (colon_notMem_toString line)
    (colon_notMem_toString line') (List.cons.inj texts).2
  exact ⟨toString_inj (String.toList_inj.1 lines), String.toList_inj.1 names⟩

/-- Where paths have no colon an id gives back all that it is made of. -/
theorem declarationId_inj {path path' name name' : String} {line line' : Int}
    (hp : ':' ∉ path.toList) (hp' : ':' ∉ path'.toList)
    (h : declarationId path line name = declarationId path' line' name') :
    path = path' ∧ line = line' ∧ name = name' := by
  have texts := congrArg String.toList h
  rw [toList_declarationId, toList_declarationId] at texts
  have same := String.toList_inj.1 (append_cons_inj hp hp' texts).1
  subst same
  exact ⟨rfl, declarationId_inj_left h⟩

theorem declarationId_ne_empty (path : String) (line : Int) (name : String) :
    declarationId path line name ≠ "" := by
  intro empty
  have := congrArg String.toList empty
  rw [toList_declarationId] at this
  simp at this

/-! ## Links -/

@[simp]
theorem toList_linkId (kind : LinkKind) (source target : String) :
    (linkId kind source target).toList =
      kind.name.toList ++ ':' :: (source.toList ++ ':' :: target.toList) := by
  simp only [linkId, String.toList_append, List.append_assoc]
  rfl

theorem colon_notMem_name (kind : LinkKind) : ':' ∉ kind.name.toList := by
  cases kind <;> decide

theorem name_inj {kind kind' : LinkKind} (h : kind.name = kind'.name) : kind = kind' := by
  revert h
  cases kind <;> cases kind' <;> decide

theorem kind_eq_of_linkId_eq {kind kind' : LinkKind} {s t s' t' : String}
    (h : linkId kind s t = linkId kind' s' t') : kind = kind' := by
  have texts := congrArg String.toList h
  rw [toList_linkId, toList_linkId] at texts
  have names := (append_cons_inj (colon_notMem_name kind) (colon_notMem_name kind') texts).1
  exact name_inj (String.toList_inj.1 names)

theorem target_eq_of_linkId_eq {kind : LinkKind} {s t t' : String}
    (h : linkId kind s t = linkId kind s t') : t = t' := by
  have texts := congrArg String.toList h
  rw [toList_linkId, toList_linkId] at texts
  simpa [String.toList_inj] using texts

/-- Neither the path nor the name has a colon. -/
structure Declaration.Plain (d : Declaration) : Prop where
  path : ':' ∉ d.path.toList
  name : ':' ∉ d.name.toList

instance (d : Declaration) : Decidable d.Plain :=
  decidable_of_iff (':' ∉ d.path.toList ∧ ':' ∉ d.name.toList)
    ⟨fun h => ⟨h.1, h.2⟩, fun h => ⟨h.path, h.name⟩⟩

/-- If the sources are plain, the id of a link gives back its kind and its ends. -/
theorem linkId_inj {kind kind' : LinkKind} {s s' : Declaration} {target target' : String}
    (hs : s.Plain) (hs' : s'.Plain) (h : linkId kind s.id target = linkId kind' s'.id target') :
    kind = kind' ∧ s.id = s'.id ∧ target = target' := by
  have texts := congrArg String.toList h
  rw [toList_linkId, toList_linkId] at texts
  obtain ⟨kinds, texts⟩ :=
    append_cons_inj (colon_notMem_name kind) (colon_notMem_name kind') texts
  rw [Declaration.id, Declaration.id, toList_declarationId, toList_declarationId] at texts
  simp only [List.append_assoc, List.cons_append] at texts
  obtain ⟨paths, texts⟩ := append_cons_inj hs.path hs'.path texts
  obtain ⟨lines, texts⟩ :=
    append_cons_inj (colon_notMem_toString _) (colon_notMem_toString _) texts
  obtain ⟨names, targets⟩ := append_cons_inj hs.name hs'.name texts
  refine ⟨name_inj (String.toList_inj.1 kinds), ?_, String.toList_inj.1 targets⟩
  rw [Declaration.id, Declaration.id, String.toList_inj.1 paths, String.toList_inj.1 names,
    toString_inj (String.toList_inj.1 lines)]

end CodeGraph
