import CodeGraph.Proofs.Nesting
import CodeGraph.Proofs.Repeats

/-!
# Owners come first

In an `OwnersFirst` list of declarations a declaration with the id of the owner stands before every
declaration that has one.  The property is kept when lists are joined and when repeats are dropped:
a repeat that goes leaves an earlier declaration with its id behind.  In a list without repeats the
owners form no circle (`not_transGen_ownedBy_self`).
-/

namespace CodeGraph

/-- Every declaration satisfies `P`; where one has an owner, a declaration with the id of the owner
stands before it and is related to it by `R`. -/
inductive OwnersFirst (P : Declaration → Prop) (R : Declaration → Declaration → Prop) :
    List Declaration → Prop where
  | nil : OwnersFirst P R []
  | snoc {ds : List Declaration} {d : Declaration} (before : OwnersFirst P R ds) (holds : P d)
      (owner : ∀ id, d.owner = some id → ∃ t ∈ ds, t.id = id ∧ R t d) :
      OwnersFirst P R (ds ++ [d])

/-- In the list, the second declaration has the id that the first one gives as its owner. -/
def OwnedBy (ds : List Declaration) (d t : Declaration) : Prop :=
  d ∈ ds ∧ t ∈ ds ∧ d.owner = some t.id

namespace OwnersFirst

variable {P P' : Declaration → Prop} {R R' : Declaration → Declaration → Prop}
  {ds ds' : List Declaration}

theorem mono (h : OwnersFirst P R ds) (hP : ∀ d, P d → P' d) (hR : ∀ t d, R t d → R' t d) :
    OwnersFirst P' R' ds := by
  induction h with
  | nil => exact nil
  | snoc _ holds owner ih =>
    refine ih.snoc (hP _ holds) fun id hid => ?_
    obtain ⟨t, ht, htid, htR⟩ := owner id hid
    exact ⟨t, ht, htid, hR _ _ htR⟩

theorem append (h : OwnersFirst P R ds) (h' : OwnersFirst P R ds') :
    OwnersFirst P R (ds ++ ds') := by
  induction h' with
  | nil => rwa [List.append_nil]
  | snoc _ holds owner ih =>
    rw [← List.append_assoc]
    refine ih.snoc holds fun id hid => ?_
    obtain ⟨t, ht, htR⟩ := owner id hid
    exact ⟨t, List.mem_append_right _ ht, htR⟩

theorem flatMap {ι : Type} {parts : List ι} {f : ι → List Declaration}
    (h : ∀ i ∈ parts, OwnersFirst P R (f i)) : OwnersFirst P R (parts.flatMap f) := by
  induction parts with
  | nil => exact nil
  | cons i parts ih =>
    rw [List.flatMap_cons]
    exact (h i List.mem_cons_self).append (ih fun j hj => h j (List.mem_cons_of_mem _ hj))

/-- Declarations without owners. -/
theorem of_free (h : ∀ d ∈ ds, P d ∧ d.owner = none) : OwnersFirst P R ds := by
  induction ds using List.reverseRecOn with
  | nil => exact nil
  | append_singleton ds d ih =>
    obtain ⟨holds, free⟩ := h d (List.mem_append_right _ List.mem_cons_self)
    refine (ih fun e he => h e (List.mem_append_left _ he)).snoc holds fun id hid => ?_
    rw [free] at hid
    cases hid

/-- A declaration without an owner and, behind it, those that have it as their owner. -/
theorem family {t : Declaration} (holds : P t) (free : t.owner = none)
    (h : ∀ m ∈ ds, P m ∧ m.owner = some t.id ∧ R t m) : OwnersFirst P R (t :: ds) := by
  induction ds using List.reverseRecOn with
  | nil => exact of_free fun d hd => by rw [List.mem_singleton.1 hd]; exact ⟨holds, free⟩
  | append_singleton ds m ih =>
    obtain ⟨hm, howner, hR⟩ := h m (List.mem_append_right _ List.mem_cons_self)
    refine (ih fun e he => h e (List.mem_append_left _ he)).snoc hm fun id hid => ?_
    rw [howner] at hid
    exact ⟨t, List.mem_cons_self, Option.some.inj hid, hR⟩

theorem forall_mem (h : OwnersFirst P R ds) : ∀ d ∈ ds, P d := by
  induction h with
  | nil => exact fun d hd => absurd hd List.not_mem_nil
  | snoc _ holds _ ih =>
    intro d hd
    rcases List.mem_append.1 hd with hd | hd
    · exact ih d hd
    · rwa [List.mem_singleton.1 hd]

theorem exists_owner (h : OwnersFirst P R ds) {d : Declaration} (hd : d ∈ ds) {id : String}
    (hid : d.owner = some id) : ∃ t ∈ ds, t.id = id ∧ R t d := by
  induction h with
  | nil => cases hd
  | snoc _ _ owner ih =>
    rcases List.mem_append.1 hd with hd | hd
    · obtain ⟨t, ht, htR⟩ := ih hd
      exact ⟨t, List.mem_append_left _ ht, htR⟩
    · rw [List.mem_singleton.1 hd] at hid ⊢
      obtain ⟨t, ht, htR⟩ := owner id hid
      exact ⟨t, List.mem_append_left _ ht, htR⟩

/-- The owner stands at a smaller index. -/
theorem exists_lt (h : OwnersFirst P R ds) {i : Nat} {d : Declaration} (hi : ds[i]? = some d)
    {id : String} (hid : d.owner = some id) : ∃ j t, j < i ∧ ds[j]? = some t ∧ t.id = id := by
  induction h with
  | nil => cases hi
  | @snoc ds e _ _ owner ih =>
    by_cases hlt : i < ds.length
    · rw [List.getElem?_append_left hlt] at hi
      obtain ⟨j, t, hj, ht, htid⟩ := ih hi
      exact ⟨j, t, hj, by rwa [List.getElem?_append_left (Nat.lt_trans hj hlt)], htid⟩
    · have last : i = ds.length := by
        have := (List.getElem?_eq_some_iff.1 hi).1
        rw [List.length_append, List.length_singleton] at this
        omega
      subst last
      rw [List.getElem?_concat_length] at hi
      obtain rfl := Option.some.inj hi
      obtain ⟨t, ht, htid, -⟩ := owner id hid
      obtain ⟨j, hj, hjt⟩ := List.getElem_of_mem ht
      refine ⟨j, t, hj, ?_, htid⟩
      rw [List.getElem?_append_left hj, List.getElem?_eq_getElem hj, hjt]

/-- A dropped repeat leaves an earlier declaration with its id behind. -/
theorem distinct (h : OwnersFirst P R ds) :
    OwnersFirst P (fun _ _ => True) (distinctDeclarations ds) := by
  induction h with
  | nil => exact nil
  | snoc _ holds owner ih =>
    rw [distinctDeclarations, withoutRepeats_append_singleton]
    split_ifs with repeated
    · rwa [List.append_nil]
    · refine ih.snoc holds fun id hid => ?_
      obtain ⟨t, ht, htid, -⟩ := owner id hid
      obtain ⟨c, hc, hct⟩ := exists_mem_withoutRepeats Declaration.id ht
      exact ⟨c, hc, hct.trans htid, trivial⟩

/-- Where every id occurs once, an owner stands before each of its members. -/
theorem idxOf_lt_of_ownedBy (h : OwnersFirst P R ds) (unique : (ds.map Declaration.id).Nodup)
    {d t : Declaration} (ho : OwnedBy ds d t) : ds.idxOf t < ds.idxOf d := by
  obtain ⟨hd, ht, howner⟩ := ho
  have found : ds[ds.idxOf d]? = some d := List.getElem?_idxOf hd
  obtain ⟨j, t', hj, ht', hid⟩ := h.exists_lt found howner
  have same : t' = t := List.inj_on_of_nodup_map unique (List.mem_of_getElem? ht') ht hid
  subst same
  obtain ⟨hlt, rfl⟩ := List.getElem?_eq_some_iff.1 ht'
  rwa [(unique.of_map _).idxOf_getElem j hlt]

/-- No declaration owns itself, directly or through others. -/
theorem not_transGen_ownedBy_self (h : OwnersFirst P R ds) (unique : (ds.map Declaration.id).Nodup)
    (d : Declaration) : ¬ Relation.TransGen (OwnedBy ds) d d := by
  have descends {a b : Declaration} (hab : Relation.TransGen (OwnedBy ds) a b) :
      ds.idxOf b < ds.idxOf a := by
    induction hab with
    | single hab => exact h.idxOf_lt_of_ownedBy unique hab
    | tail _ hbc ih => exact Nat.lt_trans (h.idxOf_lt_of_ownedBy unique hbc) ih
  exact fun hd => absurd (descends hd) (Nat.lt_irrefl _)

end OwnersFirst

end CodeGraph
