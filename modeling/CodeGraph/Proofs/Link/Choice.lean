import CodeGraph.Proofs.Link.Calls
import CodeGraph.Proofs.Link.Distinct
import CodeGraph.Proofs.Link.ImportTarget

/-!
# The closest declaration of a name

Of the declarations of a name the best match is the first one of the least rank
(`bestMatch_eq_some_iff`).  Links to bases and calls lead to best matches (`exists_isClosest`), so
they leave the file only if it has no declaration of the name.  The file comes first: a declaration
in it is taken even if it is in another language, and only behind it does the language of the source
count (`resolve_leadsToClosest`).
-/

namespace CodeGraph

/-! ## Ranks -/

section Ranks

variable {source c t : Declaration} {candidates : List Declaration}

@[simp]
theorem rank_eq_zero_iff : rank source c = 0 ↔ c.path = source.path := by
  unfold rank
  split_ifs <;> simp [*]

@[simp]
theorem one_le_rank_iff : 1 ≤ rank source c ↔ c.path ≠ source.path := by
  simp [Nat.one_le_iff_ne_zero]

@[simp]
theorem two_le_rank_iff :
    2 ≤ rank source c ↔ c.path ≠ source.path ∧ c.language ≠ source.language := by
  unfold rank
  split_ifs <;> simp [*]

theorem rank_eq_one_iff (other : 1 ≤ rank source c) :
    rank source c = 1 ↔ c.language = source.language := by
  grind

theorem rank_eq_two_iff (other : 2 ≤ rank source c) : rank source c = 2 ↔ c.owner = none := by
  grind

@[simp]
theorem rank_le_three (source c : Declaration) : rank source c ≤ 3 := by
  grind

/-- The first candidate of the least rank. -/
def IsClosest (source : Declaration) (candidates : List Declaration) (t : Declaration) : Prop :=
  IsFirst (fun t => ∀ c ∈ candidates, rank source t ≤ rank source c) candidates t

theorem IsClosest.le (h : IsClosest source candidates t) (hc : c ∈ candidates) :
    rank source t ≤ rank source c :=
  h.holds c hc

/-- The first candidate with a property that those of rank `k` have is the closest one if no rank is
less than `k`. -/
theorem isClosest_of_isFirst {p : Declaration → Prop} {k : Nat} (first : IsFirst p candidates t)
    (least : ∀ c ∈ candidates, k ≤ rank source c)
    (same : ∀ c ∈ candidates, rank source c = k ↔ p c) : IsClosest source candidates t := by
  have closest : rank source t = k := (same t first.mem).2 first.holds
  obtain ⟨before, after, whole, -, none⟩ := first
  refine ⟨before, after, whole, fun c hc => closest ▸ least c hc, fun c hc low => none c hc ?_⟩
  have mem {d : Declaration} (h : d ∈ before ++ t :: after) : d ∈ candidates := whole ▸ h
  have inside := mem (List.mem_append_left _ hc)
  have bound := low t (mem (by simp))
  exact (same c inside).1 (le_antisymm (closest ▸ bound) (least c inside))

/-- A search for the candidates of rank `k` finds the closest one, or leaves only greater ranks. -/
theorem isClosest_or_next {p : Declaration → Prop} [DecidablePred p] {k : Nat}
    {rest : Option Declaration} (h : (candidates.find? fun c => p c).or rest = some t)
    (least : ∀ c ∈ candidates, k ≤ rank source c)
    (same : ∀ c ∈ candidates, rank source c = k ↔ p c) :
    IsClosest source candidates t ∨ rest = some t ∧ ∀ c ∈ candidates, k + 1 ≤ rank source c := by
  have decides (c : Declaration) : decide (p c) = true ↔ p c := decide_eq_true_iff
  rcases Option.or_eq_some_iff.1 h with found | ⟨none, h⟩
  · exact Or.inl (isClosest_of_isFirst ((find?_eq_some_iff_isFirst decides).1 found) least same)
  · have none := (find?_eq_none_iff_forall decides).1 none
    refine Or.inr ⟨h, fun c hc => ?_⟩
    exact (least c hc).lt_of_ne' fun equal => none c hc ((same c hc).1 equal)

theorem isClosest_of_bestMatch (h : bestMatch source candidates = some t) :
    IsClosest source candidates t := by
  rw [bestMatch_eq] at h
  rcases isClosest_or_next h (fun c _ => Nat.zero_le _) fun c _ => rank_eq_zero_iff with
    closest | ⟨h, one⟩
  · exact closest
  rcases isClosest_or_next h one fun c hc => rank_eq_one_iff (one c hc) with closest | ⟨h, two⟩
  · exact closest
  rcases isClosest_or_next h two fun c hc => rank_eq_two_iff (two c hc) with closest | ⟨h, three⟩
  · exact closest
  -- All candidates have the last rank, so the first one is the closest.
  obtain ⟨rest, rfl⟩ := List.head?_eq_some_iff.1 h
  have first : IsFirst (fun _ => True) (t :: rest) t := ⟨[], rest, rfl, trivial, by simp⟩
  refine isClosest_of_isFirst first three fun c hc => ?_
  rw [iff_true]
  exact le_antisymm (rank_le_three source c) (three c hc)

@[simp]
theorem bestMatch_eq_some_iff :
    bestMatch source candidates = some t ↔ IsClosest source candidates t := by
  constructor
  · exact isClosest_of_bestMatch
  · intro closest
    obtain ⟨other, best⟩ := exists_bestMatch source (List.ne_nil_of_mem closest.mem)
    rw [best, (isClosest_of_bestMatch best).unique closest]

@[simp]
theorem bestMatch_eq_none_iff : bestMatch source candidates = none ↔ candidates = [] := by
  constructor
  · intro none
    by_contra any
    obtain ⟨t, best⟩ := exists_bestMatch source any
    cases none.symm.trans best
  · rintro rfl
    rfl

end Ranks

/-! ## Links -/

/-- The names of the types that a type extends, or of those that it implements. -/
def basesOf (kind : LinkKind) (d : Declaration) : List String :=
  match kind with
  | .inheritance => (filled? d.traits.base).toList
  | .implementation => d.traits.interfaces
  | _ => []

section Links

variable {table : ExtensionTable} {ds : List Declaration} {files : List SourceFile}
  {s t d : Declaration} {l : Link} {name : String}

/-- A type is linked with the best match for each of its bases. -/
theorem mem_ends_inheritanceLinks {e : LinkKind × String × String} :
    e ∈ (inheritanceLinks ds).map Link.ends ↔
      ∃ d ∈ ds, d.kind.isType = true ∧ ∃ base ∈ basesOf e.1 d, ∃ t,
        bestMatch d (named ds base) = some t ∧ e.2 = (d.id, t.id) := by
  constructor
  · intro h
    obtain ⟨l, hl, rfl⟩ := List.mem_map.1 h
    obtain ⟨d, hd, hl⟩ := List.mem_flatMap.1 hl
    obtain ⟨isType, hl⟩ := List.mem_ite_nil_right.1 hl
    rcases List.mem_append.1 hl with hl | hl
    · obtain ⟨base, hbase, hl⟩ := List.mem_filterMap.1 hl
      obtain ⟨t, best, rfl⟩ := Option.map_eq_some_iff.1 hl
      exact ⟨d, hd, isType, base, hbase, t, best, rfl⟩
    · obtain ⟨base, hbase, hl⟩ := List.mem_filterMap.1 hl
      obtain ⟨t, best, rfl⟩ := Option.map_eq_some_iff.1 hl
      exact ⟨d, hd, isType, base, hbase, t, best, rfl⟩
  · obtain ⟨kind, ends⟩ := e
    rintro ⟨d, hd, isType, base, hbase, t, best, rfl⟩
    have found (verb : String) : baseLink? ds kind verb d base =
        some (.shown kind d.id t.id d.span.start (d.name ++ verb ++ t.name)) := by
      rw [baseLink?, best]
      rfl
    have listed (verb : String) (hl : .shown kind d.id t.id d.span.start
        (d.name ++ verb ++ t.name) ∈ inheritanceLinksOf ds d) :
        (kind, d.id, t.id) ∈ (inheritanceLinks ds).map Link.ends :=
      List.mem_map.2 ⟨_, List.mem_flatMap.2 ⟨d, hd, hl⟩, rfl⟩
    cases kind with
    | inheritance =>
      refine listed " extends " ?_
      rw [inheritanceLinksOf, if_pos isType]
      exact List.mem_append_left _ (List.mem_filterMap.2 ⟨base, hbase, found _⟩)
    | implementation =>
      refine listed " implements " ?_
      rw [inheritanceLinksOf, if_pos isType]
      exact List.mem_append_right _ (List.mem_filterMap.2 ⟨base, hbase, found _⟩)
    | call | importing | ownership => cases hbase

/-- A link to a base or a call leads to the closest declaration of a name. -/
theorem exists_isClosest (h : l ∈ resolve table ds files)
    (kind : l.kind = .inheritance ∨ l.kind = .implementation ∨ l.kind = .call) :
    ∃ s ∈ ds, ∃ t name, IsClosest s (named ds name) t ∧ l.source = s.id ∧ l.target = t.id := by
  have found := mem_of_mem_withoutRepeats _ h
  rcases or_assoc.2 kind with base | call
  · have ends := List.mem_map_of_mem (f := Link.ends) (mem_inheritanceLinks_of_kind found base)
    obtain ⟨s, hs, -, name, -, t, best, same⟩ := mem_ends_inheritanceLinks.1 ends
    obtain ⟨source, target⟩ := Prod.mk.inj same
    exact ⟨s, hs, t, name, bestMatch_eq_some_iff.1 best, source, target⟩
  · obtain ⟨s, hs, name, site, rfl⟩ := exists_callSite (mem_callLinks_of_kind found call)
    exact ⟨s, hs, site.target, name, bestMatch_eq_some_iff.1 site.best, rfl, rfl⟩

theorem IsClosest.path_ne (h : IsClosest s (named ds name) t) (away : t.path ≠ s.path) (hd : d ∈ ds)
    (same : d.name = name) : d.path ≠ s.path :=
  one_le_rank_iff.1 ((one_le_rank_iff.2 away).trans (h.le (mem_named.2 ⟨hd, same⟩)))

theorem IsClosest.language_ne (h : IsClosest s (named ds name) t) (away : t.path ≠ s.path)
    (foreign : t.language ≠ s.language) (hd : d ∈ ds) (same : d.name = name) :
    d.path ≠ s.path ∧ d.language ≠ s.language :=
  two_le_rank_iff.1 ((two_le_rank_iff.2 ⟨away, foreign⟩).trans (h.le (mem_named.2 ⟨hd, same⟩)))

/-- The best match is the first candidate of the least rank, and there is none only among no
candidates.  So a link to a base or a call leaves the file only if no declaration of the target's
name is in it, and leads to a file in another language only if moreover none is in the language of
the source. -/
theorem resolve_leadsToClosest :
    (∀ source candidates, (bestMatch source candidates = none ↔ candidates = []) ∧
      ∀ t, bestMatch source candidates = some t ↔ IsClosest source candidates t) ∧
    ∀ (table : ExtensionTable) (ds : List Declaration) (files : List SourceFile),
      (ds.map Declaration.id).Nodup → ∀ l ∈ resolve table ds files,
      l.kind = .inheritance ∨ l.kind = .implementation ∨ l.kind = .call →
      ∀ s ∈ ds, ∀ t ∈ ds, l.source = s.id → l.target = t.id →
        (t.path ≠ s.path → ∀ d ∈ ds, d.name = t.name → d.path ≠ s.path) ∧
        (t.language ≠ s.language → t.path = s.path ∨
          ∀ d ∈ ds, d.name = t.name → d.path ≠ s.path ∧ d.language ≠ s.language) := by
  refine ⟨fun source candidates => ⟨bestMatch_eq_none_iff, fun t => bestMatch_eq_some_iff⟩, ?_⟩
  intro table ds files ids l hl kind s hs t ht source target
  obtain ⟨s', hs', t', name, closest, source', target'⟩ := exists_isClosest hl kind
  obtain ⟨ht', named⟩ := mem_named.1 closest.mem
  obtain rfl := List.inj_on_of_nodup_map ids hs hs' (source.symm.trans source')
  obtain rfl := List.inj_on_of_nodup_map ids ht ht' (target.symm.trans target')
  constructor
  · intro away d hd same
    exact closest.path_ne away hd (same.trans named)
  · intro foreign
    by_cases away : t.path = s.path
    · exact Or.inl away
    · exact Or.inr fun d hd same => closest.language_ne away foreign hd (same.trans named)

/-- A class that extends `Animal`. -/
def dog : Declaration :=
  ⟨"Dog", .classType, .javascript, "m.js", ⟨⟨1, 0⟩, ⟨1, 24⟩⟩, { base := some "Animal" }, none⟩

/-- A class with the name `Animal` in a file. -/
def animalIn (path : String) (language : Language) : Declaration :=
  ⟨"Animal", .classType, language, path, ⟨⟨2, 0⟩, ⟨2, 15⟩⟩, {}, none⟩

/-- The link from `Dog` to a class with the name `Animal`. -/
def dogLink (animal : Declaration) : Link :=
  .shown .inheritance dog.id animal.id ⟨1, 0⟩ "Dog extends Animal"

/-- No class with the name `Animal` is in the file of `Dog` or in its language, and the first of the
others is linked. -/
theorem resolve_leadsToClosest_foreign :
    let ds := [dog, animalIn "x.py" .python, animalIn "z.java" .java]
    (ds.map Declaration.id).Nodup ∧
      dogLink (animalIn "x.py" .python) ∈ resolve .standard ds [] ∧
      (animalIn "x.py" .python).language ≠ dog.language ∧
      ∀ d ∈ ds, d.name = "Animal" → d.path ≠ "m.js" ∧ d.language ≠ .javascript := by
  have ids :
      ([dog, animalIn "x.py" .python, animalIn "z.java" .java].map Declaration.id).Nodup := by
    decide +kernel
  have linked : dogLink (animalIn "x.py" .python) ∈
      resolve .standard [dog, animalIn "x.py" .python, animalIn "z.java" .java] [] := by
    decide +kernel
  have foreign : (animalIn "x.py" .python).language ≠ dog.language := by decide
  obtain ⟨-, away⟩ := resolve_leadsToClosest.2 _ _ _ ids _ linked (Or.inl rfl) dog (by simp)
    (animalIn "x.py" .python) (by simp) rfl rfl
  exact ⟨ids, linked, foreign, (away foreign).resolve_left (by decide)⟩

/-- A class in another language is linked, as it is in the file of `Dog`, although a class of its
name in another file has the language of `Dog`. -/
theorem leadsToOtherLanguage_ownFile :
    let ds := [dog, animalIn "m.js" .typescript, animalIn "n.js" .javascript]
    (ds.map Declaration.id).Nodup ∧
      dogLink (animalIn "m.js" .typescript) ∈ resolve .standard ds [] ∧
      (animalIn "m.js" .typescript).language ≠ dog.language ∧
      (∃ d ∈ ds, d.name = "Animal" ∧ d.path = dog.path) ∧
      ∃ d ∈ ds, d.name = "Animal" ∧ d.language = dog.language := by
  decide +kernel

end Links

end CodeGraph
