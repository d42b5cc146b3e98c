import CodeGraph.Json.Reader
import CodeGraph.Proofs.Fallible
import Mathlib.Data.List.Nodup

/-!
# Keys of objects

Setting the value of a key leaves the other keys as they are (`keys_insert`), and changes nothing if
the key has that value (`insert_eq_self`).  In an object that is read each key occurs once, and so
it is in the objects that stand under its keys (`keyedOnce_of_parse`).
-/

namespace CodeGraph.Json

variable {members : Members} {key : String} {value : Value}

/-! ## Members -/

@[simp, grind =]
theorem find?_eq_none_iff : find? key members = none ↔ key ∉ members.map Prod.fst := by
  induction members with
  | nil => simp [find?]
  | cons m rest ih => grind

@[grind →]
theorem mem_of_find? (h : find? key members = some value) : (key, value) ∈ members := by
  induction members with
  | nil => cases h
  | cons m rest ih => grind

theorem find?_of_mem (distinct : (members.map Prod.fst).Nodup) (h : (key, value) ∈ members) :
    find? key members = some value := by
  induction members with
  | nil => cases h
  | cons m rest ih =>
    rw [List.map_cons, List.nodup_cons] at distinct
    -- the key of the first member is that of no other one
    grind

theorem keys_insert (key : String) (value : Value) (members : Members) :
    (insert key value members).map Prod.fst =
      if key ∈ members.map Prod.fst then members.map Prod.fst
      else members.map Prod.fst ++ [key] := by
  induction members with
  | nil => rfl
  | cons m rest ih =>
    by_cases same : m.1 = key
    · simp [insert, same]
    · rw [insert, if_neg same, List.map_cons, List.map_cons, ih]
      simp only [List.mem_cons, Ne.symm same, false_or]
      split <;> rfl

theorem mem_insert {m : String × Value} (h : m ∈ insert key value members) :
    m = (key, value) ∨ m ∈ members := by
  induction members with
  | nil => exact Or.inl (List.mem_singleton.1 h)
  | cons first rest ih => grind

theorem insert_eq_self (h : find? key members = some value) :
    insert key value members = members := by
  induction members with
  | nil => cases h
  | cons m rest ih => grind

theorem insert_of_notMem (h : key ∉ members.map Prod.fst) :
    insert key value members = members ++ [(key, value)] := by
  induction members with
  | nil => rfl
  | cons m rest ih => grind

/-! ## Each key once -/

/-- Each key occurs once, here and in the objects that stand under keys. -/
inductive KeyedOnce : Members → Prop where
  | intro {members : Members} (distinct : (members.map Prod.fst).Nodup)
      (inside : ∀ key inner, (key, .object inner) ∈ members → KeyedOnce inner) : KeyedOnce members

theorem KeyedOnce.distinct (h : KeyedOnce members) : (members.map Prod.fst).Nodup := by
  cases h with
  | intro distinct _ => exact distinct

/-- If the value is an object, then one in which each key occurs once. -/
def Value.IsKeyed (value : Value) : Prop := ∀ members, value = .object members → KeyedOnce members

theorem KeyedOnce.under (h : KeyedOnce members) (mem : (key, value) ∈ members) : value.IsKeyed := by
  rintro inner rfl
  cases h with
  | intro _ inside => exact inside key inner mem

theorem keyedOnce_iff : KeyedOnce members ↔
    (members.map Prod.fst).Nodup ∧ ∀ m ∈ members, m.2.IsKeyed :=
  ⟨fun h => ⟨h.distinct, fun _ mem => h.under mem⟩,
    fun h => .intro h.1 fun _ inner mem => h.2 _ mem inner rfl⟩

theorem KeyedOnce.insert (h : KeyedOnce members) (keyed : value.IsKeyed) :
    KeyedOnce (insert key value members) := by
  obtain ⟨distinct, inside⟩ := keyedOnce_iff.1 h
  refine keyedOnce_iff.2 ⟨?_, fun m mem => ?_⟩
  · rw [keys_insert]
    split
    · exact distinct
    · next new =>
      exact distinct.append (List.nodup_singleton key) (List.disjoint_singleton.2 new)
  · rcases mem_insert mem with rfl | old
    · exact keyed
    · exact inside m old

/-- Members of which the last one with a key counts have each key once. -/
theorem keyedOnce_ofPairs {pairs : List (String × Value)} (keyed : ∀ m ∈ pairs, m.2.IsKeyed) :
    KeyedOnce (ofPairs pairs) := by
  have all {members : Members} (h : KeyedOnce members) :
      KeyedOnce (pairs.foldl (fun members m => Json.insert m.1 m.2 members) members) := by
    induction pairs generalizing members with
    | nil => exact h
    | cons m rest ih =>
      obtain ⟨first, later⟩ := List.forall_mem_cons.1 keyed
      exact ih later (h.insert first)
  exact all (.intro List.nodup_nil nofun)

/-! ## Reading -/

theorem isKeyed_of_readNumber {negative : Bool} {text rest : List Char}
    (h : readNumber negative text = .ok (value, rest)) : value.IsKeyed := by
  rintro members rfl
  simp only [readNumber] at h
  repeat' split at h
  all_goals simp at h

theorem isKeyed_of_readScalar {text rest : List Char}
    (h : readScalar text = .ok (value, rest)) : value.IsKeyed := by
  unfold readScalar at h
  -- six words, then numbers
  iterate 6
    split at h
    · cases h
      nofun
  split at h
  · exact isKeyed_of_readNumber h
  · exact isKeyed_of_readNumber h

theorem isKeyed_of_readItems {fuel : Nat} {read : List Value} {text rest : List Char}
    (h : readItems fuel read text = .ok (value, rest)) : value.IsKeyed := by
  induction fuel generalizing read text with
  | zero => cases h
  | succ fuel ih =>
    rw [readItems] at h
    obtain ⟨⟨item, more⟩, -, h⟩ := bind_eq_ok.1 h
    dsimp only at h
    split at h
    · cases h
      nofun
    · exact ih h
    · cases h

/-- In so many steps the reader gives no object in which a key repeats. -/
structure ReadsKeyed (fuel : Nat) : Prop where
  ofValue : ∀ {text rest value}, readValue fuel text = .ok (value, rest) → value.IsKeyed
  ofMembers : ∀ {read text rest value}, (∀ m ∈ read, m.2.IsKeyed) →
    readMembers fuel read text = .ok (value, rest) → value.IsKeyed

theorem ReadsKeyed.readValue {fuel : Nat} (reads : ReadsKeyed fuel) {text rest : List Char}
    (h : readValue (fuel + 1) text = .ok (value, rest)) : value.IsKeyed := by
  rw [readValue.eq_def] at h
  dsimp only at h
  split at h
  · obtain ⟨⟨string, more⟩, -, h⟩ := bind_eq_ok.1 h
    cases h
    nofun
  · split at h
    · cases h
      nofun
    · exact isKeyed_of_readItems h
  · split at h
    · split at h
      · exact reads.ofMembers (List.forall_mem_nil _) h
      · split at h
        · cases h
          rintro members ⟨⟩
          exact .intro List.nodup_nil nofun
        · cases h
      · cases h
    · exact isKeyed_of_readScalar h
  · cases h

theorem ReadsKeyed.readMembers {fuel : Nat} (reads : ReadsKeyed fuel)
    {read : List (String × Value)} {text rest : List Char} (keyed : ∀ m ∈ read, m.2.IsKeyed)
    (h : readMembers (fuel + 1) read text = .ok (value, rest)) : value.IsKeyed := by
  rw [Json.readMembers] at h
  obtain ⟨⟨key, afterKey⟩, -, h⟩ := bind_eq_ok.1 h
  dsimp only at h
  split at h
  · obtain ⟨⟨found, afterValue⟩, inner, h⟩ := bind_eq_ok.1 h
    dsimp only at h
    have further : ∀ m ∈ (String.ofList key, found) :: read, m.2.IsKeyed :=
      List.forall_mem_cons.2 ⟨reads.ofValue inner, keyed⟩
    split at h
    · split at h
      · exact reads.ofMembers further h
      · cases h
    · split at h
      · cases h
        rintro members ⟨⟩
        exact keyedOnce_ofPairs fun m mem => further m (List.mem_reverse.1 mem)
      · cases h
    · cases h
  · cases h

theorem readsKeyed (fuel : Nat) : ReadsKeyed fuel := by
  induction fuel with
  | zero => exact ⟨nofun, fun _ => nofun⟩
  | succ fuel ih => exact ⟨ih.readValue, ih.readMembers⟩

/-- In an object that is read each key occurs once. -/
theorem keyedOnce_of_parse {text : List Char} (h : parse text = .ok (.object members)) :
    KeyedOnce members := by
  unfold parse at h
  obtain ⟨⟨value, rest⟩, read, h⟩ := bind_eq_ok.1 h
  dsimp only at h
  split at h
  · exact (readsKeyed _).ofValue read members (Except.ok.inj h)
  · cases h

end CodeGraph.Json
