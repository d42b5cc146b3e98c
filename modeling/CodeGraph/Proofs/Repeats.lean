import CodeGraph.Declaration
import Mathlib.Data.List.Induction
import Mathlib.Data.List.Nodup

/-!
# First items

`withoutRepeats key` keeps the first item of every key.  This file describes it: what is kept is a
sublist without two items of one key (`nodup_map_withoutRepeats`), the first item of a key is the
same before and after (`find?_withoutRepeats`), an item at the end is kept if its key is new
(`withoutRepeats_append_singleton`), and dropping repeats in the parts changes nothing for the whole
(`withoutRepeats_flatMap`).  So what is kept are the items before which there is none of their key
(`freshItems_eq_newOnes`, `withoutRepeats_eq_firstOnes`), and keys that tell the same items apart
keep the same (`withoutRepeats_congr`).
-/

namespace CodeGraph

variable {α κ : Type} [DecidableEq κ] (key : α → κ)

/-! ## Items that are not in `seen` -/

theorem freshItems_sublist (seen : List κ) (items : List α) :
    (freshItems key seen items).Sublist items := by
  induction items generalizing seen with
  | nil => exact List.Sublist.slnil
  | cons a items ih =>
    rw [freshItems]
    split_ifs with h
    · exact (ih seen).cons a
    · exact (ih _).cons_cons a

@[grind →]
theorem key_notMem_of_mem_freshItems {seen : List κ} {items : List α} {a : α}
    (h : a ∈ freshItems key seen items) : key a ∉ seen := by
  induction items generalizing seen with
  | nil => cases h
  | cons b items ih => grind

theorem nodup_map_freshItems (seen : List κ) (items : List α) :
    ((freshItems key seen items).map key).Nodup := by
  induction items generalizing seen with
  | nil => exact List.nodup_nil
  | cons a items ih =>
    rw [freshItems]
    split_ifs with h
    · exact ih seen
    · rw [List.map_cons, List.nodup_cons]
      have new : key a ∉ (freshItems key (key a :: seen) items).map key := by grind
      exact ⟨new, ih _⟩

/-- Only which keys were seen matters, not how often or in which order. -/
theorem freshItems_congr {seen seen' : List κ} (h : ∀ k, k ∈ seen ↔ k ∈ seen') (items : List α) :
    freshItems key seen items = freshItems key seen' items := by
  induction items generalizing seen seen' with
  | nil => rfl
  | cons a items ih =>
    have cons : ∀ k, k ∈ key a :: seen ↔ k ∈ key a :: seen' := fun k => by
      rw [List.mem_cons, List.mem_cons, h]
    rw [freshItems, freshItems, ih h, ih cons]
    simp only [h]

theorem freshItems_append (seen : List κ) (s t : List α) :
    freshItems key seen (s ++ t) =
      freshItems key seen s ++ freshItems key (s.map key ++ seen) t := by
  induction s generalizing seen with
  | nil => rfl
  | cons a s ih =>
    rw [List.cons_append, freshItems, freshItems]
    split_ifs with h
    · rw [ih]
      congr 1
      exact freshItems_congr key (fun k => by grind) t
    · rw [ih, List.cons_append]
      congr 2
      exact freshItems_congr key (fun k => by grind) t

/-- Items that were dropped once would be dropped later anyway. -/
theorem freshItems_freshItems {seen seen' : List κ} (h : ∀ k ∈ seen', k ∈ seen)
    (items : List α) :
    freshItems key seen (freshItems key seen' items) = freshItems key seen items := by
  induction items generalizing seen seen' with
  | nil => rfl
  | cons a items ih =>
    by_cases ha' : key a ∈ seen'
    · rw [freshItems, freshItems, if_pos ha', if_pos (h _ ha'), ih h]
    · rw [freshItems, if_neg ha', freshItems, freshItems]
      have cons : ∀ k ∈ key a :: seen', k ∈ key a :: seen := by grind
      split_ifs with ha
      · exact ih (by grind)
      · rw [ih cons]

theorem find?_freshItems {seen : List κ} {k : κ} (hk : k ∉ seen) (items : List α) :
    (freshItems key seen items).find? (fun a => key a = k) =
      items.find? fun a => key a = k := by
  induction items generalizing seen with
  | nil => rfl
  | cons a items ih =>
    -- an item of the key `k` is new; behind another item `k` is still a key that was not seen
    grind

/-! ## First items of all keys -/

theorem withoutRepeats_sublist (items : List α) : (withoutRepeats key items).Sublist items :=
  freshItems_sublist key [] items

@[grind →]
theorem mem_of_mem_withoutRepeats {items : List α} {a : α} (h : a ∈ withoutRepeats key items) :
    a ∈ items :=
  (withoutRepeats_sublist key items).subset h

theorem nodup_map_withoutRepeats (items : List α) : ((withoutRepeats key items).map key).Nodup :=
  nodup_map_freshItems key [] items

/-- The first item of a key stays the first item of that key. -/
theorem find?_withoutRepeats (items : List α) (k : κ) :
    (withoutRepeats key items).find? (fun a => key a = k) = items.find? fun a => key a = k :=
  find?_freshItems key List.not_mem_nil items

/-- No key is lost. -/
theorem exists_mem_withoutRepeats {items : List α} {a : α} (h : a ∈ items) :
    ∃ b ∈ withoutRepeats key items, key b = key a := by
  have found : (items.find? fun b => key b = key a).isSome :=
    List.find?_isSome.2 ⟨a, h, by simp⟩
  obtain ⟨b, hb⟩ := Option.isSome_iff_exists.1 found
  rw [← find?_withoutRepeats] at hb
  exact ⟨b, List.mem_of_find?_eq_some hb, by simpa using List.find?_some hb⟩

@[simp, grind =]
theorem mem_map_withoutRepeats (items : List α) (k : κ) :
    k ∈ (withoutRepeats key items).map key ↔ k ∈ items.map key := by
  refine ⟨fun h => ?_, fun h => ?_⟩
  · exact List.map_subset key (withoutRepeats_sublist key items).subset h
  · obtain ⟨a, ha, rfl⟩ := List.mem_map.1 h
    obtain ⟨b, hb, hba⟩ := exists_mem_withoutRepeats key ha
    exact List.mem_map.2 ⟨b, hb, hba⟩

/-- Two items of one key are one. -/
theorem eq_of_mem_withoutRepeats {items : List α} {a b : α} (ha : a ∈ withoutRepeats key items)
    (hb : b ∈ withoutRepeats key items) (h : key a = key b) : a = b :=
  List.inj_on_of_nodup_map (nodup_map_withoutRepeats key items) ha hb h

theorem withoutRepeats_append (s t : List α) :
    withoutRepeats key (s ++ t) = withoutRepeats key s ++ freshItems key (s.map key) t := by
  unfold withoutRepeats
  rw [freshItems_append, List.append_nil]

theorem withoutRepeats_append_singleton (items : List α) (a : α) :
    withoutRepeats key (items ++ [a]) =
      withoutRepeats key items ++ if key a ∈ items.map key then [] else [a] := by
  rw [withoutRepeats_append]
  congr 1

theorem withoutRepeats_eq_self {items : List α} (h : (items.map key).Nodup) :
    withoutRepeats key items = items := by
  induction items using List.reverseRecOn with
  | nil => rfl
  | append_singleton items a ih =>
    rw [List.map_append, List.nodup_append] at h
    have fresh : key a ∉ items.map key := fun ha => h.2.2 _ ha _ List.mem_cons_self rfl
    rw [withoutRepeats_append_singleton, ih h.1, if_neg fresh]

@[simp]
theorem freshItems_withoutRepeats (seen : List κ) (items : List α) :
    freshItems key seen (withoutRepeats key items) = freshItems key seen items :=
  freshItems_freshItems key (fun _ h => absurd h List.not_mem_nil) items

@[simp]
theorem withoutRepeats_withoutRepeats (items : List α) :
    withoutRepeats key (withoutRepeats key items) = withoutRepeats key items :=
  freshItems_withoutRepeats key [] items

@[simp]
theorem withoutRepeats_append_withoutRepeats (s t : List α) :
    withoutRepeats key (withoutRepeats key s ++ withoutRepeats key t) =
      withoutRepeats key (s ++ t) := by
  have seen : ∀ k, k ∈ (withoutRepeats key s).map key ↔ k ∈ s.map key :=
    mem_map_withoutRepeats key s
  simp [withoutRepeats_append, freshItems_congr key seen]

/-- Dropping repeats inside the parts first makes no difference for the whole. -/
theorem withoutRepeats_flatMap {ι : Type} (parts : List ι) (items : ι → List α) :
    withoutRepeats key (parts.flatMap fun i => withoutRepeats key (items i)) =
      withoutRepeats key (parts.flatMap items) := by
  have step (seen : List κ) :
      freshItems key seen (parts.flatMap fun i => withoutRepeats key (items i)) =
        freshItems key seen (parts.flatMap items) := by
    induction parts generalizing seen with
    | nil => rfl
    | cons i parts ih =>
      rw [List.flatMap_cons, List.flatMap_cons, freshItems_append, freshItems_append,
        freshItems_withoutRepeats, ih]
      congr 1
      exact freshItems_congr key (fun k => by grind) _
  exact step []

/-! ## Which items stay -/

/-- The items whose key neither an item of `seen` has nor an item before them. -/
def newOnes (seen items : List α) : List α :=
  (items.zipIdx.filter fun p => key p.1 ∉ (seen ++ items.take p.2).map key).map Prod.fst

/-- The items before which there is none of their key. -/
def firstOnes (items : List α) : List α :=
  (items.zipIdx.filter fun p => key p.1 ∉ (items.take p.2).map key).map Prod.fst

theorem newOnes_append_singleton (seen items : List α) (a : α) :
    newOnes key seen (items ++ [a]) =
      newOnes key seen items ++ if key a ∈ (seen ++ items).map key then [] else [a] := by
  unfold newOnes
  have before : ∀ p ∈ items.zipIdx, (items ++ [a]).take p.2 = items.take p.2 := by
    intro p hp
    have inside : p.2 < items.length := by
      have := List.snd_lt_of_mem_zipIdx hp
      omega
    exact List.take_append_of_le_length (by omega)
  have front : items.zipIdx.filter
        (fun p => key p.1 ∉ (seen ++ (items ++ [a]).take p.2).map key) =
      items.zipIdx.filter fun p => key p.1 ∉ (seen ++ items.take p.2).map key := by
    refine List.filter_congr fun p hp => ?_
    rw [before p hp]
  have all : (items ++ [a]).take (0 + items.length) = items := by simp
  rw [List.zipIdx_append, List.filter_append, List.map_append, front, List.zipIdx_singleton]
  congr 1
  by_cases known : key a ∈ (seen ++ items).map key
  · simp only [List.filter_cons, List.filter_nil, all, known, not_true, decide_false]
    rfl
  · simp only [List.filter_cons, List.filter_nil, all, known, not_false_iff, decide_true, if_true]
    rfl

theorem freshItems_eq_newOnes (seen items : List α) :
    freshItems key (seen.map key) items = newOnes key seen items := by
  induction items using List.reverseRecOn with
  | nil => rfl
  | append_singleton items a ih =>
    have same : key a ∈ items.map key ++ seen.map key ↔ key a ∈ (seen ++ items).map key := by
      rw [List.map_append, List.mem_append, List.mem_append, or_comm]
    rw [freshItems_append, newOnes_append_singleton, ih]
    simp only [freshItems, same]

theorem withoutRepeats_eq_firstOnes (items : List α) :
    withoutRepeats key items = firstOnes key items :=
  freshItems_eq_newOnes key [] items

/-- An item is kept exactly if it is the first one of its key. -/
theorem mem_withoutRepeats_iff {items : List α} {a : α} :
    a ∈ withoutRepeats key items ↔ items.find? (fun b => key b = key a) = some a := by
  rw [← find?_withoutRepeats]
  constructor
  · intro h
    have found : ((withoutRepeats key items).find? fun b => key b = key a).isSome :=
      List.find?_isSome.2 ⟨a, h, by simp⟩
    obtain ⟨b, hb⟩ := Option.isSome_iff_exists.1 found
    have same : key b = key a := by simpa using List.find?_some hb
    rw [hb, eq_of_mem_withoutRepeats key (List.mem_of_find?_eq_some hb) h same]
  · exact List.mem_of_find?_eq_some

/-- Lists that agree on the first item of every key keep the same items. -/
theorem withoutRepeats_perm {items items' : List α}
    (h : ∀ k, items.find? (fun a => key a = k) = items'.find? fun a => key a = k) :
    (withoutRepeats key items).Perm (withoutRepeats key items') := by
  have nodup (items : List α) : (withoutRepeats key items).Nodup :=
    (nodup_map_withoutRepeats key items).of_map key
  refine (List.perm_ext_iff_of_nodup (nodup items) (nodup items')).2 fun a => ?_
  rw [mem_withoutRepeats_iff, mem_withoutRepeats_iff, h]

theorem withoutRepeats_map {β : Type} (f : β → α) (items : List β) :
    withoutRepeats key (items.map f) = (withoutRepeats (fun b => key (f b)) items).map f := by
  have step (seen : List κ) : freshItems key seen (items.map f) =
      (freshItems (fun b => key (f b)) seen items).map f := by
    induction items generalizing seen with
    | nil => rfl
    | cons b items ih =>
      rw [List.map_cons, freshItems, freshItems]
      split_ifs
      · exact ih seen
      · rw [List.map_cons, ih]
  exact step []

/-- Keys that tell the same items apart drop the same repeats. -/
theorem withoutRepeats_congr {κ' : Type} [DecidableEq κ'] {key : α → κ} {key' : α → κ'}
    {items : List α} (h : ∀ a ∈ items, ∀ b ∈ items, key a = key b ↔ key' a = key' b) :
    withoutRepeats key items = withoutRepeats key' items := by
  induction items using List.reverseRecOn with
  | nil => rfl
  | append_singleton items a ih =>
    have front : ∀ b ∈ items, b ∈ items ++ [a] := fun b hb => List.mem_append_left _ hb
    have last : a ∈ items ++ [a] := List.mem_append_right _ List.mem_cons_self
    have seen : key a ∈ items.map key ↔ key' a ∈ items.map key' := by
      grind
    rw [withoutRepeats_append_singleton, withoutRepeats_append_singleton,
      ih fun b hb c hc => h b (front b hb) c (front c hc)]
    simp only [seen]

/-- Leaving out all items of some keys commutes with leaving out the repeats. -/
theorem withoutRepeats_filter {p : α → Bool} {items : List α}
    (h : ∀ a ∈ items, ∀ b ∈ items, key a = key b → p a = p b) :
    withoutRepeats key (items.filter p) = (withoutRepeats key items).filter p := by
  induction items using List.reverseRecOn with
  | nil => rfl
  | append_singleton items a ih =>
    have front : ∀ b ∈ items, b ∈ items ++ [a] := fun b hb => List.mem_append_left _ hb
    have last : a ∈ items ++ [a] := List.mem_append_right _ List.mem_cons_self
    rw [withoutRepeats_append_singleton, List.filter_append, List.filter_append,
      ← ih fun b hb c hc => h b (front b hb) c (front c hc)]
    cases kept : p a with
    | false =>
      have none : (if key a ∈ items.map key then [] else [a]).filter p = [] := by
        split_ifs <;> simp [kept]
      rw [none, List.filter_cons_of_neg (by simp [kept])]
      simp
    | true =>
      have seen : key a ∈ (items.filter p).map key ↔ key a ∈ items.map key := by
        simp only [List.mem_map, List.mem_filter]
        refine exists_congr fun b => ⟨fun hb => ⟨hb.1.1, hb.2⟩, fun hb => ⟨⟨hb.1, ?_⟩, hb.2⟩⟩
        rw [h b (front b hb.1) a last hb.2, kept]
      have some : (if key a ∈ items.map key then [] else [a]).filter p =
          if key a ∈ items.map key then [] else [a] := by
        split_ifs <;> simp [kept]
      rw [some, List.filter_cons_of_pos kept, List.filter_nil, withoutRepeats_append_singleton]
      simp only [seen]

end CodeGraph
