import CodeGraph.Survey.Run
import Mathlib.Data.List.Perm.Basic

/-!
# Schedules

A schedule of some files lists every one of them once, in batches of one or more.  A collection
that is not cancelled ends with the outcomes in the order of the files, whatever the schedule
(`collect_eq_ok`).  Without a cancel signal it takes the files in the order in which they finish
(`Collection.run_none_eq_foldl`), and is seen to count them up (`collect_none_eq`).
-/

namespace CodeGraph

/-- Every one of `total` files is in one batch, and no batch is empty. -/
structure IsSchedule (total : Nat) (schedule : List (List Nat)) : Prop where
  nonempty : ∀ batch ∈ schedule, batch ≠ []
  covers : schedule.flatten.Perm (List.range total)

theorem isSchedule_inOrder (total : Nat) : IsSchedule total (Surveyor.inOrder total) := by
  constructor
  · intro batch hb
    obtain ⟨place, -, rfl⟩ := List.mem_map.1 hb
    exact List.cons_ne_nil _ _
  · rw [Surveyor.inOrder, ← List.flatMap_def, List.flatMap_singleton']

/-- The progress reports of the first `n` of `total` files. -/
def countUp (total n : Nat) : List (Nat × Nat) := (List.range n).map fun i => (i + 1, total)

theorem countUp_succ (total n : Nat) :
    countUp total (n + 1) = countUp total n ++ [(n + 1, total)] := by
  simp [countUp, List.range_succ]

namespace Collection

variable {carried : Nat → Option FileOutcome} {total : Nat}

/-- The files in `left` are waited for, and the slots of all others hold what they carry. -/
structure Awaits (carried : Nat → Option FileOutcome) (total : Nat) (left : List Nat)
    (c : Collection) : Prop where
  pending : c.pending.Perm left
  length : c.slots.length = total
  filled : ∀ i < total, i ∉ left → c.slots[i]? = some (carried i)

theorem awaits_start (trace : Trace) {left : List Nat} (h : left.Perm (List.range total)) :
    Awaits carried total left (start total trace) where
  pending := h.symm
  length := List.length_replicate
  filled _ hi hleft := absurd (h.mem_iff.2 (List.mem_range.2 hi)) hleft

theorem Awaits.take {left : List Nat} {place : Nat} {c : Collection}
    (h : Awaits carried total (place :: left) c) :
    Awaits carried total left (c.take carried total place) where
  pending := by
    have := h.pending.erase place
    rwa [List.erase_cons_head] at this
  length := by
    simp only [Collection.take, List.length_set, h.length]
  filled i hi hleft := by
    simp only [Collection.take]
    by_cases same : place = i
    · subst same
      rw [List.getElem?_set_self (by rw [h.length]; exact hi)]
    · rw [List.getElem?_set_ne same]
      refine h.filled i hi fun hmem => ?_
      rcases List.mem_cons.1 hmem with rfl | hmem
      · exact same rfl
      · exact hleft hmem

theorem Awaits.takeAll {left : List Nat} {batch : List Nat} {c : Collection}
    (h : Awaits carried total (batch ++ left) c) :
    Awaits carried total left (batch.foldl (Collection.take carried total) c) := by
  induction batch generalizing c with
  | nil => exact h
  | cons place batch ih => exact ih h.take

/-- What is awaited does not depend on what was seen from outside. -/
theorem Awaits.retrace {left : List Nat} {c : Collection} (h : Awaits carried total left c)
    (trace : Trace) : Awaits carried total left { c with trace } :=
  ⟨h.pending, h.length, h.filled⟩

theorem Awaits.isEmpty_pending {left batch : List Nat} {c : Collection}
    (h : Awaits carried total (batch ++ left) c) (nonempty : batch ≠ []) :
    c.pending.isEmpty = false := by
  rw [List.isEmpty_eq_false_iff]
  intro empty
  have all := h.pending
  rw [empty] at all
  exact nonempty (List.append_eq_nil_iff.1 all.nil_eq.symm).1

/-- A collection that is not cancelled waits for nothing at the end. -/
theorem awaits_run {signal : Option Signal} {schedule : List (List Nat)} {c : Collection}
    (nonempty : ∀ batch ∈ schedule, batch ≠ []) (h : Awaits carried total schedule.flatten c)
    (ok : (run carried total signal schedule c).1 = .ok ()) :
    Awaits carried total [] (run carried total signal schedule c).2 := by
  induction schedule generalizing c with
  | nil => exact h
  | cons batch schedule ih =>
    have rest : ∀ batch ∈ schedule, batch ≠ [] := fun b hb => nonempty b (List.mem_cons_of_mem _ hb)
    rw [List.flatten_cons] at h
    have waiting := h.isEmpty_pending (nonempty batch List.mem_cons_self)
    rw [run, waiting] at ok ⊢
    simp only [Bool.false_eq_true, if_false] at ok ⊢
    split_ifs at ok ⊢ with done cancelled
    · exact ih rest h.takeAll ok
    · exact ih rest (h.takeAll.retrace _) ok

@[simp]
theorem run_none {schedule : List (List Nat)} {c : Collection} :
    (run carried total none schedule c).1 = .ok () := by
  induction schedule generalizing c with
  | nil => rfl
  | cons batch schedule ih =>
    rw [run]
    split_ifs with done
    · rfl
    · simp only [ask, Bool.false_eq_true, if_false]
      split_ifs
      · exact ih
      · exact ih

theorem run_none_eq_foldl {schedule : List (List Nat)} {c : Collection}
    (nonempty : ∀ batch ∈ schedule, batch ≠ [])
    (h : Awaits carried total schedule.flatten c) :
    run carried total none schedule c =
      (.ok (), schedule.flatten.foldl (take carried total) c) := by
  induction schedule generalizing c with
  | nil => rfl
  | cons batch schedule ih =>
    rw [List.flatten_cons] at h
    have waiting := h.isEmpty_pending (nonempty batch List.mem_cons_self)
    have later := ih (fun b hb => nonempty b (List.mem_cons_of_mem _ hb)) h.takeAll
    simp only [run, waiting, ask, Bool.false_eq_true, if_false, ite_self, List.flatten_cons,
      List.foldl_append]
    exact later

/-- Every file that is taken is reported, whichever it is. -/
theorem trace_takeAll {c : Collection} {began : Trace} (batch : List Nat)
    (h : c.trace = ⟨began.progress ++ countUp total c.completed, began.asked⟩) :
    (batch.foldl (take carried total) c).trace =
      ⟨began.progress ++ countUp total (c.completed + batch.length), began.asked⟩ := by
  induction batch generalizing c with
  | nil => exact h
  | cons place batch ih =>
    have taken : (c.take carried total place).trace =
        ⟨began.progress ++ countUp total (c.take carried total place).completed, began.asked⟩ := by
      simp only [take, h, countUp_succ, List.append_assoc]
    rw [List.foldl_cons, ih taken, List.length_cons]
    simp only [take, Nat.add_assoc, Nat.add_comm 1]

end Collection

/-- Outcomes that all have arrived are those of the files, in their order. -/
theorem filterMap_slots {outcomes : List FileOutcome} {c : Collection}
    (h : c.Awaits (outcomes[·]?) outcomes.length []) : c.slots.filterMap id = outcomes := by
  have slots : c.slots = outcomes.map some := by
    refine List.ext_getElem? fun i => ?_
    by_cases hi : i < outcomes.length
    · rw [h.filled i hi List.not_mem_nil, List.getElem?_map, List.getElem?_eq_getElem hi]
      rfl
    · have := h.length
      rw [List.getElem?_eq_none (by omega), List.getElem?_eq_none (by simpa using hi)]
  rw [slots, List.filterMap_map]
  exact List.filterMap_some

/-- The outcomes of an uncancelled collection are those of the files, in their order. -/
theorem collect_eq_ok {outcomes collected : List FileOutcome} {signal : Option Signal}
    {schedule : List (List Nat)} {trace : Trace} (hs : IsSchedule outcomes.length schedule)
    (ok : (collect outcomes signal schedule trace).1 = .ok collected) : collected = outcomes := by
  unfold collect at ok
  have start : (Collection.start outcomes.length trace).Awaits (outcomes[·]?) outcomes.length
      schedule.flatten := Collection.awaits_start trace hs.covers
  have awaits (ok : (Collection.run (outcomes[·]?) outcomes.length signal schedule
      (.start outcomes.length trace)).1 = .ok ()) := Collection.awaits_run hs.nonempty start ok
  rcases hrun : Collection.run (outcomes[·]?) outcomes.length signal schedule
    (.start outcomes.length trace) with ⟨r, c⟩
  rw [hrun] at awaits
  simp only [hrun] at ok
  cases r with
  | error stage => cases ok
  | ok _ =>
    cases ok
    exact filterMap_slots (awaits rfl)

theorem IsSchedule.length_flatten {total : Nat} {schedule : List (List Nat)}
    (h : IsSchedule total schedule) : schedule.flatten.length = total := by
  rw [h.covers.length_eq, List.length_range]

theorem collect_none_eq {outcomes : List FileOutcome} {schedule : List (List Nat)}
    (hs : IsSchedule outcomes.length schedule) (trace : Trace) :
    collect outcomes none schedule trace =
      (.ok outcomes,
        ⟨trace.progress ++ countUp outcomes.length outcomes.length, trace.asked⟩) := by
  have start : Collection.Awaits (outcomes[·]?) outcomes.length schedule.flatten
      (.start outcomes.length trace) := Collection.awaits_start trace hs.covers
  have began : (Collection.start outcomes.length trace).trace =
      ⟨trace.progress ++ countUp outcomes.length 0, trace.asked⟩ := by
    simp [Collection.start, countUp]
  have filled := (List.append_nil schedule.flatten ▸ start).takeAll
  have seen := @Collection.trace_takeAll (outcomes[·]?) _ _ _ schedule.flatten began
  rw [hs.length_flatten, Collection.start, Nat.zero_add, ← Collection.start] at seen
  simp only [collect, Collection.run_none_eq_foldl hs.nonempty start, filterMap_slots filled, seen]

end CodeGraph
