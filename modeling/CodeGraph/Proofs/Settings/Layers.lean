import CodeGraph.Proofs.Json.Objects
import CodeGraph.Proofs.Settings.Load

/-!
# Layers of settings along paths

An object that is laid over another one keeps what it says, at every path of keys (`Keeps`); where
it is silent, that is where the path comes to a missing key, the object below is seen.  Laying the
same object over the result once more changes nothing.  So settings that are loaded say at each path
what the project's file says, else what the user's file says, else what is standard (`load_layers`).
-/

namespace CodeGraph.Settings

open CodeGraph.Files CodeGraph.Json CodeGraph.Text

variable {base top inner merged : Members} {key : String} {path : List String}

/-! ## Keys -/

/-- A key holds what is laid over it, if something is. -/
theorem find?_overlay (distinct : (top.map Prod.fst).Nodup) (base : Members) (key : String) :
    find? key (overlay base top) =
      match find? key top with
      | some value => some (cover (find? key base) value)
      | none => find? key base := by
  induction top generalizing base with
  | nil => rfl
  | cons m rest ih =>
    rw [List.map_cons, List.nodup_cons] at distinct
    rw [overlay, ih distinct.2]
    by_cases same : m.1 = key
    · subst same
      rw [find?_eq_none_iff.2 distinct.1, find?_insert_self, find?, if_pos rfl]
    · rw [find?_insert_of_ne (Ne.symm same), find?, if_neg same]

/-- The keys of the object on top are among those of the result. -/
theorem keys_subset_overlay (distinct : (top.map Prod.fst).Nodup) (base : Members) :
    top.map Prod.fst ⊆ (overlay base top).map Prod.fst := by
  intro key h
  by_contra missing
  rw [← find?_eq_none_iff, find?_overlay distinct] at missing
  split at missing
  · cases missing
  · next silent => exact find?_eq_none_iff.1 silent h

/-- An object changes nothing where each of its members has been laid over already. -/
theorem overlay_eq_self (laid : ∀ m ∈ top, ∃ value, find? m.1 base = some value ∧
    cover (some value) m.2 = value) : overlay base top = base := by
  induction top with
  | nil => rfl
  | cons m rest ih =>
    obtain ⟨⟨value, found, covered⟩, later⟩ := List.forall_mem_cons.1 laid
    rw [overlay, found, covered, insert_eq_self found, ih later]

/-! ## Objects over objects -/

/-- The object on which another one is laid: an empty one, if there is none. -/
def ground : Option Value → Members
  | some (.object members) => members
  | _ => []

theorem overlay_of_new (distinct : (top.map Prod.fst).Nodup)
    (new : ∀ key ∈ top.map Prod.fst, key ∉ base.map Prod.fst) : overlay base top = base ++ top := by
  induction top generalizing base with
  | nil => simp [overlay]
  | cons m rest ih =>
    rw [List.map_cons, List.nodup_cons] at distinct
    obtain ⟨first, later⟩ := List.forall_mem_cons.1 new
    have bare : cover none m.2 = m.2 := by
      cases m.2 <;> rfl
    rw [overlay, find?_eq_none_iff.2 first, bare, insert_of_notMem first, ih distinct.2,
      List.append_assoc, List.singleton_append]
    intro key h mem
    rw [List.map_append, List.mem_append, List.map_singleton, List.mem_singleton] at mem
    rcases mem with old | rfl
    · exact later key h old
    · exact distinct.1 h

/-- An object is laid over what was there, or over nothing. -/
theorem cover_object (distinct : (inner.map Prod.fst).Nodup) (below : Option Value) :
    cover below (.object inner) = .object (overlay (ground below) inner) := by
  have alone : overlay [] inner = inner := overlay_of_new distinct fun _ _ => List.not_mem_nil
  cases below with
  | none => exact congrArg Value.object alone.symm
  | some value =>
    cases value with
    | object base => rfl
    | _ => exact congrArg Value.object alone.symm

/-- An object that is laid over the result once more changes nothing. -/
theorem overlay_overlay (keyed : KeyedOnce top) (base : Members) :
    overlay (overlay base top) top = overlay base top := by
  induction keyed generalizing base with
  | @intro top distinct inside ih =>
    refine overlay_eq_self fun m mem => ⟨cover (find? m.1 base) m.2, ?_, ?_⟩
    · rw [find?_overlay distinct, find?_of_mem distinct mem]
    · obtain ⟨key, value⟩ := m
      cases value with
      | object inner =>
        have once := (inside key inner mem).distinct
        rw [cover_object once, cover_object once, ground, ih key inner mem]
      | _ => rfl

/-! ## Paths -/

/-- Following the path in an object comes to a key that is missing, and only to objects before. -/
def isSilent (members : Members) : List String → Bool
  | [] => false
  | key :: path =>
    match find? key members with
    | none => true
    | some (.object inner) => isSilent inner path
    | some _ => false

/-- What one object says at a path the other one says too: the same value, or an object that has at
least the keys.  Where it has a value on the way that is no object, the other one says nothing. -/
structure Keeps (top merged : Members) (path : List String) : Prop where
  value : ∀ value, (∀ inner, value ≠ .object inner) → atPath? (.object top) path = some value →
    atPath? (.object merged) path = some value
  object : ∀ inner, atPath? (.object top) path = some (.object inner) →
    ∃ members, atPath? (.object merged) path = some (.object members) ∧
      inner.map Prod.fst ⊆ members.map Prod.fst
  blocked : atPath? (.object top) path = none → isSilent top path = false →
    atPath? (.object merged) path = none

@[simp]
theorem atPath?_cons (members : Members) (key : String) (path : List String) :
    atPath? (.object members) (key :: path) =
      (find? key members).bind fun value => atPath? value path := rfl

theorem atPath?_ground (some : path ≠ []) (below : Option Value) :
    atPath? (.object (ground below)) path = below.bind fun value => atPath? value path := by
  obtain ⟨key, path, rfl⟩ := List.exists_cons_of_ne_nil some
  cases below with
  | none => rfl
  | some value => cases value <;> rfl

theorem atPath?_overlay_cons (distinct : (top.map Prod.fst).Nodup) {under : Value}
    (found : find? key top = some under) (base : Members) (path : List String) :
    atPath? (.object (overlay base top)) (key :: path) =
      atPath? (cover (find? key base) under) path := by
  rw [atPath?_cons, find?_overlay distinct, found]
  rfl

/-- An object is kept where it is laid over another one. -/
theorem keeps_overlay (keyed : KeyedOnce top) (base : Members) (path : List String) :
    Keeps top (overlay base top) path := by
  induction path generalizing base top with
  | nil =>
    refine ⟨fun value differs said => ?_, fun inner said => ?_, nofun⟩
    · cases said
      exact absurd rfl (differs top)
    · cases said
      exact ⟨_, rfl, keys_subset_overlay keyed.distinct base⟩
  | cons key path ih =>
    cases found : find? key top with
    | none =>
      have nothing : atPath? (.object top) (key :: path) = none := by
        simp [found]
      refine ⟨fun value _ said => ?_, fun inner said => ?_, fun _ loud => ?_⟩
      · simp [nothing] at said
      · simp [nothing] at said
      · simp [isSilent, found] at loud
    | some under =>
      have said : atPath? (.object top) (key :: path) = atPath? under path := by
        simp [found]
      have kept := atPath?_overlay_cons keyed.distinct found base path
      cases under with
      | object inner =>
        have once := keyed.under (mem_of_find? found) inner rfl
        rw [cover_object once.distinct] at kept
        obtain ⟨value, object, blocked⟩ := ih once (ground (find? key base))
        rw [← said, ← kept] at value object blocked
        refine ⟨value, object, fun nothing loud => blocked nothing ?_⟩
        rwa [isSilent, found] at loud
      | _ =>
        have same := kept.trans said.symm
        exact ⟨fun _ _ => same.trans, fun inner h => ⟨inner, same.trans h, List.Subset.refl _⟩,
          fun h _ => same.trans h⟩

/-- Where an object is silent, what it is laid over is seen. -/
theorem atPath?_overlay_of_silent (keyed : KeyedOnce top) (silent : isSilent top path = true)
    (base : Members) : atPath? (.object (overlay base top)) path = atPath? (.object base) path := by
  induction path generalizing base top with
  | nil => cases silent
  | cons key path ih =>
    rw [isSilent] at silent
    cases found : find? key top with
    | none => simp [find?_overlay keyed.distinct, found]
    | some under =>
      rw [found] at silent
      cases under with
      | object inner =>
        have once := keyed.under (mem_of_find? found) inner rfl
        have further : path ≠ [] := by
          rintro rfl
          cases silent
        simp [atPath?_overlay_cons keyed.distinct found, cover_object once.distinct,
          ih once silent, atPath?_ground further]
      | _ => cases silent

/-! ## Layers that are loaded -/

theorem withLayer_eq (settings : Members) (layer : Option Members) :
    withLayer settings layer = overlay settings (layer.getD []) := by
  cases layer <;> rfl

theorem keyedOnce_of_adds {file : Option (List UInt8)} {layer : Option Members}
    (adds : Adds file layer) : KeyedOnce (layer.getD []) := by
  cases adds with
  | object json => exact keyedOnce_of_parse json
  | _ => exact .intro List.nodup_nil nofun

/-- At each path settings say what the project's file says, else what the user's file says, else
what is standard. -/
theorem load_layers :
    (∀ base top, KeyedOnce top →
      (∀ path, Keeps top (overlay base top) path ∧
        (isSilent top path = true →
          atPath? (.object (overlay base top)) path = atPath? (.object base) path)) ∧
      overlay (overlay base top) top = overlay base top) ∧
    ∀ user project u p, Adds user u → Adds project p →
      ∃ settings, load (.ok user) (.ok project) = .ok settings ∧
        ∀ path, Keeps (p.getD []) settings path ∧
          (isSilent (p.getD []) path = true → Keeps (u.getD []) settings path ∧
            (isSilent (u.getD []) path = true →
              atPath? (.object settings) path = atPath? (.object standard) path)) := by
  refine ⟨fun base top keyed => ⟨fun path => ⟨keeps_overlay keyed base path, fun silent =>
    atPath?_overlay_of_silent keyed silent base⟩, overlay_overlay keyed base⟩, ?_⟩
  intro user project u p hu hp
  refine ⟨_, load_eq_ok_iff.2 ⟨u, p, hu, hp, rfl⟩, fun path => ?_⟩
  have keyedUser := keyedOnce_of_adds hu
  have keyedProject := keyedOnce_of_adds hp
  rw [withLayer_eq, withLayer_eq]
  refine ⟨keeps_overlay keyedProject _ path, fun silent => ?_⟩
  have seen := atPath?_overlay_of_silent keyedProject silent (overlay standard (u.getD []))
  obtain ⟨value, object, blocked⟩ := keeps_overlay keyedUser standard path
  rw [← seen] at value object blocked
  exact ⟨⟨value, object, blocked⟩, fun quiet =>
    seen.trans (atPath?_overlay_of_silent keyedUser quiet standard)⟩

/-- The whole number that stands at a path. -/
def numberAt? (members : Members) (path : List String) : Option Int :=
  match atPath? (.object members) path with
  | some (.integer n) => some n
  | _ => none

theorem atPath?_of_numberAt? {n : Int} (h : numberAt? merged path = some n) :
    atPath? (.object merged) path = some (.integer n) := by
  unfold numberAt? at h
  split at h
  · next found => rw [found, Option.some.inj h]
  · cases h

/-- What can be checked of the object that a file adds. -/
theorem exists_adds (file : Option (List UInt8)) (check : Members → Bool)
    (h : (match layer? (.ok file) with
      | .ok (some members) => check members
      | _ => false) = true) : ∃ members, Adds file (some members) ∧ check members = true := by
  split at h
  · next members found => exact ⟨members, layer?_eq_ok_iff.1 found, h⟩
  · cases h

/-- The workers of the analysis are those of the project's file, and what that file is silent about
is the user's. -/
theorem load_layers_workers :
    let user := holding
      "\x7b\"analysis\": \x7b\"max_workers\": 4, \"depth\": \x7b\"most\": 3\x7d\x7d\x7d"
    let project := holding "\x7b\"analysis\": \x7b\"max_workers\": 8\x7d\x7d"
    ∃ u p settings, Adds user (some u) ∧ Adds project (some p) ∧ KeyedOnce p ∧
      overlay (overlay u p) p = overlay u p ∧ load (.ok user) (.ok project) = .ok settings ∧
      atPath? (.object settings) ["analysis", "max_workers"] = some (.integer 8) ∧
      atPath? (.object settings) ["analysis", "depth", "most"] = some (.integer 3) := by
  intro user project
  obtain ⟨u, hu, most⟩ := exists_adds user
    (fun m => numberAt? m ["analysis", "depth", "most"] = some 3) (by decide +kernel)
  obtain ⟨p, hp, workers⟩ := exists_adds project
    (fun m => numberAt? m ["analysis", "max_workers"] = some 8 ∧
      isSilent m ["analysis", "depth", "most"] = true) (by decide +kernel)
  obtain ⟨eight, silent⟩ := of_decide_eq_true workers
  have keyed : KeyedOnce p := keyedOnce_of_adds hp
  obtain ⟨objects, files⟩ := load_layers
  obtain ⟨settings, loaded, layered⟩ := files user project _ _ hu hp
  refine ⟨u, p, settings, hu, hp, keyed, (objects u p keyed).2, loaded, ?_, ?_⟩
  · exact (layered _).1.value _ nofun (atPath?_of_numberAt? eight)
  · exact ((layered _).2 silent).1.value _ nofun (atPath?_of_numberAt? (of_decide_eq_true most))

end CodeGraph.Settings
