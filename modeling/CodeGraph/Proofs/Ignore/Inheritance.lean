import CodeGraph.Ignore.Rules
import Mathlib.Data.List.Basic

/-!
# Patterns that go on below a folder

A steady pattern that hits the path of a folder, bare or with a slash at its end, hits every path
below that folder, as long as the path of the folder has no line feed (`hits_below`).  A pattern is
steady unless its last name is a lone asterisk or can hold a slash (`isSteady`): the pattern `lib/*`
hits the folder `lib/net` but nothing inside it.
-/

namespace CodeGraph.Ignore

variable {rest text longer : List Char} {next other : List Char → Bool} {test : Char → Bool}
  {c : Char}

/-! ## Paths below a path -/

/-- The longer text goes on below the text of a folder, which may have a slash at its end. -/
inductive Below (rest : List Char) : List Char → List Char → Prop
  | bare (text : List Char) (free : '\n' ∉ text) : Below rest text (text ++ '/' :: rest)
  | slash (text : List Char) : Below rest (text ++ ['/']) (text ++ '/' :: rest)

/-- As before, or all of the folder and the slash behind it have been read. -/
def Behind (rest text longer : List Char) : Prop :=
  Below rest text longer ∨ text = [] ∧ longer = rest

theorem Below.cons (h : Below rest (c :: text) longer) :
    ∃ longer', longer = c :: longer' ∧
      (Below rest text longer' ∨ c = '/' ∧ text = [] ∧ longer' = rest) := by
  generalize eq : c :: text = whole at h
  cases h with
  | bare _ free =>
    subst eq
    exact ⟨_, rfl, Or.inl (.bare text fun feed => free (List.mem_cons_of_mem _ feed))⟩
  | slash front =>
    cases front with
    | nil =>
      cases eq
      exact ⟨rest, rfl, Or.inr ⟨rfl, rfl, rfl⟩⟩
    | cons d front =>
      cases eq
      exact ⟨_, rfl, Or.inl (.slash front)⟩

theorem Behind.cons (h : Behind rest (c :: text) longer) :
    ∃ longer', longer = c :: longer' ∧ Behind rest text longer' := by
  rcases h with below | ⟨eq, -⟩
  · obtain ⟨longer', eq, below | ⟨-, gone⟩⟩ := below.cons
    · exact ⟨longer', eq, Or.inl below⟩
    · exact ⟨longer', eq, Or.inr gone⟩
  · cases eq

/-! ## Tests that last -/

/-- What satisfies the test still does so below it. -/
def GoesOn (rest : List Char) (next : List Char → Bool) : Prop :=
  ∀ ⦃text longer⦄, Below rest text longer → next text = true → next longer = true

/-- What satisfies the test still does so below it, and so does what is left behind the folder if
nothing does. -/
def Lasts (rest : List Char) (next : List Char → Bool) : Prop :=
  ∀ ⦃text longer⦄, Behind rest text longer → next text = true → next longer = true

@[simp]
theorem lasts_true (rest : List Char) : Lasts rest fun _ => true := fun _ _ _ _ => rfl

theorem Lasts.or (h : Lasts rest next) (h' : Lasts rest other) :
    Lasts rest fun text => next text || other text := by
  intro text longer behind hits
  rw [Bool.or_eq_true] at hits ⊢
  exact hits.imp (h behind) (h' behind)

theorem Lasts.afterOne (h : Lasts rest next) (test : Char → Bool) :
    Lasts rest (afterOne test next) := by
  rintro (_ | ⟨c, text⟩) longer behind hits
  · cases hits
  · obtain ⟨further, rfl, later⟩ := behind.cons
    rw [Ignore.afterOne, Bool.and_eq_true] at hits ⊢
    exact ⟨hits.1, h later hits.2⟩

theorem Lasts.afterSlash (h : Lasts rest next) (needed : Bool) :
    Lasts rest (afterSlash needed next) := by
  cases needed
  · exact h
  · exact h.afterOne _

/-- Some rest of the text satisfies `next` behind characters that pass the test. -/
def behindRun (test : Char → Bool) (next : List Char → Bool) : List Char → Bool
  | [] => next []
  | c :: rest => next (c :: rest) || (test c && behindRun test next rest)

theorem afterRun_eq (next : List Char → Bool) : afterRun next = behindRun (· ≠ '/') next := by
  funext text
  induction text with
  | nil => rfl
  | cons c rest ih => rw [afterRun, behindRun, ih]

theorem afterAny_eq (next : List Char → Bool) : afterAny next = behindRun (· ≠ '\n') next := by
  funext text
  induction text with
  | nil => rfl
  | cons c rest ih => rw [afterAny, behindRun, ih]

theorem behindRun_of_next (h : next text = true) : behindRun test next text = true := by
  cases text with
  | nil => exact h
  | cons c text => rw [behindRun, h, Bool.true_or]

theorem Lasts.behindRun (h : Lasts rest next) (test : Char → Bool) :
    Lasts rest (behindRun test next) := by
  intro text
  induction text with
  | nil => exact fun longer behind hits => behindRun_of_next (h behind hits)
  | cons c text ih =>
    intro longer behind hits
    rw [Ignore.behindRun, Bool.or_eq_true, Bool.and_eq_true] at hits
    rcases hits with hits | ⟨passes, hits⟩
    · exact behindRun_of_next (h behind hits)
    · obtain ⟨further, rfl, later⟩ := behind.cons
      rw [Ignore.behindRun, passes, ih later hits, Bool.true_and, Bool.or_true]

theorem Lasts.afterRun (h : Lasts rest next) : Lasts rest (afterRun next) :=
  afterRun_eq next ▸ h.behindRun _

theorem Lasts.afterAny (h : Lasts rest next) : Lasts rest (afterAny next) :=
  afterAny_eq next ▸ h.behindRun _

theorem Lasts.behindSlash (h : Lasts rest next) : Lasts rest (behindSlash next) := by
  intro text
  induction text with
  | nil =>
    intro longer behind hits
    cases hits
  | cons c text ih =>
    intro longer behind hits
    obtain ⟨further, rfl, later⟩ := behind.cons
    rw [Ignore.behindSlash, Bool.or_eq_true, Bool.and_eq_true, Bool.and_eq_true] at hits ⊢
    exact hits.imp (And.imp_right (h later)) (And.imp_right (ih later))

theorem Lasts.afterFolders (h : Lasts rest next) : Lasts rest (afterFolders next) :=
  h.or (h.behindSlash.afterOne _)

theorem Lasts.insideFolders (h : Lasts rest next) : Lasts rest (insideFolders next) :=
  h.or ((h.afterAny.afterOne _).afterOne _)

theorem Lasts.matchesThen (h : Lasts rest next) (pieces : List GlobPiece) :
    Lasts rest (matchesThen next pieces) := by
  induction pieces with
  | nil => exact h
  | cons piece pieces ih =>
    cases piece with
    | one c => exact ih.afterOne _
    | any => exact ih.afterOne _
    | run => exact ih.afterRun
    | oneOf negated ranges => exact ih.afterOne _

/-! ## The last glob -/

/-- The piece matches no slash. -/
def GlobPiece.avoidsSlash : GlobPiece → Bool
  | one c => c ≠ '/'
  | any => true
  | run => true
  | oneOf negated ranges => !inSet negated ranges '/'

theorem GoesOn.afterOne (h : GoesOn rest next) (avoids : test '/' = false) :
    GoesOn rest (afterOne test next) := by
  rintro (_ | ⟨c, text⟩) longer below hits
  · cases hits
  · rw [Ignore.afterOne, Bool.and_eq_true] at hits
    obtain ⟨further, rfl, later | ⟨rfl, -, -⟩⟩ := below.cons
    · rw [Ignore.afterOne, Bool.and_eq_true]
      exact ⟨hits.1, h later hits.2⟩
    · rw [avoids] at hits
      cases hits.1

theorem GoesOn.afterRun (h : GoesOn rest next) : GoesOn rest (afterRun next) := by
  rw [afterRun_eq]
  intro text
  induction text with
  | nil => exact fun longer below hits => behindRun_of_next (h below hits)
  | cons c text ih =>
    intro longer below hits
    rw [behindRun, Bool.or_eq_true, Bool.and_eq_true] at hits
    rcases hits with hits | ⟨other, hits⟩
    · exact behindRun_of_next (h below hits)
    · -- a run does not read the slash behind the folder
      obtain ⟨further, rfl, later | ⟨rfl, -, -⟩⟩ := below.cons
      · rw [behindRun, other, ih later hits, Bool.true_and, Bool.or_true]
      · cases other

theorem GoesOn.matchesThen (h : GoesOn rest next) {pieces : List GlobPiece}
    (avoid : pieces.all GlobPiece.avoidsSlash = true) : GoesOn rest (matchesThen next pieces) := by
  induction pieces with
  | nil => exact h
  | cons piece pieces ih =>
    rw [List.all_cons, Bool.and_eq_true] at avoid
    have later := ih avoid.2
    cases piece with
    | one c =>
      have other : c ≠ '/' := of_decide_eq_true avoid.1
      exact later.afterOne (decide_eq_false other.symm)
    | any => exact later.afterOne rfl
    | run => exact later.afterRun
    | oneOf negated ranges => exact later.afterOne (by simpa [GlobPiece.avoidsSlash] using avoid.1)

/-- Where a name may end. -/
def endsName (text : List Char) : Bool := atEnd text || afterOne (· = '/') (fun _ => true) text

@[simp]
theorem endsName_slash (text : List Char) : endsName ('/' :: text) = true := by
  rw [endsName, afterOne, decide_eq_true rfl, Bool.and_self, Bool.or_true]

theorem endsName_cons (h : endsName (c :: text) = true) : c = '/' ∨ c = '\n' ∧ text = [] := by
  simpa [endsName, atEnd, afterOne, or_comm] using h

theorem goesOn_endsName (rest : List Char) : GoesOn rest endsName := by
  intro text longer below hits
  cases below with
  | bare _ free =>
    cases text with
    | nil => exact endsName_slash rest
    | cons c text =>
      obtain rfl | ⟨rfl, -⟩ := endsName_cons hits
      · exact endsName_slash _
      · exact absurd List.mem_cons_self free
  | slash front =>
    cases front with
    | nil => exact endsName_slash rest
    | cons c front =>
      obtain rfl | ⟨-, eq⟩ := endsName_cons hits
      · exact endsName_slash _
      · simp at eq

/-- A glob that is no run of anything matches something. -/
theorem all_run_of_matchesThen {pieces : List GlobPiece} (h : matchesThen next pieces [] = true) :
    ∀ piece ∈ pieces, piece = .run := by
  induction pieces with
  | nil => simp
  | cons piece pieces ih =>
    cases piece with
    | run => exact List.forall_mem_cons.2 ⟨rfl, ih h⟩
    | one c => cases h
    | any => cases h
    | oneOf negated ranges => cases h

theorem lasts_lastGlob {pieces : List GlobPiece} (avoid : pieces.all GlobPiece.avoidsSlash = true)
    (some : ∃ piece ∈ pieces, piece ≠ .run) : Lasts rest (matchesThen endsName pieces) := by
  rintro text longer (below | ⟨rfl, -⟩) hits
  · exact (goesOn_endsName rest).matchesThen avoid below hits
  · obtain ⟨piece, h, other⟩ := some
    exact absurd (all_run_of_matchesThen hits piece h) other

/-! ## Steady patterns -/

/-- The last segment is neither a lone asterisk nor a glob that can hold a slash or match
nothing. -/
def endsSteady : List Segment → Bool
  | [] => true
  | [.name] => false
  | [.glob pieces] => pieces.all GlobPiece.avoidsSlash && pieces.any (· ≠ .run)
  | _ :: rest => endsSteady rest

/-- The pattern goes on below the folders that it hits. -/
def PathPattern.isSteady : PathPattern → Bool
  | .everything => true
  | .nested => true
  | .path segments => endsSteady segments

theorem lasts_startsWith (rest : List Char) (needed : Bool) {segments : List Segment}
    (steady : endsSteady segments = true) : Lasts rest (startsWith needed segments) := by
  fun_induction startsWith needed segments with
  | case1 => exact lasts_true rest
  | case2 => exact (lasts_true rest).afterOne _
  | case3 => cases steady
  | case4 needed pieces =>
    simp only [endsSteady, Bool.and_eq_true, List.any_eq_true, decide_eq_true_eq] at steady
    exact (lasts_lastGlob steady.1 steady.2).afterSlash _
  | case5 _ _ more ih =>
    rw [endsSteady.eq_4 _ _ (by simp) (by simp)] at steady
    exact (ih steady).insideFolders
  | case6 _ later more ih =>
    rw [endsSteady.eq_4 _ _ (by simpa using more) (by simp)] at steady
    exact ((ih steady).afterRun.afterOne _).afterSlash _
  | case7 _ pieces later more ih =>
    rw [endsSteady.eq_4 _ _ (by simp) (by simpa using more)] at steady
    exact ((ih steady).matchesThen pieces).afterSlash _

theorem lasts_hits (rest : List Char) {segments : List Segment}
    (steady : endsSteady segments = true) : Lasts rest (PathPattern.path segments).hits := by
  rcases segments with _ | ⟨_ | _ | pieces, segments⟩
  · exact lasts_startsWith rest false steady
  · rw [endsSteady.eq_4 _ _ (by simp) (by simp)] at steady
    exact (lasts_startsWith rest false steady).afterFolders
  · exact lasts_startsWith rest false steady
  · exact lasts_startsWith rest false steady

/-- A steady pattern hits everything below a folder it hits. -/
theorem hits_below {pattern : PathPattern} (steady : pattern.isSteady = true) {folder : List Char}
    (free : '\n' ∉ folder)
    (hits : pattern.hits folder = true ∨ pattern.hits (folder ++ ['/']) = true) (rest : List Char) :
    pattern.hits (folder ++ '/' :: rest) = true := by
  cases pattern with
  | everything => simp [PathPattern.hits]
  | nested => simp [PathPattern.hits]
  | path segments =>
    have lasts := lasts_hits rest steady
    exact hits.elim (lasts (Or.inl (.bare folder free))) (lasts (Or.inl (.slash folder)))

/-- The pattern `lib/*` is not steady. -/
example :
    let star := PathPattern.path [.glob [.one 'l', .one 'i', .one 'b'], .name]
    star.hits "lib/net".toList = true ∧ star.hits "lib/net/a".toList = false := by
  decide +kernel

end CodeGraph.Ignore
