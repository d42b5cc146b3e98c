/-!
# Globs

A glob stands for the names it matches.  An asterisk stands for any run of characters and a question
mark for any one character, neither of them a slash; brackets hold a set of characters, and a
backslash makes the next character stand for itself.  `matchesThen` says whether a glob matches a
beginning of a text such that what is left satisfies a further test.
-/

namespace CodeGraph.Ignore

/-- A piece of a glob. -/
inductive GlobPiece where
  /-- The character itself. -/
  | one (c : Char)
  /-- Any character but a slash. -/
  | any
  /-- Any run of characters but slashes. -/
  | run
  /-- A character inside one of the ranges, or outside all of them. -/
  | oneOf (negated : Bool) (ranges : List (Char × Char))
  deriving DecidableEq

/-! ## Reading -/

/-- What stands before the next closing bracket, and what stands behind it. -/
def closing? : List Char → Option (List Char × List Char)
  | [] => none
  | c :: rest =>
    if c = ']' then some ([], rest)
    else (closing? rest).map fun (body, after) => (c :: body, after)

/-- What brackets hold, and what stands behind them; the first character belongs to the set even if
it is a closing bracket. -/
def setBody? : List Char → Option (List Char × List Char)
  | [] => none
  | c :: rest => (closing? rest).map fun (body, after) => (c :: body, after)

/-- A set turned into its opposite by a mark in front. -/
def setWithMark? : List Char → Option (Bool × List Char × List Char)
  | c :: rest =>
    if c = '!' ∨ c = '^' then (setBody? rest).map fun s => (true, s)
    else (setBody? (c :: rest)).map fun s => (false, s)
  | [] => none

/-- The ranges of a set; a hyphen at either end stands for itself. -/
def rangesOf : List Char → List (Char × Char)
  | [] => []
  | low :: '-' :: high :: rest => (low, high) :: rangesOf rest
  | c :: rest => (c, c) :: rangesOf rest

theorem length_closing? {text body after : List Char} (h : closing? text = some (body, after)) :
    after.length < text.length := by
  induction text generalizing body after with
  | nil => simp [closing?] at h
  | cons c rest ih =>
    rw [closing?] at h
    split at h
    · simp only [Option.some.injEq, Prod.mk.injEq] at h
      rw [← h.2]
      exact Nat.lt_succ_self _
    · obtain ⟨⟨b, a⟩, hr, e⟩ := Option.map_eq_some_iff.1 h
      simp only [Prod.mk.injEq] at e
      rw [← e.2]
      exact Nat.lt_trans (ih hr) (Nat.lt_succ_self _)

theorem length_setBody? {text body after : List Char} (h : setBody? text = some (body, after)) :
    after.length < text.length := by
  cases text with
  | nil => simp [setBody?] at h
  | cons c rest =>
    obtain ⟨⟨b, a⟩, hr, e⟩ := Option.map_eq_some_iff.1 h
    simp only [Prod.mk.injEq] at e
    rw [← e.2]
    exact Nat.lt_trans (length_closing? hr) (Nat.lt_succ_self _)

theorem length_setWithMark? {text body after : List Char} {negated : Bool}
    (h : setWithMark? text = some (negated, body, after)) : after.length < text.length := by
  cases text with
  | nil => simp [setWithMark?] at h
  | cons c rest =>
    rw [setWithMark?] at h
    split at h
    · obtain ⟨⟨b, a⟩, hr, e⟩ := Option.map_eq_some_iff.1 h
      simp only [Prod.mk.injEq] at e
      rw [← e.2.2]
      exact Nat.lt_trans (length_setBody? hr) (Nat.lt_succ_self _)
    · obtain ⟨⟨b, a⟩, hr, e⟩ := Option.map_eq_some_iff.1 h
      simp only [Prod.mk.injEq] at e
      rw [← e.2.2]
      exact length_setBody? hr

/-- The pieces of a glob; none if it ends in a backslash that escapes nothing. -/
def glob? (text : List Char) : Option (List GlobPiece) :=
  match text with
  | [] => some []
  | c :: rest =>
    if c = '\\' then
      match rest with
      | [] => none
      | d :: rest => (glob? rest).map (.one d :: ·)
    else if c = '*' then (glob? rest).map (.run :: ·)
    else if c = '?' then (glob? rest).map (.any :: ·)
    else if c = '[' then
      match h : setWithMark? rest with
      | some (negated, body, after) =>
        have : after.length < rest.length := length_setWithMark? h
        (glob? after).map (.oneOf negated (rangesOf body) :: ·)
      | none => (glob? rest).map (.one '[' :: ·)
    else (glob? rest).map (.one c :: ·)
termination_by text.length

/-- No range of a set runs backwards. -/
def GlobPiece.isOrdered : GlobPiece → Bool
  | .oneOf _ ranges => ranges.all fun (low, high) => decide (low ≤ high)
  | _ => true

/-! ## Matching -/

/-- Some rest of the text satisfies `next` after a run of characters without slash. -/
def afterRun (next : List Char → Bool) : List Char → Bool
  | [] => next []
  | c :: rest => next (c :: rest) || (c ≠ '/' && afterRun next rest)

/-- The first character passes a test, and what follows satisfies `next`. -/
def afterOne (test : Char → Bool) (next : List Char → Bool) : List Char → Bool
  | [] => false
  | c :: rest => test c && next rest

/-- A character of a set. -/
def inSet (negated : Bool) (ranges : List (Char × Char)) (c : Char) : Bool :=
  (ranges.any fun (low, high) => decide (low ≤ c) && decide (c ≤ high)) != negated

/-- The pieces match a beginning of the text, and what is left satisfies `next`. -/
def matchesThen (next : List Char → Bool) : List GlobPiece → List Char → Bool
  | [] => next
  | .one c :: pieces => afterOne (· = c) (matchesThen next pieces)
  | .any :: pieces => afterOne (· ≠ '/') (matchesThen next pieces)
  | .run :: pieces => afterRun (matchesThen next pieces)
  | .oneOf negated ranges :: pieces => afterOne (inSet negated ranges) (matchesThen next pieces)

end CodeGraph.Ignore
