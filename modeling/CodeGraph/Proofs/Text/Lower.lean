import CodeGraph.Proofs.Text.Utf8
import CodeGraph.Text.Lower

/-!
# Lower case text

What the lower-case map gives is in lower case: the map changes none of its characters, whatever
stands around them (`lower_eq_self`, `isLower_lower`).
-/

namespace CodeGraph.Text

/-! ## Runs of capitals -/

namespace CaseRun

variable {r s : CaseRun} {code : Nat}

/-- The code point is a capital of the run. -/
def Covers (r : CaseRun) (code : Nat) : Prop :=
  r.first ≤ code ∧ code ≤ r.last ∧ (code - r.first) % r.step = 0

instance (r : CaseRun) (code : Nat) : Decidable (r.Covers code) :=
  inferInstanceAs (Decidable (_ ∧ _))

/-- The small letter of a capital of the run. -/
def small (r : CaseRun) (code : Nat) : Nat := r.image + (code - r.first)

/-- The small letters of a run stay clear of a range of code points. -/
def staysClear (r : CaseRun) (low high : Nat) : Bool :=
  r.image + (r.last - r.first) < low || high < r.image

theorem small_clear {low high : Nat} (h : r.Covers code) (clear : r.staysClear low high = true) :
    r.small code < low ∨ high < r.small code := by
  obtain ⟨above, under, -⟩ := h
  rw [staysClear, Bool.or_eq_true, decide_eq_true_iff, decide_eq_true_iff] at clear
  rw [small]
  omega

/-- The small letters of one run are no capitals of the other: they stay clear of it or fall between
its capitals. -/
def spares (r s : CaseRun) : Bool :=
  r.staysClear s.first s.last ||
    ((r.step = 2 || r.first = r.last) && s.step = 2 && (r.image + s.first) % 2 = 1)

theorem not_covers_small (h : r.Covers code) (spares : r.spares s = true) :
    ¬ s.Covers (r.small code) := by
  rintro ⟨above, under, step⟩
  rw [CaseRun.spares, Bool.or_eq_true] at spares
  rcases spares with clear | between
  · have := small_clear h clear
    omega
  · obtain ⟨first, last, even⟩ := h
    simp only [Bool.and_eq_true, Bool.or_eq_true, decide_eq_true_eq] at between
    obtain ⟨⟨even' | single, two⟩, odd⟩ := between
    · rw [even'] at even
      rw [two, small] at step
      rw [small] at above
      omega
    · rw [two, small] at step
      rw [small] at above
      omega

/-- The small letters of the run are characters, and neither capitals nor the dotted capital I. -/
def isSettled (r : CaseRun) : Bool :=
  r.staysClear 0 0x5A && r.staysClear 0x130 0x130 && r.staysClear 0xD800 0xDFFF &&
    r.image + (r.last - r.first) < 0x110000 && caseRuns.all r.spares

end CaseRun

theorem isSettled_of_mem {r : CaseRun} (h : r ∈ caseRuns) : r.isSettled = true := by
  have all : caseRuns.all CaseRun.isSettled = true := by decide +kernel
  exact List.all_eq_true.1 all r h

/-! ## Small characters -/

/-- The lower-case map does not change the character. -/
def IsSmall (c : Char) : Prop := c.toNat ≠ 0x3A3 ∧ lowerChar c = [c]

variable {c d : Char} {text : List Char}

theorem isSmall_of_ascii (ascii : c.toNat < 128) (same : c.toLower = c) : IsSmall c :=
  ⟨by omega, by rw [lowerChar, if_pos ascii, same]⟩

theorem isSmall_toLower (ascii : c.toNat < 128) : IsSmall c.toLower := by
  have table : ∀ n < 128, (Char.ofNat n).toLower.toNat < 128 ∧
      (Char.ofNat n).toLower.toLower = (Char.ofNat n).toLower := by decide
  have known := table c.toNat ascii
  rw [Char.ofNat_toNat] at known
  exact isSmall_of_ascii known.1 known.2

/-- What the runs do to a character other than the ones that are mapped otherwise. -/
theorem lowerChar_cases (above : 128 ≤ c.toNat) (dotless : c.toNat ≠ 0x130) :
    (∃ r ∈ caseRuns, r.Covers c.toNat ∧ lowerChar c = [Char.ofNat (r.small c.toNat)]) ∨
      (∀ r ∈ caseRuns, ¬ r.Covers c.toNat) ∧ lowerChar c = [c] := by
  rw [lowerChar, if_neg (Nat.not_lt.2 above), if_neg dotless]
  split
  · next r found =>
    have covers := List.find?_some found
    simp only [Bool.and_eq_true, decide_eq_true_eq, beq_iff_eq] at covers
    exact Or.inl ⟨r, List.mem_of_find?_eq_some found, ⟨covers.1.1, covers.1.2, covers.2⟩, rfl⟩
  · next none =>
    refine Or.inr ⟨fun r h covers => ?_, rfl⟩
    have other := List.find?_eq_none.1 none r h
    simp only [Bool.and_eq_true, decide_eq_true_eq, beq_iff_eq] at other
    exact other ⟨⟨covers.1, covers.2.1⟩, covers.2.2⟩

theorem isSmall_of_uncovered (above : 128 ≤ c.toNat) (dotless : c.toNat ≠ 0x130)
    (uncovered : ∀ r ∈ caseRuns, ¬ r.Covers c.toNat) : IsSmall c := by
  constructor
  · intro sigma
    have covered : ∃ r ∈ caseRuns, r.Covers 0x3A3 := by decide +kernel
    obtain ⟨r, h, covers⟩ := covered
    exact uncovered r h (sigma ▸ covers)
  · rcases lowerChar_cases above dotless with ⟨r, h, covers, -⟩ | ⟨-, same⟩
    · exact absurd covers (uncovered r h)
    · exact same

theorem isSmall_of_run {r : CaseRun} (h : r ∈ caseRuns) {code : Nat} (covers : r.Covers code) :
    IsSmall (Char.ofNat (r.small code)) := by
  have settled := isSettled_of_mem h
  simp only [CaseRun.isSettled, Bool.and_eq_true, decide_eq_true_eq, List.all_eq_true] at settled
  obtain ⟨⟨⟨⟨ascii, dotted⟩, surrogate⟩, bound⟩, spared⟩ := settled
  have ascii := CaseRun.small_clear covers ascii
  have dotted := CaseRun.small_clear covers dotted
  have surrogate := CaseRun.small_clear covers surrogate
  have bound : r.small code < 0x110000 := by
    obtain ⟨-, under, -⟩ := covers
    rw [CaseRun.small]
    omega
  have toNat := Utf8.toNat_ofNat bound (by omega)
  by_cases above : 128 ≤ r.small code
  · refine isSmall_of_uncovered (toNat.symm ▸ above) (by omega) fun other h' => ?_
    rw [toNat]
    exact CaseRun.not_covers_small covers (spared other h')
  · have table : ∀ n < 128, 0x5A < n → (Char.ofNat n).toLower = Char.ofNat n := by decide
    exact isSmall_of_ascii (by omega) (table _ (by omega) (by omega))

/-- The map gives characters that it does not change. -/
theorem isSmall_of_mem (sigma : c.toNat ≠ 0x3A3) (h : d ∈ lowerChar c) : IsSmall d := by
  by_cases ascii : c.toNat < 128
  · rw [lowerChar, if_pos ascii, List.mem_singleton] at h
    rw [h]
    exact isSmall_toLower ascii
  by_cases dotted : c.toNat = 0x130
  · have above : ∀ r ∈ caseRuns, ¬ r.Covers 0x307 := by decide +kernel
    rw [lowerChar, if_neg ascii, if_pos dotted, List.mem_cons, List.mem_singleton] at h
    rcases h with rfl | rfl
    · exact isSmall_of_ascii (by decide) (by decide)
    · exact isSmall_of_uncovered (by decide) (by decide) above
  · rcases lowerChar_cases (Nat.not_lt.1 ascii) dotted with ⟨r, mem, covers, eq⟩ | ⟨-, eq⟩
    · rw [eq, List.mem_singleton] at h
      rw [h]
      exact isSmall_of_run mem covers
    · rw [eq, List.mem_singleton] at h
      rw [h]
      exact ⟨sigma, eq⟩

theorem isSmall_sigma : IsSmall 'σ' ∧ IsSmall 'ς' := by
  have usual : ∀ r ∈ caseRuns, ¬ r.Covers 0x3C3 := by decide +kernel
  have final : ∀ r ∈ caseRuns, ¬ r.Covers 0x3C2 := by decide +kernel
  exact ⟨isSmall_of_uncovered (by decide) (by decide) usual,
    isSmall_of_uncovered (by decide) (by decide) final⟩

/-! ## Text in lower case -/

/-- The lower-case map changes no character of the text. -/
def IsLower (text : List Char) : Prop := ∀ c ∈ text, IsSmall c

theorem lowerFrom_eq_self (h : IsLower text) (before : List Char) :
    lowerFrom before text = text := by
  induction text generalizing before with
  | nil => rfl
  | cons c rest ih =>
    obtain ⟨⟨sigma, same⟩, later⟩ := List.forall_mem_cons.1 h
    rw [lowerFrom, if_neg sigma, same, ih later, List.singleton_append]

theorem lower_eq_self (h : IsLower text) : lower text = text := lowerFrom_eq_self h []

@[simp]
theorem isLower_lowerFrom (before text : List Char) : IsLower (lowerFrom before text) := by
  induction text generalizing before with
  | nil => simp [IsLower, lowerFrom]
  | cons c rest ih =>
    intro d h
    rw [lowerFrom, List.mem_append] at h
    rcases h with here | later
    · split at here
      · rw [List.mem_singleton] at here
        rw [here]
        split
        · exact isSmall_sigma.2
        · exact isSmall_sigma.1
      · next sigma => exact isSmall_of_mem sigma here
    · exact ih _ d later

/-- What the lower-case map gives is in lower case. -/
@[simp]
theorem isLower_lower (text : List Char) : IsLower (lower text) := isLower_lowerFrom [] text

end CodeGraph.Text
