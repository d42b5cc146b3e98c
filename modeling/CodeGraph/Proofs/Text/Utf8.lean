import CodeGraph.Text.Utf8
import Mathlib.Data.List.Basic

/-!
# Reading what was written

The reader gives back every text that was written as UTF-8 (`read_encode`), and the only bytes that
it accepts are those of some text (`decode?_eq_some_iff`).  A line feed is one byte, and no other
character has that byte (`mem_encodeChar_iff`), so the lines of the bytes are those of the text.
-/

namespace CodeGraph.Text.Utf8

/-! ## Characters -/

theorem toNat_lt (c : Char) : c.toNat < 0x110000 ∧ ¬ (0xD800 ≤ c.toNat ∧ c.toNat < 0xE000) := by
  have h : c.toNat.isValidChar := c.valid
  unfold Nat.isValidChar at h
  omega

theorem toNat_ofNat {n : Nat} (h : n < 0x110000) (h' : ¬ (0xD800 ≤ n ∧ n < 0xE000)) :
    (Char.ofNat n).toNat = n := by
  have valid : n.isValidChar := by
    unfold Nat.isValidChar
    omega
  rw [Char.ofNat, dif_pos valid]
  rfl

theorem toNat_toUInt8 {n : Nat} (h : n < 0x100) : n.toUInt8.toNat = n := by
  rw [Nat.toUInt8, UInt8.toNat_ofNat']
  exact Nat.mod_eq_of_lt h

theorem toUInt8_toNat (b : UInt8) : b.toNat.toUInt8 = b := UInt8.ofNat_toNat

/-- The byte of a line feed belongs to line feeds alone. -/
theorem mem_encodeChar_iff {c : Char} : 10 ∈ encodeChar c ↔ c = '\n' := by
  have same : c = '\n' ↔ c.toNat = 10 := by
    rw [← Char.toNat_inj]
    rfl
  have byte {n : Nat} (h : n < 0x100) : (10 : UInt8) = n.toUInt8 ↔ n = 10 := by
    rw [← UInt8.toNat_inj, toNat_toUInt8 h]
    exact eq_comm
  have bound := (toNat_lt c).1
  rw [same, encodeChar]
  split_ifs <;> simp only [List.mem_cons, List.not_mem_nil, or_false] <;>
    simp (disch := omega) only [byte] <;> omega

@[simp]
theorem encodeChar_newline : encodeChar '\n' = [10] := rfl

theorem length_encodeChar_of_ascii {c : Char} (h : c.toNat < 0x80) : (encodeChar c).length = 1 := by
  rw [encodeChar]
  simp [h]

/-! ## Lines -/

@[simp]
theorem mem_encode_iff {text : List Char} : 10 ∈ encode text ↔ '\n' ∈ text := by
  simp only [encode, List.mem_flatMap, mem_encodeChar_iff, exists_eq_right]

@[simp]
theorem count_encode (text : List Char) : (encode text).count 10 = text.count '\n' := by
  induction text with
  | nil => rfl
  | cons c text ih =>
    rw [encode_cons, List.count_append, ih]
    by_cases h : c = '\n'
    · rw [h, encodeChar_newline, List.count_singleton_self, List.count_cons_self, Nat.add_comm]
    · have none : (encodeChar c).count 10 = 0 :=
        List.count_eq_zero.2 fun mem => h (mem_encodeChar_iff.1 mem)
      rw [none, List.count_cons_of_ne h]
      omega

theorem length_encode_of_ascii {text : List Char} (h : ∀ c ∈ text, c.toNat < 0x80) :
    (encode text).length = text.length := by
  induction text with
  | nil => rfl
  | cons c text ih =>
    obtain ⟨first, rest⟩ := List.forall_mem_cons.1 h
    rw [encode_cons, List.length_append, length_encodeChar_of_ascii first, ih rest,
      List.length_cons]
    omega

/-! ## Reading -/

/-- The state after the first byte of a character of several bytes. -/
def opened (b : Nat) : State :=
  if b < 0xE0 then .within (b - 0xC0) 0x80 0xBF 0
  else if b < 0xF0 then
    .within (b - 0xE0) (if b = 0xE0 then 0xA0 else 0x80) (if b = 0xED then 0x9F else 0xBF) 1
  else .within (b - 0xF0) (if b = 0xF0 then 0x90 else 0x80) (if b = 0xF4 then 0x8F else 0xBF) 2

theorem first_eq (b : Nat) :
    first b =
      if b < 0x80 then ([some (Char.ofNat b)], .between)
      else if 0xC2 ≤ b ∧ b ≤ 0xF4 then ([], opened b)
      else ([none], .between) := by
  unfold first opened
  split_ifs <;> first | omega | simp [*]

theorem read_one {b : UInt8} (h : b.toNat < 0x80) (rest : List UInt8) :
    read .between (b :: rest) = some (Char.ofNat b.toNat) :: read .between rest := by
  simp only [read, step, first_eq, if_pos h, List.cons_append, List.nil_append]

theorem read_opening {b : UInt8} (h : 0xC2 ≤ b.toNat ∧ b.toNat ≤ 0xF4) (rest : List UInt8) :
    read .between (b :: rest) = read (opened b.toNat) rest := by
  have large : ¬ b.toNat < 0x80 := by omega
  simp only [read, step, first_eq, if_neg large, if_pos h, List.nil_append]

theorem read_last {value low high : Nat} {b : UInt8} (h : low ≤ b.toNat ∧ b.toNat ≤ high)
    (rest : List UInt8) :
    read (.within value low high 0) (b :: rest) =
      some (Char.ofNat (value * 0x40 + (b.toNat - 0x80))) :: read .between rest := by
  simp only [read, step, if_pos h, List.cons_append, List.nil_append]

theorem read_more {value low high more : Nat} {b : UInt8} (h : low ≤ b.toNat ∧ b.toNat ≤ high)
    (rest : List UInt8) :
    read (.within value low high (more + 1)) (b :: rest) =
      read (.within (value * 0x40 + (b.toNat - 0x80)) 0x80 0xBF more) rest := by
  simp only [read, step, if_pos h, List.nil_append]

theorem read_encodeChar (c : Char) (rest : List UInt8) :
    read .between (encodeChar c ++ rest) = some c :: read .between rest := by
  obtain ⟨bound, surrogate⟩ := toNat_lt c
  have whole : Char.ofNat c.toNat = c := Char.ofNat_toNat c
  have tail (n : Nat) : (0x80 + n % 0x40).toUInt8.toNat = 0x80 + n % 0x40 :=
    toNat_toUInt8 (by omega)
  rw [encodeChar]
  generalize c.toNat = n at *
  split_ifs with one two three <;> simp only [List.cons_append, List.nil_append]
  · have b : n.toUInt8.toNat = n := toNat_toUInt8 (by omega)
    rw [read_one (by omega), b, whole]
  · have b : (0xC0 + n / 0x40).toUInt8.toNat = 0xC0 + n / 0x40 := toNat_toUInt8 (by omega)
    rw [read_opening (by omega), opened, b, if_pos (by omega), read_last (by rw [tail]; omega),
      tail]
    have value : (0xC0 + n / 0x40 - 0xC0) * 0x40 + (0x80 + n % 0x40 - 0x80) = n := by omega
    rw [value, whole]
  · have b : (0xE0 + n / 0x1000).toUInt8.toNat = 0xE0 + n / 0x1000 := toNat_toUInt8 (by omega)
    rw [read_opening (by omega), opened, b, if_neg (by omega), if_pos (by omega),
      read_more (by rw [tail]; split_ifs <;> omega), read_last (by rw [tail]; omega), tail, tail]
    have value : ((0xE0 + n / 0x1000 - 0xE0) * 0x40 + (0x80 + n / 0x40 % 0x40 - 0x80)) * 0x40 +
        (0x80 + n % 0x40 - 0x80) = n := by omega
    rw [value, whole]
  · have b : (0xF0 + n / 0x40000).toUInt8.toNat = 0xF0 + n / 0x40000 := toNat_toUInt8 (by omega)
    rw [read_opening (by omega), opened, b, if_neg (by omega), if_neg (by omega),
      read_more (by rw [tail]; split_ifs <;> omega), read_more (by rw [tail]; omega),
      read_last (by rw [tail]; omega), tail, tail, tail]
    have value : (((0xF0 + n / 0x40000 - 0xF0) * 0x40 + (0x80 + n / 0x1000 % 0x40 - 0x80)) * 0x40 +
        (0x80 + n / 0x40 % 0x40 - 0x80)) * 0x40 + (0x80 + n % 0x40 - 0x80) = n := by omega
    rw [value, whole]

@[simp]
theorem read_encode (text : List Char) : read .between (encode text) = text.map some := by
  induction text with
  | nil => rfl
  | cons c text ih => simp [read_encodeChar, ih]

@[simp]
theorem decodeLossy_encode (text : List Char) : decodeLossy (encode text) = text := by
  rw [decodeLossy, read_encode, List.map_map]
  exact List.map_id text

/-! ## Bytes that are read -/

/-- Bytes that are all well formed behind the beginning of a character start with one that
continues it. -/
theorem read_within_eq {value low high more : Nat} {bytes : List UInt8} {text : List Char}
    (h : read (.within value low high more) bytes = text.map some) :
    ∃ b rest, bytes = b :: rest ∧ low ≤ b.toNat ∧ b.toNat ≤ high := by
  cases bytes with
  | nil => cases text <;> simp [read] at h
  | cons b rest =>
    by_cases inside : low ≤ b.toNat ∧ b.toNat ≤ high
    · exact ⟨b, rest, rfl, inside⟩
    · rw [read, step, if_neg inside] at h
      cases text <;> simp at h

/-- The bytes of a character of several bytes, made of its value. -/
theorem encodeChar_ofNat {n : Nat} (large : 0x80 ≤ n) (h : n < 0x110000)
    (h' : ¬ (0xD800 ≤ n ∧ n < 0xE000)) :
    encodeChar (Char.ofNat n) =
      if n < 0x800 then [(0xC0 + n / 0x40).toUInt8, (0x80 + n % 0x40).toUInt8]
      else if n < 0x10000 then
        [(0xE0 + n / 0x1000).toUInt8, (0x80 + n / 0x40 % 0x40).toUInt8, (0x80 + n % 0x40).toUInt8]
      else
        [(0xF0 + n / 0x40000).toUInt8, (0x80 + n / 0x1000 % 0x40).toUInt8,
          (0x80 + n / 0x40 % 0x40).toUInt8, (0x80 + n % 0x40).toUInt8] := by
  rw [encodeChar, toNat_ofNat h h', if_neg (by omega)]

theorem toUInt8_eq {n : Nat} {b : UInt8} (h : n = b.toNat) : n.toUInt8 = b := by
  rw [h, toUInt8_toNat]

/-- The text starts with a character whose bytes the others start with; the rest is read as the rest
of the text. -/
def Starts (bytes : List UInt8) (text : List Char) : Prop :=
  ∃ c text' rest, text = c :: text' ∧ bytes = encodeChar c ++ rest ∧
    read .between rest = text'.map some

theorem Starts.of_char {c : Char} {bytes rest : List UInt8} {text : List Char}
    (h : some c :: read .between rest = text.map some) (eq : bytes = encodeChar c ++ rest) :
    Starts bytes text := by
  cases text with
  | nil => cases h
  | cons d text' =>
    obtain ⟨same, later⟩ := List.cons.inj h
    exact ⟨c, text', rest, by rw [Option.some.inj same], eq, later⟩

theorem starts_of_one {b : UInt8} {rest : List UInt8} {text : List Char} (one : b.toNat < 0x80)
    (h : read .between (b :: rest) = text.map some) : Starts (b :: rest) text := by
  rw [read_one one] at h
  apply Starts.of_char h
  rw [encodeChar, toNat_ofNat (by omega) (by omega), if_pos one, toUInt8_toNat]
  rfl

theorem starts_of_two {b : UInt8} {rest : List UInt8} {text : List Char}
    (hb : 0xC2 ≤ b.toNat ∧ b.toNat < 0xE0) (h : read (opened b.toNat) rest = text.map some) :
    Starts (b :: rest) text := by
  rw [opened, if_pos hb.2] at h
  obtain ⟨b₂, rest, rfl, in₂⟩ := read_within_eq h
  rw [read_last in₂] at h
  apply Starts.of_char h
  rw [encodeChar_ofNat (by omega) (by omega) (by omega), if_pos (by omega),
    toUInt8_eq (b := b) (by omega), toUInt8_eq (b := b₂) (by omega)]
  rfl

theorem starts_of_three {b : UInt8} {rest : List UInt8} {text : List Char}
    (hb : 0xE0 ≤ b.toNat ∧ b.toNat < 0xF0) (h : read (opened b.toNat) rest = text.map some) :
    Starts (b :: rest) text := by
  rw [opened, if_neg (by omega), if_pos hb.2] at h
  obtain ⟨b₂, rest, rfl, in₂⟩ := read_within_eq h
  rw [read_more in₂] at h
  obtain ⟨b₃, rest, rfl, in₃⟩ := read_within_eq h
  rw [read_last in₃] at h
  apply Starts.of_char h
  -- The bounds on the second byte keep out overlong forms and surrogates.
  have low : 0x80 ≤ b₂.toNat ∧ (b.toNat = 0xE0 → 0xA0 ≤ b₂.toNat) := by
    split_ifs at in₂ <;> omega
  have high : b₂.toNat ≤ 0xBF ∧ (b.toNat = 0xED → b₂.toNat ≤ 0x9F) := by
    split_ifs at in₂ <;> omega
  rw [encodeChar_ofNat (by omega) (by omega) (by omega), if_neg (by omega), if_pos (by omega),
    toUInt8_eq (b := b) (by omega), toUInt8_eq (b := b₂) (by omega),
    toUInt8_eq (b := b₃) (by omega)]
  rfl

theorem starts_of_four {b : UInt8} {rest : List UInt8} {text : List Char}
    (hb : 0xF0 ≤ b.toNat ∧ b.toNat ≤ 0xF4) (h : read (opened b.toNat) rest = text.map some) :
    Starts (b :: rest) text := by
  rw [opened, if_neg (by omega), if_neg (by omega)] at h
  obtain ⟨b₂, rest, rfl, in₂⟩ := read_within_eq h
  rw [read_more in₂] at h
  obtain ⟨b₃, rest, rfl, in₃⟩ := read_within_eq h
  rw [read_more in₃] at h
  obtain ⟨b₄, rest, rfl, in₄⟩ := read_within_eq h
  rw [read_last in₄] at h
  apply Starts.of_char h
  have low : 0x80 ≤ b₂.toNat ∧ (b.toNat = 0xF0 → 0x90 ≤ b₂.toNat) := by
    split_ifs at in₂ <;> omega
  have high : b₂.toNat ≤ 0xBF ∧ (b.toNat = 0xF4 → b₂.toNat ≤ 0x8F) := by
    split_ifs at in₂ <;> omega
  rw [encodeChar_ofNat (by omega) (by omega) (by omega), if_neg (by omega), if_neg (by omega),
    toUInt8_eq (b := b) (by omega), toUInt8_eq (b := b₂) (by omega),
    toUInt8_eq (b := b₃) (by omega), toUInt8_eq (b := b₄) (by omega)]
  rfl

theorem starts_of_read {b : UInt8} {rest : List UInt8} {text : List Char}
    (h : read .between (b :: rest) = text.map some) : Starts (b :: rest) text := by
  by_cases one : b.toNat < 0x80
  · exact starts_of_one one h
  by_cases opens : 0xC2 ≤ b.toNat ∧ b.toNat ≤ 0xF4
  · rw [read_opening opens] at h
    by_cases two : b.toNat < 0xE0
    · exact starts_of_two ⟨opens.1, two⟩ h
    by_cases three : b.toNat < 0xF0
    · exact starts_of_three ⟨by omega, three⟩ h
    · exact starts_of_four ⟨by omega, opens.2⟩ h
  · rw [read, step, first_eq, if_neg one, if_neg opens] at h
    cases text <;> simp at h

theorem encode_of_read {bytes : List UInt8} {text : List Char}
    (h : read .between bytes = text.map some) : encode text = bytes := by
  induction text generalizing bytes with
  | nil =>
    cases bytes with
    | nil => rfl
    | cons b rest =>
      obtain ⟨c, text', -, eq, -, -⟩ := starts_of_read h
      cases eq
  | cons c text ih =>
    cases bytes with
    | nil => cases h
    | cons b rest =>
      obtain ⟨d, text', rest', eq, whole, later⟩ := starts_of_read h
      obtain ⟨rfl, rfl⟩ := List.cons.inj eq
      simp [ih later, whole]

theorem mapM_id_eq_some_iff {α : Type} {items : List (Option α)} {values : List α} :
    items.mapM id = some values ↔ items = values.map some := by
  induction items generalizing values with
  | nil => cases values <;> simp
  | cons item items ih =>
    cases values <;> simp [List.mapM_cons, Option.bind_eq_some_iff, ih]

/-- The bytes that are accepted are those that some text is written with, and they give it back. -/
@[simp]
theorem decode?_eq_some_iff {bytes : List UInt8} {text : List Char} :
    decode? bytes = some text ↔ encode text = bytes := by
  rw [decode?, mapM_id_eq_some_iff]
  constructor
  · exact encode_of_read
  · rintro rfl
    exact read_encode text

end CodeGraph.Text.Utf8
