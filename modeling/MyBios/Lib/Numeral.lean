import Mathlib.Data.Nat.Digits.Lemmas

/-!
Numerals: numbers written in ASCII with the digits 0-9 and A-F.

`numeral b n` are the digits of `n` in base `b`, most significant first, and
`text b n` is how they are written. `IsNumeral b s n` says that a text is a
numeral of `n`, in terms of the text alone: what its characters are, what it
reads as, and that it starts with no zero it does not need. `isNumeral_text`
connects the two. `numeral_snoc` is the step of the two usual ways to produce
a numeral, by repeated division and by recursion.
-/

namespace Numeral

/-- The digits of `n` in base `b`, most significant first; 0 has one digit. -/
def numeral (b n : Nat) : List Nat := if n = 0 then [0] else (Nat.digits b n).reverse

/-- The character of a digit. -/
def digit (d : Nat) : BitVec 8 := BitVec.ofNat 8 (if d < 10 then 0x30 + d else 0x41 + (d - 10))

/-- What a character stands for, if it is a digit. -/
def digitValue (c : BitVec 8) : Option Nat :=
  if 0x30 ≤ c.toNat ∧ c.toNat ≤ 0x39 then some (c.toNat - 0x30)
  else if 0x41 ≤ c.toNat ∧ c.toNat ≤ 0x46 then some (c.toNat - 0x41 + 10)
  else none

/-- A number as it is written. -/
def text (b n : Nat) : List (BitVec 8) := (numeral b n).map digit

/-- A sequence of digits, read from the left. -/
def value (b : Nat) (ds : List Nat) : Nat := ds.foldl (fun v d => b * v + d) 0

/-- `s` is a numeral of `n` in base `b`. -/
structure IsNumeral (b : Nat) (s : List (BitVec 8)) (n : Nat) : Prop where
  reads : ∃ ds, s.map digitValue = ds.map some ∧ (∀ d ∈ ds, d < b) ∧ value b ds = n
  leading : n ≠ 0 → s.head? ≠ some 0x30
  zero : n = 0 → s = [0x30]

variable {b n : Nat}

/-! ### Digits -/

theorem numeral_of_lt (h : n < b) : numeral b n = [n] := by
  rw [numeral]
  split
  · rw [‹n = 0›]
  · rw [Nat.digits_of_lt b n ‹_› h, List.reverse_singleton]

/-- A number of two or more digits: those of the quotient, then the remainder. -/
theorem numeral_snoc (hb : 1 < b) (h : b ≤ n) :
    numeral b n = numeral b (n / b) ++ [n % b] := by
  have hquot : n / b ≠ 0 := Nat.div_ne_zero_iff.mpr ⟨by omega, h⟩
  rw [numeral, if_neg (by omega), numeral, if_neg hquot,
    Nat.digits_eq_cons_digits_div hb (by omega), List.reverse_cons]

theorem lt_of_mem_numeral (hb : 1 < b) {d : Nat} (h : d ∈ numeral b n) : d < b := by
  rw [numeral] at h
  split at h
  · rw [List.mem_singleton.mp h]
    omega
  · exact Nat.digits_lt_base hb (List.mem_reverse.mp h)

theorem numeral_ne_nil : numeral b n ≠ [] := by
  rw [numeral]
  split
  · exact List.cons_ne_nil _ _
  · exact mt List.reverse_eq_nil_iff.mp (Nat.digits_ne_nil_iff_ne_zero.mpr ‹_›)

theorem value_reverse (ds : List Nat) : value b ds.reverse = Nat.ofDigits b ds := by
  induction ds with
  | nil => rfl
  | cons d ds ih =>
      rw [value, List.reverse_cons, List.foldl_append, Nat.ofDigits_cons, ← ih]
      exact Nat.add_comm _ d

/-- Reading a numeral gives the number back. -/
theorem value_numeral : value b (numeral b n) = n := by
  rw [numeral]
  split
  · rw [‹n = 0›]
    exact Nat.mul_zero b
  · rw [value_reverse, Nat.ofDigits_digits]

/-- A numeral has at most `k` digits when the number is below `b ^ k`. -/
theorem length_numeral_le_iff (hb : 1 < b) {k : Nat} (hk : 0 < k) :
    (numeral b n).length ≤ k ↔ n < b ^ k := by
  rw [numeral]
  split
  · have hpos : 0 < b ^ k := Nat.pow_pos (by omega)
    exact iff_of_true hk (by omega)
  · rw [List.length_reverse, Nat.digits_length_le_iff hb]

theorem head_numeral_ne_zero (hn : n ≠ 0) : (numeral b n).head? ≠ some 0 := by
  have hdigits : Nat.digits b n ≠ [] := Nat.digits_ne_nil_iff_ne_zero.mpr hn
  rw [numeral, if_neg hn, List.head?_reverse, List.getLast?_eq_getLast_of_ne_nil hdigits]
  exact fun h => Nat.getLast_digit_ne_zero b hn (Option.some.inj h)

/-! ### Characters -/

theorem toNat_digit {d : Nat} (h : d < 16) :
    (digit d).toNat = if d < 10 then 0x30 + d else 0x41 + (d - 10) := by
  rw [digit, BitVec.toNat_ofNat]
  split <;> exact Nat.mod_eq_of_lt (by omega)

@[simp] theorem digitValue_digit {d : Nat} (h : d < 16) : digitValue (digit d) = some d := by
  rw [digitValue, toNat_digit h]
  split
  · rw [if_pos (by omega), Nat.add_sub_cancel_left]
  · rw [if_neg (by omega), if_pos (by omega)]
    congr 1
    omega

theorem digit_ne_zero {d : Nat} (h : d < 16) : digit d ≠ 0 := by
  intro hzero
  have := congrArg BitVec.toNat hzero
  rw [toNat_digit h] at this
  split at this <;> simp at this

theorem digit_injective {d e : Nat} (hd : d < 16) (he : e < 16) (h : digit d = digit e) :
    d = e :=
  Option.some.inj (by rw [← digitValue_digit hd, h, digitValue_digit he])

/-! ### Texts -/

theorem text_of_lt (h : n < b) : text b n = [digit n] := by
  rw [text, numeral_of_lt h, List.map_singleton]

theorem text_ne_nil : text b n ≠ [] := mt List.map_eq_nil_iff.mp numeral_ne_nil

theorem text_snoc (hb : 1 < b) (h : b ≤ n) : text b n = text b (n / b) ++ [digit (n % b)] := by
  rw [text, text, numeral_snoc hb h, List.map_append, List.map_singleton]

theorem length_text_le_iff (hb : 1 < b) {k : Nat} (hk : 0 < k) :
    (text b n).length ≤ k ↔ n < b ^ k := by
  rw [text, List.length_map, length_numeral_le_iff hb hk]

/-- The characters of a text are digits below the base. -/
theorem exists_of_mem_text (hb : 1 < b) {c : BitVec 8} (h : c ∈ text b n) :
    ∃ d < b, c = digit d := by
  obtain ⟨d, hd, rfl⟩ := List.mem_map.mp h
  exact ⟨d, lt_of_mem_numeral hb hd, rfl⟩

theorem ne_zero_of_mem_text (hb : 1 < b) (hb' : b ≤ 16) {c : BitVec 8} (h : c ∈ text b n) :
    c ≠ 0 := by
  obtain ⟨d, hd, rfl⟩ := exists_of_mem_text hb h
  exact digit_ne_zero (by omega)

/-- `text` writes numerals. -/
theorem isNumeral_text (hb : 1 < b) (hb' : b ≤ 16) : IsNumeral b (text b n) n where
  reads := by
    refine ⟨numeral b n, ?_, fun d hd => lt_of_mem_numeral hb hd, value_numeral⟩
    rw [text, List.map_map]
    refine List.map_congr_left fun d hd => ?_
    have := lt_of_mem_numeral hb hd
    exact digitValue_digit (by omega)
  leading := by
    intro hn h
    rw [text, List.head?_map, Option.map_eq_some_iff] at h
    obtain ⟨d, hd, hzero⟩ := h
    have hlt := lt_of_mem_numeral hb (List.mem_of_mem_head? hd)
    obtain rfl := digit_injective (d := d) (e := 0) (by omega) (by omega) hzero
    exact head_numeral_ne_zero hn hd
  zero := by
    rintro rfl
    exact text_of_lt (by omega)

end Numeral
