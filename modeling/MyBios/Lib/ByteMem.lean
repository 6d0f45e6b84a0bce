import Mathlib.Logic.Basic

/-!
Byte-addressed memory with little-endian words.

A memory is a function from addresses to bytes. `write8`, `write16`, `write32`
store a byte, a half-word and a word; `m a`, `read16`, `read32` load them. The
lemmas say what a load sees after a store: the stored value at the same place
(`_same`), the old value at a disjoint place (`_disjoint`). All the side
conditions are linear inequalities between addresses. `writeBytes` stores a
whole sequence of bytes.
-/

/-- A memory: every address holds a byte. -/
def ByteMem := Nat → BitVec 8

namespace ByteMem

variable {m m' : ByteMem} {a b : Nat}

/-- Memory that holds 0 everywhere. -/
def zeros : ByteMem := fun _ => 0

def write8 (m : ByteMem) (a : Nat) (v : BitVec 8) : ByteMem :=
  fun x => if x = a then v else m x

def read16 (m : ByteMem) (a : Nat) : BitVec 16 := m (a + 1) ++ m a

def write16 (m : ByteMem) (a : Nat) (v : BitVec 16) : ByteMem :=
  (m.write8 a (v.extractLsb' 0 8)).write8 (a + 1) (v.extractLsb' 8 8)

def read32 (m : ByteMem) (a : Nat) : BitVec 32 := m.read16 (a + 2) ++ m.read16 a

def write32 (m : ByteMem) (a : Nat) (v : BitVec 32) : ByteMem :=
  (m.write16 a (v.extractLsb' 0 16)).write16 (a + 2) (v.extractLsb' 16 16)

/-! ### Single bytes -/

@[simp] theorem write8_same {v : BitVec 8} : m.write8 a v a = v := by
  simp [write8]

theorem write8_other {v : BitVec 8} (h : b ≠ a) : m.write8 a v b = m b := by
  simp [write8, h]

/-- Storing what is there already. -/
theorem write8_eq_self {v : BitVec 8} (h : m a = v) : m.write8 a v = m := by
  funext x
  rw [write8]
  split
  · rw [‹x = a›, h]
  · rfl

theorem write16_other {v : BitVec 16} (h : b < a ∨ a + 2 ≤ b) : m.write16 a v b = m b := by
  rw [write16, write8_other (by omega), write8_other (by omega)]

theorem write32_other {v : BitVec 32} (h : b < a ∨ a + 4 ≤ b) : m.write32 a v b = m b := by
  rw [write32, write16_other (by omega), write16_other (by omega)]

/-! ### Half-words -/

/-- A half-word load depends on its two bytes only. -/
theorem read16_congr (h : ∀ x, a ≤ x → x < a + 2 → m x = m' x) : m.read16 a = m'.read16 a := by
  rw [read16, read16, h a (by omega) (by omega), h (a + 1) (by omega) (by omega)]

theorem halves_append (v : BitVec 16) : v.extractLsb' 8 8 ++ v.extractLsb' 0 8 = v := by
  rw [BitVec.extractLsb'_append_extractLsb'_eq_extractLsb' (by omega)]
  exact BitVec.extractLsb'_eq_self

theorem toNat_read16 : (m.read16 a).toNat = (m (a + 1)).toNat * 256 + (m a).toNat := by
  rw [read16, BitVec.toNat_append, ← Nat.shiftLeft_add_eq_or_of_lt (m a).isLt, Nat.shiftLeft_eq]

@[simp] theorem read16_write16_same {v : BitVec 16} : (m.write16 a v).read16 a = v := by
  rw [read16, write16, write8_same, write8_other (by omega), write8_same, halves_append]

theorem read16_write8_disjoint {v : BitVec 8} (h : b < a ∨ a + 2 ≤ b) :
    (m.write8 b v).read16 a = m.read16 a :=
  read16_congr fun x _ _ => write8_other (by omega)

theorem read16_write16_disjoint {v : BitVec 16} (h : b + 2 ≤ a ∨ a + 2 ≤ b) :
    (m.write16 b v).read16 a = m.read16 a :=
  read16_congr fun x _ _ => write16_other (by omega)

theorem read16_write32_disjoint {v : BitVec 32} (h : b + 4 ≤ a ∨ a + 2 ≤ b) :
    (m.write32 b v).read16 a = m.read16 a :=
  read16_congr fun x _ _ => write32_other (by omega)

/-- Byte `i` of a half-word that was stored. -/
theorem write16_at {v : BitVec 16} {i : Nat} (hi : i < 2) :
    m.write16 a v (a + i) = v.extractLsb' (8 * i) 8 := by
  by_cases h : i = 1
  · subst h
    rw [write16, write8_same]
  · obtain rfl : i = 0 := by omega
    rw [write16, write8_other (by omega)]
    exact write8_same

/-- Byte `i` of a half-word that was loaded. -/
theorem read16_byte {i : Nat} (hi : i < 2) :
    (m.read16 a).extractLsb' (8 * i) 8 = m (a + i) := by
  rcases (show i = 0 ∨ i = 1 by omega) with rfl | rfl
  · exact BitVec.extractLsb'_append_eq_right
  · exact BitVec.extractLsb'_append_eq_left

/-! ### Words -/

/-- A word load depends on its four bytes only. -/
theorem read32_congr (h : ∀ x, a ≤ x → x < a + 4 → m x = m' x) : m.read32 a = m'.read32 a := by
  rw [read32, read32, read16_congr fun x _ _ => h x (by omega) (by omega),
    read16_congr fun x _ _ => h x (by omega) (by omega)]

theorem words_append (v : BitVec 32) : v.extractLsb' 16 16 ++ v.extractLsb' 0 16 = v := by
  rw [BitVec.extractLsb'_append_extractLsb'_eq_extractLsb' (by omega)]
  exact BitVec.extractLsb'_eq_self

/-- Byte `i` of a word that was stored. -/
theorem write32_at {v : BitVec 32} {i : Nat} (hi : i < 4) :
    m.write32 a v (a + i) = v.extractLsb' (8 * i) 8 := by
  by_cases h : i < 2
  · rw [write32, write16_other (by omega), write16_at h,
      BitVec.extractLsb'_extractLsb'_of_le (by omega)]
  · obtain ⟨j, rfl⟩ : ∃ j, i = j + 2 := ⟨i - 2, by omega⟩
    rw [write32, show a + (j + 2) = a + 2 + j by omega, write16_at (by omega)]
    ext k hk
    simp only [BitVec.getElem_extractLsb', BitVec.getLsbD_extractLsb']
    rw [show 16 + (8 * j + k) = 8 * (j + 2) + k by omega, decide_eq_true (by omega), Bool.true_and]

/-- Byte `i` of a word that was loaded. -/
theorem read32_byte {i : Nat} (hi : i < 4) :
    (m.read32 a).extractLsb' (8 * i) 8 = m (a + i) := by
  by_cases h : i < 2
  · rw [read32, BitVec.extractLsb'_append_eq_of_add_le (by omega), read16_byte h]
  · obtain ⟨j, rfl⟩ : ∃ j, i = j + 2 := ⟨i - 2, by omega⟩
    rw [read32, BitVec.extractLsb'_append_eq_of_le (by omega),
      show 8 * (j + 2) - 16 = 8 * j by omega, read16_byte (by omega),
      show a + 2 + j = a + (j + 2) by omega]

@[simp] theorem read32_write32_same {v : BitVec 32} : (m.write32 a v).read32 a = v := by
  rw [read32, write32, read16_write16_same, read16_write16_disjoint (by omega),
    read16_write16_same, words_append]

theorem read32_write16_disjoint {v : BitVec 16} (h : b + 2 ≤ a ∨ a + 4 ≤ b) :
    (m.write16 b v).read32 a = m.read32 a :=
  read32_congr fun x _ _ => write16_other (by omega)

theorem read32_write32_disjoint {v : BitVec 32} (h : b + 4 ≤ a ∨ a + 4 ≤ b) :
    (m.write32 b v).read32 a = m.read32 a :=
  read32_congr fun x _ _ => write32_other (by omega)

/-! ### Sequences of bytes -/

/-- Store a sequence of bytes from `a` on. -/
def writeBytes (m : ByteMem) (a : Nat) (l : List (BitVec 8)) : ByteMem :=
  fun x => if x < a then m x else (l[x - a]?).getD (m x)

theorem writeBytes_at {l : List (BitVec 8)} {i : Nat} (hi : i < l.length) :
    m.writeBytes a l (a + i) = l[i] := by
  rw [writeBytes, if_neg (by omega), Nat.add_sub_cancel_left, List.getElem?_eq_getElem hi]
  rfl

theorem writeBytes_other {l : List (BitVec 8)} (h : b < a ∨ a + l.length ≤ b) :
    m.writeBytes a l b = m b := by
  rw [writeBytes]
  split
  · rfl
  · rw [List.getElem?_eq_none (by omega)]
    rfl

/-- A memory that holds the sequence and agrees elsewhere. -/
theorem eq_writeBytes {l : List (BitVec 8)} (hin : ∀ i (h : i < l.length), m' (a + i) = l[i])
    (hout : ∀ x, x < a ∨ a + l.length ≤ x → m' x = m x) : m' = m.writeBytes a l := by
  funext x
  by_cases h : x < a ∨ a + l.length ≤ x
  · rw [hout x h, writeBytes_other h]
  · obtain ⟨i, rfl⟩ : ∃ i, x = a + i := ⟨x - a, by omega⟩
    rw [hin i (by omega), writeBytes_at (by omega)]

@[simp] theorem writeBytes_nil : m.writeBytes a [] = m := by
  funext x
  exact writeBytes_other (by rw [List.length_nil]; omega)

/-- One byte more. -/
theorem writeBytes_snoc {l : List (BitVec 8)} {c : BitVec 8} :
    (m.writeBytes a l).write8 (a + l.length) c = m.writeBytes a (l ++ [c]) := by
  refine eq_writeBytes ?_ ?_
  · intro i hi
    rw [List.length_append, List.length_singleton] at hi
    by_cases hlast : i = l.length
    · subst hlast
      rw [write8_same, List.getElem_concat_length rfl]
    · rw [write8_other (by omega), writeBytes_at (by omega), List.getElem_append_left (by omega)]
  · intro x hx
    rw [List.length_append, List.length_singleton] at hx
    rw [write8_other (by omega), writeBytes_other (by omega)]

end ByteMem
