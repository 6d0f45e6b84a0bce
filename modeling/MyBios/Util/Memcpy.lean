import Mathlib.Data.Nat.Bitwise
import MyBios.Machine

/-!
`memcpy` of `util.h`.

The length decides once which of three copy loops runs: words when it is a
multiple of 4, half-words when bit 1 is clear, bytes otherwise. Each loop
counts an unsigned length down by its stride and stops at 0.

`copyLoop_total`: a loop whose stride divides the length copies the range.
`copyLoop_diverges`: a loop with an even stride and an odd length never stops.
A length of the form `4k + 1` has bit 1 clear, so it enters the half-word loop:
`memcpy_iff` says that these are exactly the lengths for which `memcpy` fails.
-/

namespace MyBios

open Prog

/-! ### The program -/

/-- The two pointers and the bytes left. -/
structure Cursor where
  d : U32
  s : U32
  len : U32

/-- One pass of `while (len > 0) { *d++ = *s++; len -= n; }` for pointers to
objects of `n` bytes; `move d s` is the assignment `*d = *s`. -/
def copyPass (n : U32) (move : Nat → Nat → ByteMem → ByteMem) (c : Cursor) :
    Prog ByteMem (Pass Cursor Unit) :=
  if c.len > 0 then do
    modify (move c.d.toNat c.s.toNat)
    return .again ⟨c.d + n, c.s + n, c.len - n⟩
  else return .done ()

def copyLoop (n : U32) (move : Nat → Nat → ByteMem → ByteMem) (d s len : U32) :
    Prog ByteMem Unit :=
  loop (copyPass n move) ⟨d, s, len⟩

/-- `*d = *s` through `u32` pointers. -/
def move32 (d s : Nat) (m : ByteMem) : ByteMem := m.write32 d (m.read32 s)

/-- `*d = *s` through `u16` pointers. -/
def move16 (d s : Nat) (m : ByteMem) : ByteMem := m.write16 d (m.read16 s)

/-- `*d = *s` through `u8` pointers. -/
def move8 (d s : Nat) (m : ByteMem) : ByteMem := m.write8 d (m s)

def memcpy (dest src len : U32) : Prog ByteMem Unit :=
  if len &&& 3 = 0 then copyLoop 4 move32 dest src len
  else if len &&& 2 = 0 then copyLoop 2 move16 dest src len
  else copyLoop 1 move8 dest src len

/-! ### What a copy is -/

/-- The ranges of `len` bytes from `dest` and from `src` do not wrap and do not
overlap. -/
structure Ranges (dest src len : U32) : Prop where
  dest_fits : dest.toNat + len.toNat ≤ 2 ^ 32
  src_fits : src.toNat + len.toNat ≤ 2 ^ 32
  apart : dest.toNat + len.toNat ≤ src.toNat ∨ src.toNat + len.toNat ≤ dest.toNat

/-- The first `k` bytes from `dest` are those that `m₀` has from `src`, and every
other byte is as in `m₀`. -/
structure Copied (dest src : Nat) (k : Nat) (m₀ m : ByteMem) : Prop where
  copied : ∀ i < k, m (dest + i) = m₀ (src + i)
  frame : ∀ a, a < dest ∨ dest + k ≤ a → m a = m₀ a

/-- `memcpy` terminates, the destination range then equals the source range, and
no other byte has changed. -/
def Copies (dest src len : U32) (m₀ : ByteMem) : Prop :=
  Total (memcpy dest src len) m₀ fun _ m =>
    (∀ i < len.toNat, m (dest.toNat + i) = m (src.toNat + i)) ∧
      Copied dest.toNat src.toNat len.toNat m₀ m

/-- `move` copies `n` bytes at once. -/
def Moves (n : Nat) (move : Nat → Nat → ByteMem → ByteMem) : Prop :=
  ∀ d s m, Copied d s n m (move d s m)

theorem move32_moves : Moves 4 move32 := by
  intro d s m
  constructor
  · intro i hi
    rw [move32, ByteMem.write32_at hi, ByteMem.read32_byte hi]
  · intro a ha
    exact ByteMem.write32_other ha

theorem move16_moves : Moves 2 move16 := by
  intro d s m
  constructor
  · intro i hi
    rw [move16, ByteMem.write16_at hi, ByteMem.read16_byte hi]
  · intro a ha
    exact ByteMem.write16_other ha

theorem move8_moves : Moves 1 move8 := by
  intro d s m
  constructor
  · intro i hi
    obtain rfl : i = 0 := by omega
    exact ByteMem.write8_same
  · intro a ha
    exact ByteMem.write8_other (by omega)

/-- `n` more bytes, read from where the first `k` have not been written. -/
theorem Copied.snoc {dest src k n : Nat} {m₀ m m' : ByteMem} (h : Copied dest src k m₀ m)
    (h' : Copied (dest + k) (src + k) n m m')
    (apart : dest + k ≤ src + k ∨ src + k + n ≤ dest) : Copied dest src (k + n) m₀ m' := by
  constructor
  · intro i hi
    by_cases hik : i < k
    · rw [h'.frame _ (.inl (by omega))]
      exact h.copied i hik
    · obtain ⟨j, rfl⟩ : ∃ j, i = k + j := ⟨i - k, by omega⟩
      have moved := h'.copied j (by omega)
      rw [Nat.add_assoc, Nat.add_assoc] at moved
      rw [moved]
      exact h.frame _ (by omega)
  · intro a ha
    rw [h'.frame a (by omega)]
    exact h.frame a (by omega)

/-- A source range that the copy has not touched still equals the copy. -/
theorem Copied.equal {dest src len : U32} (r : Ranges dest src len) {m₀ m : ByteMem}
    (h : Copied dest.toNat src.toNat len.toNat m₀ m) :
    ∀ i < len.toNat, m (dest.toNat + i) = m (src.toNat + i) := by
  intro i hi
  have apart := r.apart
  rw [h.copied i hi, h.frame (src.toNat + i) (by omega)]

/-! ### The loops -/

section Loop

variable {n : U32} {move : Nat → Nat → ByteMem → ByteMem} {dest src len : U32} {m₀ : ByteMem}

theorem returns_copyPass_again {c : Cursor} {m m' : ByteMem} {pass : Pass Cursor Unit}
    (h : 0 < c.len) :
    (copyPass n move c).Returns m pass m' ↔
      pass = .again ⟨c.d + n, c.s + n, c.len - n⟩ ∧ m' = move c.d.toNat c.s.toNat m := by
  rw [copyPass, if_pos h]
  simp [and_comm]

theorem returns_copyPass_done {c : Cursor} {m m' : ByteMem} {pass : Pass Cursor Unit}
    (h : ¬ 0 < c.len) :
    (copyPass n move c).Returns m pass m' ↔ pass = .done () ∧ m' = m := by
  rw [copyPass, if_neg h]
  exact returns_pure

/-- Before a pass: `k` bytes are copied, and the stride divides what is left. A
pointer that has passed the last address has wrapped, but is not used again. -/
structure Progress (n dest src len : U32) (m₀ : ByteMem) (c : Cursor) (m : ByteMem) (k : Nat) :
    Prop where
  pointers : 0 < c.len.toNat → c.d.toNat = dest.toNat + k ∧ c.s.toNat = src.toNat + k
  left : c.len.toNat + k = len.toNat
  aligned : n.toNat ∣ c.len.toNat
  copied : Copied dest.toNat src.toNat k m₀ m

/-- A pass copies one object more. -/
theorem Progress.pass (r : Ranges dest src len) (hmove : Moves n.toNat move) {c : Cursor}
    {m : ByteMem} {k : Nat} (h : Progress n dest src len m₀ c m k) (hpos : 0 < c.len.toNat) :
    Progress n dest src len m₀ ⟨c.d + n, c.s + n, c.len - n⟩ (move c.d.toNat c.s.toNat m)
      (k + n.toNat) := by
  obtain ⟨hd, hs⟩ := h.pointers hpos
  have hle : n.toNat ≤ c.len.toNat := Nat.le_of_dvd hpos h.aligned
  have hleft : (c.len - n).toNat = c.len.toNat - n.toNat := BitVec.toNat_sub_of_le hle
  have hk := h.left
  have hdest := r.dest_fits
  have hsrc := r.src_fits
  have apart := r.apart
  refine ⟨?_, ?_, ?_, ?_⟩
  · intro hmore
    simp only [hleft] at hmore
    simp only [BitVec.toNat_add]
    omega
  · simp only [hleft]
    omega
  · simp only [hleft]
    exact Nat.dvd_sub h.aligned (Nat.dvd_refl _)
  · rw [hd, hs]
    exact h.copied.snoc (hmove _ _ _) (by omega)

/-- A loop whose stride divides the length copies the range. -/
theorem copyLoop_total (r : Ranges dest src len) (hn : 0 < n.toNat) (hmove : Moves n.toNat move)
    (hdvd : n.toNat ∣ len.toNat) :
    Total (copyLoop n move dest src len) m₀ fun _ m =>
      Copied dest.toNat src.toNat len.toNat m₀ m := by
  refine Total.loop (I := fun c m => ∃ k, Progress n dest src len m₀ c m k)
    (fun c _ => c.len.toNat) ?_ ⟨0, ?_⟩
  · rintro c m ⟨k, h⟩
    by_cases hpos : 0 < c.len
    · have next := h.pass r hmove hpos
      refine ⟨_, _, (returns_copyPass_again hpos).mpr ⟨rfl, rfl⟩, ⟨_, next⟩, ?_⟩
      have hleft := next.left
      have hk := h.left
      simp only at hleft ⊢
      omega
    · refine ⟨_, _, (returns_copyPass_done hpos).mpr ⟨rfl, rfl⟩, ?_⟩
      have hzero : c.len.toNat = 0 := Nat.eq_zero_of_not_pos hpos
      have hk := h.left
      rw [show len.toNat = k by omega]
      exact h.copied
  · exact ⟨fun _ => ⟨rfl, rfl⟩, rfl, hdvd, fun i hi => absurd hi (by omega), fun _ _ => rfl⟩

/-- A loop with an even stride and an odd length never stops. -/
theorem copyLoop_diverges {u : Unit} {m : ByteMem} (hn : 2 ∣ n.toNat) (hlen : len.toNat % 2 = 1) :
    ¬ (copyLoop n move dest src len).Returns m₀ u m := by
  refine not_returns_loop (I := fun c _ => c.len.toNat % 2 = 1) ?_ hlen
  intro c m hodd
  have hpos : 0 < c.len := show 0 < c.len.toNat by omega
  refine ⟨_, _, (returns_copyPass_again hpos).mpr ⟨rfl, rfl⟩, ?_⟩
  simp only [BitVec.toNat_sub]
  omega

end Loop

/-! ### Which loop runs -/

theorem and_three_eq_zero (len : U32) : len &&& 3 = 0 ↔ len.toNat % 4 = 0 := by
  rw [← BitVec.toNat_inj, BitVec.toNat_and]
  exact iff_of_eq (congrArg (· = 0) (Nat.and_two_pow_sub_one_eq_mod len.toNat 2))

theorem and_two_eq_zero (len : U32) : len &&& 2 = 0 ↔ len.toNat / 2 % 2 = 0 := by
  rw [← BitVec.toNat_inj, BitVec.toNat_and]
  have bit : len.toNat &&& 2 ^ 1 = (len.toNat.testBit 1).toNat * 2 ^ 1 := Nat.and_two_pow _ _
  rw [Nat.testBit_eq_decide_div_mod_eq] at bit
  rcases Nat.mod_two_eq_zero_or_one (len.toNat / 2) with h | h
  · rw [show (2 : U32).toNat = 2 ^ 1 from rfl, bit]
    simp [h]
  · rw [show (2 : U32).toNat = 2 ^ 1 from rfl, bit]
    simp [h]

variable {dest src len : U32}

/-- A length of the form `4k + 1` fails the first test and passes the second. -/
theorem memcpy_diverges {m m' : ByteMem} {u : Unit} (h : len.toNat % 4 = 1) :
    ¬ (memcpy dest src len).Returns m u m' := by
  have h₃ : ¬ len &&& 3 = 0 := by
    rw [and_three_eq_zero]
    omega
  have h₂ : len &&& 2 = 0 := by
    rw [and_two_eq_zero]
    omega
  rw [memcpy, if_neg h₃, if_pos h₂]
  exact copyLoop_diverges (Nat.dvd_refl 2) (by omega)

/-- For every other length the loop that runs has a stride that divides it. -/
theorem memcpy_total (r : Ranges dest src len) {m : ByteMem} (h : len.toNat % 4 ≠ 1) :
    Total (memcpy dest src len) m fun _ m' => Copied dest.toNat src.toNat len.toNat m m' := by
  by_cases h₃ : len &&& 3 = 0
  · rw [memcpy, if_pos h₃]
    exact copyLoop_total r (by decide) move32_moves
      (Nat.dvd_of_mod_eq_zero ((and_three_eq_zero len).mp h₃))
  · rw [memcpy, if_neg h₃]
    rw [and_three_eq_zero] at h₃
    by_cases h₂ : len &&& 2 = 0
    · rw [and_two_eq_zero] at h₂
      omega
    · rw [if_neg h₂]
      exact copyLoop_total r (by decide) move8_moves (Nat.one_dvd _)

/-- `memcpy` does its job exactly when the length is not of the form `4k + 1`. -/
theorem memcpy_iff (r : Ranges dest src len) (m : ByteMem) :
    Copies dest src len m ↔ len.toNat % 4 ≠ 1 := by
  constructor
  · rintro ⟨_, _, hreturns, -⟩ h
    exact memcpy_diverges h hreturns
  · intro h
    exact (memcpy_total r h).mono fun _ _ hcopied => ⟨hcopied.equal r, hcopied⟩

/-- Six bytes are copied byte by byte. -/
theorem memcpy_iff_six : Copies 0x100 0x200 6 .zeros ↔ (6 : U32).toNat % 4 ≠ 1 :=
  memcpy_iff ⟨by decide, by decide, by decide⟩ .zeros

/-- Copying one byte never returns. -/
theorem memcpy_fails :
    ¬ ∀ dest src len : U32, Ranges dest src len → ∀ m, Copies dest src len m := by
  intro h
  obtain ⟨_, _, hreturns, -⟩ := h 0x100 0x200 1 ⟨by decide, by decide, by decide⟩ .zeros
  exact memcpy_diverges (by decide) hreturns

end MyBios
