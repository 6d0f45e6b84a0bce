import Mathlib.Data.BitVec

/-!
Device registers whose bits do not all take what is written to them.

A bit of a `Register` is writable, or is cleared by writing 1 to it, or is read-only: two
masks say which. `getLsbD_write` says what a write makes of each bit. In a plain register,
one without bits of the second kind, the last write counts and writing back the value
changes nothing.

`addressMask k` has the bits from `k` on, the writable bits of a register that holds the
address of a range of `2 ^ k` bytes: `not_addressMask` reads the size off the mask.
-/

/-- A register of `n` bits. -/
@[ext] structure Register (n : Nat) where
  value : BitVec n
  /-- The bits that take what is written. -/
  writable : BitVec n
  /-- The bits that are cleared by writing 1. -/
  clears : BitVec n
  apart : writable &&& clears = 0

namespace Register

variable {n k j i : Nat} {r : Register n} {u v : BitVec n}

def write (v : BitVec n) (r : Register n) : Register n :=
  { r with
    value := (v &&& r.writable) ||| (r.value &&& ~~~r.writable &&& ~~~(v &&& r.clears)) }

@[simp] theorem write_writable : (r.write v).writable = r.writable := rfl

@[simp] theorem write_clears : (r.write v).clears = r.clears := rfl

theorem value_write : (r.write v).value =
    (v &&& r.writable) ||| (r.value &&& ~~~r.writable &&& ~~~(v &&& r.clears)) := rfl

/-- A bit is what is written, or is cleared, or stays. -/
theorem getLsbD_write (hi : i < n) : (r.write v).value.getLsbD i =
    if r.writable.getLsbD i then v.getLsbD i
    else r.value.getLsbD i && !(v.getLsbD i && r.clears.getLsbD i) := by
  simp only [value_write, BitVec.getLsbD_or, BitVec.getLsbD_and, BitVec.getLsbD_not, hi,
    decide_true, Bool.true_and]
  cases r.writable.getLsbD i <;> simp

/-- Bits that are added by a read and a write: they are set, and what a write of 1 clears is
cleared where it was set. -/
theorem value_write_or (hv : v &&& r.writable = v) :
    (r.write (r.value ||| v)).value = (r.value &&& ~~~r.clears) ||| v := by
  apply BitVec.eq_of_getLsbD_eq
  intro i hi
  have hin := congrArg (fun x : BitVec n => x.getLsbD i) hv
  have hapart : (r.writable.getLsbD i && r.clears.getLsbD i) = false := by
    rw [← BitVec.getLsbD_and, r.apart]
    exact BitVec.getLsbD_zero
  rw [BitVec.getLsbD_and] at hin
  rw [getLsbD_write hi, BitVec.getLsbD_or, BitVec.getLsbD_or, BitVec.getLsbD_and,
    BitVec.getLsbD_not, decide_eq_true hi]
  cases hwritable : r.writable.getLsbD i with
  | true =>
      rw [hwritable, Bool.true_and] at hapart
      simp [hapart]
  | false =>
      rw [hwritable, Bool.and_false] at hin
      cases r.value.getLsbD i <;> simp [← hin]

/-- Where none of the bits is set, clearing them does nothing. -/
theorem and_not_of_apart {w : BitVec n} (h : v &&& w = 0) : v &&& ~~~w = v := by
  calc v &&& ~~~w = (v &&& w) ||| (v &&& ~~~w) := by
        rw [h]
        exact (BitVec.zero_or).symm
    _ = v &&& (w ||| ~~~w) := BitVec.and_or_distrib_left.symm
    _ = v := by simp

/-- Without bits that a write clears. -/
def Plain (r : Register n) : Prop := r.clears = 0

theorem Plain.write (h : r.Plain) : (r.write v).Plain := h

theorem Plain.value_write (h : r.Plain) :
    (r.write v).value = (v &&& r.writable) ||| (r.value &&& ~~~r.writable) := by
  rw [Register.value_write, show r.clears = 0#n from h, BitVec.and_zero, BitVec.not_zero,
    BitVec.and_allOnes]

theorem Plain.getLsbD_write (h : r.Plain) (hi : i < n) : (r.write v).value.getLsbD i =
    if r.writable.getLsbD i then v.getLsbD i else r.value.getLsbD i := by
  have hclears : r.clears.getLsbD i = false := by rw [show r.clears = 0 from h]; simp
  rw [Register.getLsbD_write hi, hclears, Bool.and_false, Bool.not_false, Bool.and_true]

/-- The last write counts. -/
theorem Plain.write_write (h : r.Plain) : (r.write u).write v = r.write v := by
  refine Register.ext ?_ rfl rfl
  apply BitVec.eq_of_getLsbD_eq
  intro i hi
  rw [h.write.getLsbD_write hi, h.getLsbD_write hi, h.getLsbD_write hi, write_writable]
  split <;> rfl

/-- Writing back the value changes nothing. -/
theorem Plain.write_value (h : r.Plain) : r.write r.value = r := by
  refine Register.ext ?_ rfl rfl
  apply BitVec.eq_of_getLsbD_eq
  intro i hi
  rw [h.getLsbD_write hi]
  split <;> rfl

/-- Two words that agree in the bits of a mask and in the others. -/
theorem eq_of_masked {x y w : BitVec n} (h : x &&& w = y &&& w)
    (h' : x &&& ~~~w = y &&& ~~~w) : x = y := by
  have parts : ∀ z : BitVec n, z = (z &&& w) ||| (z &&& ~~~w) := by
    intro z
    rw [← BitVec.and_or_distrib_left, BitVec.or_not_self, BitVec.and_allOnes]
  rw [parts x, h, h', ← parts y]

/-- The parts of a value that is made of two words by a mask. -/
theorem masked_and {x y w : BitVec n} : ((x &&& w) ||| (y &&& ~~~w)) &&& w = x &&& w := by
  have hapart : ~~~w &&& w = 0#n := BitVec.not_and_self w
  rw [BitVec.and_or_distrib_right, BitVec.and_assoc, BitVec.and_self, BitVec.and_assoc, hapart,
    BitVec.and_zero, BitVec.or_zero]

theorem masked_and_not {x y w : BitVec n} :
    ((x &&& w) ||| (y &&& ~~~w)) &&& ~~~w = y &&& ~~~w := by
  have hapart : w &&& ~~~w = 0#n := BitVec.and_not_self w
  rw [BitVec.and_or_distrib_right, BitVec.and_assoc, hapart, BitVec.and_zero, BitVec.zero_or,
    BitVec.and_assoc, BitVec.and_self]

/-- A value reads back when the stuck bits have it already. -/
theorem Plain.reads_back (h : r.Plain) :
    (r.write v).value = v ↔ r.value &&& ~~~r.writable = v &&& ~~~r.writable := by
  rw [h.value_write]
  constructor
  · intro heq
    rw [← masked_and_not (x := v), heq]
  · intro hstuck
    refine eq_of_masked masked_and ?_
    rw [masked_and_not, hstuck]

/-- A write changes nothing when the writable bits have the value already. -/
theorem Plain.write_eq_self (h : r.Plain) :
    r.write v = r ↔ v &&& r.writable = r.value &&& r.writable := by
  constructor
  · intro heq
    have hvalue := congrArg Register.value heq
    rw [h.value_write] at hvalue
    rw [← hvalue, masked_and]
  · intro hwritable
    refine Register.ext ?_ rfl rfl
    rw [h.value_write]
    refine eq_of_masked ?_ masked_and_not
    rw [masked_and, hwritable]

/-! ### Address masks -/

/-- The bits from `k` on. -/
def addressMask (n k : Nat) : BitVec n := BitVec.allOnes n <<< k

@[simp] theorem getLsbD_addressMask : (addressMask n k).getLsbD i = decide (k ≤ i ∧ i < n) := by
  rw [addressMask, BitVec.getLsbD_shiftLeft, BitVec.getLsbD_allOnes]
  by_cases hk : k ≤ i
  · by_cases hi : i < n
    · simp [hk, hi]
      omega
    · simp [hi]
  · simp [hk]

/-- The two's complement of a mask is the size of the range. -/
theorem neg_addressMask : -(addressMask n k) = BitVec.twoPow n k := by
  rw [addressMask, BitVec.shiftLeft_eq_mul_twoPow, ← BitVec.neg_mul, ← BitVec.neg_one_eq_allOnes,
    BitVec.neg_neg, BitVec.one_mul]

/-- An address that is a multiple of `2 ^ k`. -/
def Aligned (k : Nat) (address : BitVec n) : Prop := address &&& addressMask n k = address

instance {address : BitVec n} : Decidable (Aligned k address) :=
  inferInstanceAs (Decidable (_ = _))

theorem Aligned.getLsbD (h : Aligned k v) (hi : i < k) : v.getLsbD i = false := by
  have hbit := congrArg (fun x : BitVec n => x.getLsbD i) h
  rw [BitVec.getLsbD_and, getLsbD_addressMask, decide_eq_false (by omega), Bool.and_false] at hbit
  exact hbit.symm

/-- A multiple of `2 ^ k` is one of each smaller power. -/
theorem Aligned.mono (h : Aligned k v) (hjk : j ≤ k) : Aligned j v := by
  apply BitVec.eq_of_getLsbD_eq
  intro i hi
  rw [BitVec.getLsbD_and, getLsbD_addressMask]
  by_cases hin : j ≤ i
  · rw [decide_eq_true ⟨hin, hi⟩, Bool.and_true]
  · rw [h.getLsbD (by omega), Bool.false_and]

end Register
