import Mathlib.Algebra.Ring.Nat

/-!
Counters that wrap.

A counter of `w` bits shows a time modulo `2 ^ w`. A program that waits reads it when it
begins and again later, and asks from the two readings whether `n` ticks have gone by. It
can subtract the readings, or compare the later one with a deadline, the first one plus `n`.

* `lt_of_lt_sub`, `le_of_le_sub`: the difference is never more than the time in between.
* `deadline_iff`: a deadline is not taken for over too early exactly if it does not wrap
  or the counter has wrapped too.
-/

namespace Clock

variable {w start now : Nat} {n : BitVec w}

/-- What a counter of `w` bits shows. -/
def reading (w time : Nat) : BitVec w := BitVec.ofNat w time

@[simp] theorem reading_toNat {time : Nat} : (reading w time).toNat = time % 2 ^ w :=
  BitVec.toNat_ofNat time w

/-! ### Differences -/

/-- The difference of two readings is the time in between, modulo `2 ^ w`. -/
theorem sub_reading (h : start ≤ now) :
    reading w now - reading w start = reading w (now - start) := by
  obtain ⟨elapsed, rfl⟩ := Nat.exists_eq_add_of_le h
  rw [Nat.add_sub_cancel_left, reading, BitVec.ofNat_add, reading, BitVec.add_comm,
    BitVec.add_sub_cancel, reading]

theorem sub_reading_le (h : start ≤ now) :
    (reading w now - reading w start).toNat ≤ now - start := by
  rw [sub_reading h, reading_toNat]
  exact Nat.mod_le _ _

theorem lt_of_lt_sub (h : start ≤ now) (hover : n < reading w now - reading w start) :
    n.toNat < now - start :=
  Nat.lt_of_lt_of_le (BitVec.lt_def.mp hover) (sub_reading_le h)

theorem le_of_le_sub (h : start ≤ now) (hover : n ≤ reading w now - reading w start) :
    n.toNat ≤ now - start :=
  Nat.le_trans (BitVec.le_def.mp hover) (sub_reading_le h)

/-! ### Deadlines -/

/-- The later reading from the earlier one. -/
theorem reading_later (h : start ≤ now) :
    (reading w now).toNat = (start % 2 ^ w + (now - start)) % 2 ^ w := by
  rw [reading_toNat, Nat.mod_add_mod, Nat.add_sub_cancel' h]

theorem mod_le_sub {a m : Nat} (h : m ≤ a) : a % m ≤ a - m := by
  rw [Nat.mod_eq_sub_mod h]
  exact Nat.mod_le _ _

/-- A deadline is not taken for over too early exactly if it does not wrap or the counter
has wrapped too. -/
theorem deadline_iff (h : start ≤ now) :
    (reading w start + n < reading w now → n.toNat < now - start) ↔
      start % 2 ^ w + n.toNat < 2 ^ w ∨ 2 ^ w ≤ start % 2 ^ w + (now - start) := by
  have hstart : start % 2 ^ w < 2 ^ w := Nat.mod_lt _ (Nat.two_pow_pos w)
  have hn : n.toNat < 2 ^ w := n.isLt
  rw [BitVec.lt_def, BitVec.toNat_add, reading_later h, reading_toNat]
  generalize start % 2 ^ w = s at hstart ⊢
  generalize now - start = elapsed
  by_cases hdeadline : s + n.toNat < 2 ^ w
  · rw [Nat.mod_eq_of_lt hdeadline]
    refine iff_of_true ?_ (.inl hdeadline)
    intro hover
    have hle : (s + elapsed) % 2 ^ w ≤ s + elapsed := Nat.mod_le _ _
    omega
  · -- the deadline is small now, and it is over until the counter wraps
    have hwrapped : (s + n.toNat) % 2 ^ w = s + n.toNat - 2 ^ w := by
      rw [Nat.mod_eq_sub_mod (Nat.not_lt.mp hdeadline), Nat.mod_eq_of_lt (by omega)]
    rw [hwrapped]
    by_cases hcounter : 2 ^ w ≤ s + elapsed
    · refine iff_of_true ?_ (.inr hcounter)
      intro hover
      have hle : (s + elapsed) % 2 ^ w ≤ s + elapsed - 2 ^ w := mod_le_sub hcounter
      omega
    · rw [Nat.mod_eq_of_lt (Nat.not_le.mp hcounter)]
      refine iff_of_false ?_ (by omega)
      intro hsound
      have := hsound (by omega)
      omega

end Clock
