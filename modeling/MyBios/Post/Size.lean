import MyBios.Post.Restore

/-!
The size that `probeRam` finds.

Memory has the words of `n` bytes from `start` on, and a write anywhere else is lost
(`IsRam`). The loop tests the last word of each block. `probeRam_size`: it counts the whole
blocks among the `n` bytes, also when the last block is not whole, and leaves the memory as
it was.
-/

namespace MyBios

open Prog

/-- The words of the `n` bytes from `start` on hold data, and nothing else does. -/
def IsRam (m : CellMemory) (start : U32) (n : Nat) : Prop :=
  ∀ a, (m.cell a).writable = if (a - start).toNat / 4 * 4 + 4 ≤ n then BitVec.allOnes 8 else 0

section Words

variable {m : CellMemory} {start stride i : U32} {n j k : Nat}

/-- A word `4 * j` bytes from the start: all of its cells are there, or none is. -/
theorem writable_word (ram : IsRam m start n) (hj : 4 * j + 4 ≤ 2 ^ 32) :
    CellMemory.writable 4 (start + BitVec.ofNat 32 (4 * j)) m =
      Lane.gather 4 fun _ => if 4 * j + 4 ≤ n then BitVec.allOnes 8 else 0 := by
  refine Lane.gather_congr ?_
  intro k hk
  have hoffset : (start + BitVec.ofNat 32 (4 * j) + BitVec.ofNat 32 k - start).toNat =
      4 * j + k := by
    rw [BitVec.add_assoc, ← BitVec.ofNat_add, BitVec.add_comm, BitVec.add_sub_cancel,
      BitVec.toNat_ofNat, Nat.mod_eq_of_lt (by omega)]
  have hword : (4 * j + k) / 4 * 4 = 4 * j := by omega
  rw [ram, hoffset, hword]

theorem good_inside (ram : IsRam m start n) (hj : 4 * j + 4 ≤ 2 ^ 32) (hn : 4 * j + 4 ≤ n) :
    Good m (start + BitVec.ofNat 32 (4 * j)) := by
  rw [Good, writable_word ram hj, if_pos hn]
  decide

/-- A word outside: nothing is stored in it. -/
theorem lost_outside (ram : IsRam m start n) (hj : 4 * j + 4 ≤ 2 ^ 32) (hn : n < 4 * j + 4) :
    ¬ Good m (start + BitVec.ofNat 32 (4 * j)) ∧ Unharmed m (start + BitVec.ofNat 32 (4 * j)) := by
  have hzero : CellMemory.writable 4 (start + BitVec.ofNat 32 (4 * j)) m = 0#32 := by
    rw [writable_word ram hj, if_neg (by omega)]
    decide
  constructor
  · rw [Good, hzero]
    decide
  · rw [Unharmed, hzero, BitVec.and_zero, BitVec.and_zero]

end Words

/-! ### The blocks -/

section Blocks

variable {m : CellMemory} {start stride : U32} {n j k : Nat}

/-- Block `k` ends with a word. -/
theorem lastWord (positive : 0 < stride.toNat) (multiple : 4 ∣ stride.toNat) (k : Nat) :
    ∃ j, 4 * j + 4 = stride.toNat * (k + 1) := by
  obtain ⟨c, hc⟩ := multiple
  have hpos : 0 < c * (k + 1) := Nat.mul_pos (by omega) (Nat.succ_pos k)
  refine ⟨c * (k + 1) - 1, ?_⟩
  rw [hc, Nat.mul_assoc]
  omega

/-- It is the word that is tested. -/
theorem testPoint_word (hj : 4 * j + 4 = stride.toNat * (k + 1)) :
    testPoint start stride k = start + BitVec.ofNat 32 (4 * j) := by
  have hend : BitVec.ofNat 32 (4 * j) + 4 = stride * BitVec.ofNat 32 (k + 1) := by
    rw [show (4 : U32) = BitVec.ofNat 32 4 from rfl, ← BitVec.ofNat_add, hj, BitVec.ofNat_mul,
      BitVec.ofNat_toNat, BitVec.setWidth_eq]
  rw [testPoint]
  rw [BitVec.ofNat_add, BitVec.mul_add] at hend
  grind

/-- The test points up to the first block that is not whole do not wrap. -/
theorem testPoint_inRange (hj : 4 * j + 4 = stride.toNat * (k + 1))
    (fits : start.toNat + stride.toNat * (k + 1) < 2 ^ 32) :
    testPoint start stride k < 0xffffffff := by
  rw [testPoint_word hj]
  show (start + BitVec.ofNat 32 (4 * j)).toNat < 0xffffffff
  rw [BitVec.toNat_add, BitVec.toNat_ofNat]
  omega

/-- A whole block is counted. -/
theorem probePass_whole (ram : IsRam m start n) (hj : 4 * j + 4 = stride.toNat * (k + 1))
    (fits : start.toNat + stride.toNat * (k + 1) < 2 ^ 32) (whole : stride.toNat * (k + 1) ≤ n) :
    (probePass start stride (testPoint start stride k, stride * BitVec.ofNat 32 k)).Returns m
      (.again (testPoint start stride (k + 1), stride * BitVec.ofNat 32 (k + 1))) m := by
  rw [probePass_eq, if_pos (testPoint_inRange hj fits), testPoint_found, ← testPoint_succ]
  refine samplePass_good ?_
  rw [testPoint_word hj]
  exact good_inside ram (by omega) (by omega)

/-- The first block that is not whole ends the loop. -/
theorem probePass_part (ram : IsRam m start n) (hj : 4 * j + 4 = stride.toNat * (k + 1))
    (fits : start.toNat + stride.toNat * (k + 1) < 2 ^ 32) (part : n < stride.toNat * (k + 1)) :
    (probePass start stride (testPoint start stride k, stride * BitVec.ofNat 32 k)).Returns m
      (.done (stride * BitVec.ofNat 32 k)) m := by
  obtain ⟨hfaulty, hunharmed⟩ := lost_outside ram (j := j) (by omega) (by omega)
  rw [← testPoint_word hj] at hfaulty hunharmed
  have hpass := samplePass_faulty (testPoint start stride (k + 1), stride * BitVec.ofNat 32 (k + 1))
    (stride * BitVec.ofNat 32 k) hfaulty
  rw [left_iff.mpr hunharmed] at hpass
  rw [probePass_eq, if_pos (testPoint_inRange hj fits), testPoint_found, ← testPoint_succ]
  exact hpass

/-- The loop counts the whole blocks and leaves the memory as it was. -/
theorem probeRam_size (positive : 0 < stride.toNat) (multiple : 4 ∣ stride.toNat)
    (fits : start.toNat + n + stride.toNat < 2 ^ 32) (ram : IsRam m start n) :
    Total (probeRam start stride) m fun bytes t =>
      bytes.toNat = n / stride.toNat * stride.toNat ∧ t = m := by
  have hblocks : stride.toNat * (n / stride.toNat) ≤ n := Nat.mul_div_le n stride.toNat
  have hwhole : ∀ k < n / stride.toNat, stride.toNat * (k + 1) ≤ n := fun k hk =>
    Nat.le_trans (Nat.mul_le_mul_left _ hk) hblocks
  have hpart : n < stride.toNat * (n / stride.toNat + 1) := Nat.lt_mul_div_succ n positive
  have total : Total (loop (probePass start stride)
      (testPoint start stride 0, stride * BitVec.ofNat 32 0)) m fun bytes t =>
        bytes = stride * BitVec.ofNat 32 (n / stride.toNat) ∧ t = m := by
    refine Total.loop_counted (I := fun _ t => t = m) (n := n / stride.toNat)
      (b := fun k => (testPoint start stride k, stride * BitVec.ofNat 32 k)) ?_ ?_ rfl
    · rintro k _ hk rfl
      obtain ⟨j, hj⟩ := lastWord positive multiple k
      have hle := hwhole k hk
      exact ⟨_, probePass_whole ram hj (by omega) hle, rfl⟩
    · rintro _ rfl
      obtain ⟨j, hj⟩ := lastWord positive multiple (n / stride.toNat)
      rw [Nat.mul_succ] at hpart hj
      exact ⟨_, _, probePass_part ram hj (by rw [Nat.mul_succ]; omega) hpart, rfl, rfl⟩
  rw [testPoint, BitVec.mul_zero, BitVec.add_zero] at total
  refine total.mono ?_
  rintro bytes t ⟨rfl, rfl⟩
  have hsize : n / stride.toNat ≤ n := Nat.div_le_self _ _
  rw [BitVec.toNat_mul, BitVec.toNat_ofNat, Nat.mod_eq_of_lt (by omega : n / stride.toNat < 2 ^ 32),
    Nat.mod_eq_of_lt (by omega), Nat.mul_comm]
  exact ⟨rfl, rfl⟩

end Blocks

/-- Memory of zeros with `n` bytes of words from `start` on. -/
def ramOf (start : U32) (n : Nat) : CellMemory where
  cell a :=
    { value := 0
      writable := if (a - start).toNat / 4 * 4 + 4 ≤ n then BitVec.allOnes 8 else 0
      clears := 0
      apart := BitVec.and_zero }
  plain _ := rfl

/-- Two and a half blocks of 1 KB at 1 MB. -/
theorem probeRam_size_extended :
    Total (probeRam 0x100000 0x400) (ramOf 0x100000 0xA00) fun bytes t =>
      bytes.toNat = 0x800 ∧ t = ramOf 0x100000 0xA00 :=
  probeRam_size (n := 0xA00) (by decide) (by decide) (by decide) fun _ => rfl

end MyBios
