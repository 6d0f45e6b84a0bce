import Mathlib.Logic.Basic

/-!
Lanes of a word: the bits from some position on, as a word of their own.

A device register is often wider or narrower than what a program reads and writes at
once. `get w k x` is the `w` bits of `x` from bit `k` on; `set k v x` puts `v` there,
the way a program does it with a mask and a shift.

* `get_set`, `set_get`, `set_set`: the laws of a reader and a writer of one place.
* `get_set_disjoint`: the bits outside a lane stay.
* `append_get`: the lanes of two parts, the lower one behind, are the lane of the whole.
* `get_gather`: the lanes of a word that is put together from bytes.
* `ext`: a word is determined by its lanes of one width.
-/

namespace Lane

variable {n w w' k k' i j : Nat} {x : BitVec n}

/-- The `w` bits of `x` from bit `k` on. -/
def get (w k : Nat) (x : BitVec n) : BitVec w := (x >>> k).setWidth w

/-- `x` with the bits from bit `k` on replaced by `v`. -/
def set (k : Nat) (v : BitVec w) (x : BitVec n) : BitVec n :=
  (x &&& ~~~((BitVec.allOnes w).setWidth n <<< k)) ||| (v.setWidth n <<< k)

theorem getLsbD_get : (get w k x).getLsbD i = (decide (i < w) && x.getLsbD (k + i)) := by
  rw [get, BitVec.getLsbD_setWidth, BitVec.getLsbD_ushiftRight]

/-- The bits of the lane are those of `v`, all others those of `x`. -/
theorem getLsbD_set {v : BitVec w} (hj : j < n) :
    (set k v x).getLsbD j = if k ≤ j ∧ j < k + w then v.getLsbD (j - k) else x.getLsbD j := by
  have hn : j - k < n := by omega
  simp only [set, BitVec.getLsbD_or, BitVec.getLsbD_and, BitVec.getLsbD_not,
    BitVec.getLsbD_shiftLeft, BitVec.getLsbD_setWidth, BitVec.getLsbD_allOnes, hj, hn,
    decide_true, Bool.true_and]
  by_cases hk : j < k
  · rw [if_neg (by omega)]
    simp [hk]
  · by_cases hw : j - k < w
    · rw [if_pos (by omega)]
      simp [hk, hw]
    · rw [if_neg (by omega)]
      simp [hk, hw, BitVec.getLsbD_of_ge v (j - k) (by omega)]

/-- What was put is what is read. -/
theorem get_set {v : BitVec w} (h : k + w ≤ n) : get w k (set k v x) = v := by
  apply BitVec.eq_of_getLsbD_eq
  intro i hi
  rw [getLsbD_get, getLsbD_set (by omega), if_pos (by omega), decide_eq_true hi, Bool.true_and,
    Nat.add_sub_cancel_left]

/-- Putting back what was read changes nothing. -/
theorem set_get : set k (get w k x) x = x := by
  apply BitVec.eq_of_getLsbD_eq
  intro j hj
  rw [getLsbD_set hj]
  split
  · rw [getLsbD_get, decide_eq_true (by omega), Bool.true_and, Nat.add_sub_cancel' (by omega)]
  · rfl

/-- The last value that was put counts. -/
theorem set_set {u v : BitVec w} : set k v (set k u x) = set k v x := by
  apply BitVec.eq_of_getLsbD_eq
  intro j hj
  rw [getLsbD_set hj, getLsbD_set hj, getLsbD_set hj]
  split <;> rfl

/-- A lane next to the one that was set. -/
theorem get_set_disjoint {v : BitVec w} (h : k' + w' ≤ k ∨ k + w ≤ k') :
    get w' k' (set k v x) = get w' k' x := by
  apply BitVec.eq_of_getLsbD_eq
  intro i hi
  rw [getLsbD_get, getLsbD_get, decide_eq_true hi]
  by_cases hn : k' + i < n
  · rw [getLsbD_set hn, if_neg (by omega)]
  · rw [BitVec.getLsbD_of_ge _ _ (by omega), BitVec.getLsbD_of_ge _ _ (by omega)]

/-- A lane of a lane. -/
theorem get_get (h : k + w ≤ w') : get w k (get w' k' x) = get w (k' + k) x := by
  apply BitVec.eq_of_getLsbD_eq
  intro i hi
  rw [getLsbD_get, getLsbD_get, getLsbD_get, decide_eq_true (by omega : k + i < w'), Bool.true_and,
    Nat.add_assoc]

/-- A lane is made of its lower and its upper part. -/
theorem append_get (h : k' = k + w) : get w' k' x ++ get w k x = get (w' + w) k x := by
  subst h
  apply BitVec.eq_of_getLsbD_eq
  intro i hi
  rw [getLsbD_get, BitVec.getLsbD_append, decide_eq_true hi]
  by_cases hlow : i < w
  · rw [if_pos hlow, getLsbD_get, decide_eq_true hlow]
  · rw [if_neg hlow, getLsbD_get, decide_eq_true (by omega : i - w < w'), Nat.add_assoc,
      Nat.add_sub_cancel' (by omega)]

/-- The lane that is the whole word. -/
theorem get_self : get n 0 x = x := by
  apply BitVec.eq_of_getLsbD_eq
  intro i hi
  rw [getLsbD_get, decide_eq_true hi, Bool.true_and, Nat.zero_add]

section Logic

variable {y : BitVec n}

theorem get_and : get w k (x &&& y) = get w k x &&& get w k y := by
  rw [get, BitVec.ushiftRight_and_distrib, BitVec.setWidth_and, get, get]

theorem get_or : get w k (x ||| y) = get w k x ||| get w k y := by
  rw [get, BitVec.ushiftRight_or_distrib, BitVec.setWidth_or, get, get]

theorem get_not (h : k + w ≤ n) : get w k (~~~x) = ~~~(get w k x) := by
  apply BitVec.eq_of_getLsbD_eq
  intro i hi
  rw [getLsbD_get, BitVec.getLsbD_not, BitVec.getLsbD_not, getLsbD_get, decide_eq_true hi,
    decide_eq_true (by omega), Bool.true_and, Bool.true_and]
  rfl

/-- Words with the same lanes are equal. -/
theorem ext (hw : 0 < w) (h : ∀ k, k * w < n → get w (k * w) x = get w (k * w) y) : x = y := by
  apply BitVec.eq_of_getLsbD_eq
  intro j hj
  have hmod := Nat.mod_lt j hw
  have hbit := congrArg (fun v : BitVec w => v.getLsbD (j % w))
    (h (j / w) (Nat.lt_of_le_of_lt (Nat.div_mul_le_self j w) hj))
  simp only [getLsbD_get, hmod, decide_true, Bool.true_and] at hbit
  rwa [Nat.mul_comm, Nat.div_add_mod] at hbit

end Logic

/-! ### Words of bytes -/

/-- A word of `b` bytes, the first one lowest. -/
def gather : (b : Nat) → (Nat → BitVec 8) → BitVec (8 * b)
  | 0, _ => 0#0
  | b + 1, f => gather b (fun k => f (k + 1)) ++ f 0

theorem get_gather {b : Nat} {f : Nat → BitVec 8} (h : k < b) :
    get 8 (k * 8) (gather b f) = f k := by
  induction b generalizing f k with
  | zero => exact absurd h (Nat.not_lt_zero k)
  | succ b ih =>
      cases k with
      | zero =>
          apply BitVec.eq_of_getLsbD_eq
          intro i hi
          rw [getLsbD_get, decide_eq_true hi, Bool.true_and, gather, Nat.zero_mul, Nat.zero_add]
          exact (BitVec.getLsbD_append).trans (if_pos hi)
      | succ k =>
          rw [← ih (f := fun k => f (k + 1)) (Nat.lt_of_succ_lt_succ h)]
          apply BitVec.eq_of_getLsbD_eq
          intro i hi
          have hhigh : (k + 1) * 8 + i - 8 = k * 8 + i := by omega
          rw [getLsbD_get, getLsbD_get, decide_eq_true hi, Bool.true_and, Bool.true_and, gather,
            ← hhigh]
          exact (BitVec.getLsbD_append).trans (if_neg (by omega))

theorem gather_congr {b : Nat} {f g : Nat → BitVec 8} (h : ∀ k < b, f k = g k) :
    gather b f = gather b g := by
  induction b generalizing f g with
  | zero => rfl
  | succ b ih =>
      rw [gather, gather, h 0 (Nat.zero_lt_succ b), ih fun k hk => h (k + 1) (Nat.succ_lt_succ hk)]

end Lane
