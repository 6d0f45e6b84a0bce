import Mathlib.Data.List.Basic
import Mathlib.Logic.Function.Basic
import Mathlib.Tactic.SplitIfs

/-!
Ring buffers with two indices.

A ring of `n` cells is read at `tail` and written at `head`; `head = tail`
means empty, so at most `n - 1` cells are occupied and the cell at `head` is
always free. `contents n cell tail head` lists the occupied cells, oldest
first.

* `contents_write_head`: a store at `head` touches no occupied cell.
* `contents_push`: store at `head`, then advance it: the value joins at the end.
* `contents_pop`: a non-empty ring is the cell at `tail` followed by the ring
  with `tail` advanced.
* `contents_congr`: only the occupied cells matter.
-/

namespace RingBuffer

variable {α : Type} {n tail head : Nat} {cell cell' : Nat → α}

/-- The number of occupied cells. -/
def count (n tail head : Nat) : Nat := (head + n - tail) % n

/-- The occupied cells, oldest first. -/
def contents (n : Nat) (cell : Nat → α) (tail head : Nat) : List α :=
  (List.range (count n tail head)).map fun i => cell ((tail + i) % n)

/-! ### Index arithmetic -/

/-- Below twice the size a remainder wraps at most once. -/
theorem mod_wrap {a : Nat} (h : a < 2 * n) : a % n = if a < n then a else a - n := by
  split
  · exact Nat.mod_eq_of_lt ‹_›
  · rw [Nat.mod_eq_sub_mod (by omega), Nat.mod_eq_of_lt (by omega)]

theorem count_eq (ht : tail < n) (hh : head < n) :
    count n tail head = if tail ≤ head then head - tail else head + n - tail := by
  rw [count, mod_wrap (by omega)]
  split <;> split <;> omega

theorem count_lt (ht : tail < n) (hh : head < n) : count n tail head < n := by
  rw [count_eq ht hh]
  split <;> omega

@[simp] theorem count_self : count n tail tail = 0 := by
  simp [count]

theorem succ_mod_lt (h : head < n) : (head + 1) % n < n :=
  Nat.mod_lt _ (by omega)

theorem succ_mod_eq (h : head < n) : (head + 1) % n = if head + 1 < n then head + 1 else 0 := by
  rw [mod_wrap (by omega)]
  split <;> omega

/-- A full ring is one whose head would step onto its tail. -/
theorem count_push (ht : tail < n) (hh : head < n) (room : (head + 1) % n ≠ tail) :
    count n tail ((head + 1) % n) = count n tail head + 1 := by
  rw [count_eq ht (succ_mod_lt hh), count_eq ht hh]
  rw [succ_mod_eq hh] at room ⊢
  split_ifs at room ⊢ <;> omega

theorem count_pop (ht : tail < n) (hh : head < n) (used : head ≠ tail) :
    count n tail head = count n ((tail + 1) % n) head + 1 := by
  rw [count_eq ht hh, count_eq (succ_mod_lt ht) hh, succ_mod_eq ht]
  split_ifs <;> omega

/-- The cell at `head` is not occupied. -/
theorem slot_ne_head (ht : tail < n) (hh : head < n) {i : Nat} (hi : i < count n tail head) :
    (tail + i) % n ≠ head := by
  have hn := count_lt ht hh
  rw [count_eq ht hh] at hi hn
  rw [mod_wrap (by omega)]
  split_ifs at hi ⊢ <;> omega

/-- The cell that a push fills is the one at `head`. -/
theorem slot_count (ht : tail < n) (hh : head < n) : (tail + count n tail head) % n = head := by
  have hn := count_lt ht hh
  rw [mod_wrap (by omega), count_eq ht hh]
  split_ifs <;> omega

/-- While `head` has not wrapped past `tail`, the occupied cells lie below it. -/
theorem slot_lt (ht : tail ≤ head) (hh : head < n) {i : Nat} (hi : i < count n tail head) :
    (tail + i) % n < head := by
  rw [count_eq (by omega) hh, if_pos ht] at hi
  rw [Nat.mod_eq_of_lt (by omega)]
  omega

theorem slot_succ {i : Nat} : ((tail + 1) % n + i) % n = (tail + (i + 1)) % n := by
  rw [Nat.mod_add_mod]
  congr 1
  omega

/-! ### Contents -/

@[simp] theorem contents_self : contents n cell tail tail = [] := by
  simp [contents]

/-- Only the occupied cells matter. -/
theorem contents_congr
    (h : ∀ i < count n tail head, cell ((tail + i) % n) = cell' ((tail + i) % n)) :
    contents n cell tail head = contents n cell' tail head :=
  List.map_congr_left fun i hi => h i (List.mem_range.mp hi)

/-- A store at `head` touches no occupied cell. -/
theorem contents_write_head (ht : tail < n) (hh : head < n) {v : α} :
    contents n (Function.update cell head v) tail head = contents n cell tail head :=
  contents_congr fun _ hi => Function.update_of_ne (slot_ne_head ht hh hi) _ _

/-- Advancing `head` past the cell it points at appends that cell. -/
theorem contents_advance (ht : tail < n) (hh : head < n) (room : (head + 1) % n ≠ tail) :
    contents n cell tail ((head + 1) % n) = contents n cell tail head ++ [cell head] := by
  rw [contents, count_push ht hh room, List.range_succ, List.map_append, List.map_singleton,
    slot_count ht hh]
  rfl

/-- Store at `head` and advance it: the value joins at the end. -/
theorem contents_push (ht : tail < n) (hh : head < n) (room : (head + 1) % n ≠ tail) {v : α} :
    contents n (Function.update cell head v) tail ((head + 1) % n) =
      contents n cell tail head ++ [v] := by
  rw [contents_advance ht hh room, contents_write_head ht hh, Function.update_self]

/-- A non-empty ring is its oldest cell and the ring with `tail` advanced. -/
theorem contents_pop (ht : tail < n) (hh : head < n) (used : head ≠ tail) :
    contents n cell tail head = cell tail :: contents n cell ((tail + 1) % n) head := by
  rw [contents, count_pop ht hh used, List.range_succ_eq_map, List.map_cons, List.map_map,
    contents]
  refine congrArg₂ List.cons ?_ (List.map_congr_left fun i _ => ?_)
  · rw [Nat.add_zero, Nat.mod_eq_of_lt ht]
  · rw [Function.comp_apply, slot_succ]

end RingBuffer
