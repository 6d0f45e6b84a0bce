import Mathlib.Data.List.Basic
import Mathlib.Logic.Basic

/-!
Tables inside a larger state, filled by a sequence of stores.

A `Table` has an entry for each index: storing one makes it the entry of its index and
leaves the others alone. After several stores each index has what was stored for it
last, and the old entry if nothing was.
-/

/-- Entries of type `E` at indices of type `I`, in a state of type `M`. -/
structure Table (M I E : Type) where
  get : I → M → E
  set : I → E → M → M
  get_set : ∀ i e m, get i (set i e m) = e
  get_set_of_ne : ∀ {i j} e m, i ≠ j → get i (set j e m) = get i m

namespace Table

variable {M I E : Type} [DecidableEq I] (t : Table M I E)

/-- The stores in order. -/
def fill (writes : List (I × E)) (m : M) : M := writes.foldl (fun m w => t.set w.1 w.2 m) m

/-- The last entry that the stores have for an index. -/
def last (writes : List (I × E)) (i : I) (old : E) : E :=
  writes.foldl (fun e w => if w.1 = i then w.2 else e) old

variable {writes : List (I × E)} {i : I} {m : M}

/-- What each index has after the stores. -/
theorem get_fill : t.get i (t.fill writes m) = last writes i (t.get i m) := by
  unfold fill last
  induction writes generalizing m with
  | nil => rfl
  | cons w writes ih =>
      rw [List.foldl_cons, List.foldl_cons, ih]
      by_cases h : w.1 = i
      · rw [if_pos h, ← h, t.get_set]
      · rw [if_neg h, t.get_set_of_ne _ _ (Ne.symm h)]

omit [DecidableEq I] in
/-- What every store keeps, all of them keep. -/
theorem fill_invariant {P : M → Prop} (keep : ∀ w ∈ writes, ∀ m, P m → P (t.set w.1 w.2 m))
    (h : P m) : P (t.fill writes m) := by
  unfold fill
  induction writes generalizing m with
  | nil => exact h
  | cons w writes ih =>
      exact ih (fun w' hw' => keep w' (List.mem_cons_of_mem w hw'))
        (keep w List.mem_cons_self m h)

theorem last_append {writes' : List (I × E)} {old : E} :
    last (writes ++ writes') i old = last writes' i (last writes i old) := List.foldl_append

/-- Entries that are computed from the values stored. -/
theorem last_map_value {V : Type} {values : List (I × V)} (f : V → E) (old : V) :
    last (values.map fun w => (w.1, f w.2)) i (f old) = f (last values i old) := by
  unfold last
  induction values generalizing old with
  | nil => rfl
  | cons w values ih =>
      rw [List.map_cons, List.foldl_cons, List.foldl_cons, ← ih]
      by_cases h : w.1 = i
      · rw [if_pos h, if_pos h]
      · rw [if_neg h, if_neg h]

/-- If every index of interest is stored to, the old entries do not count. -/
theorem last_old {old old' : E} (h : ∃ w ∈ writes, w.1 = i) :
    last writes i old = last writes i old' := by
  unfold last
  induction writes generalizing old old' with
  | nil => simp at h
  | cons w writes ih =>
      rw [List.foldl_cons, List.foldl_cons]
      by_cases hw : w.1 = i
      · rw [if_pos hw, if_pos hw]
      · rw [if_neg hw, if_neg hw]
        obtain ⟨w', hmem, hi⟩ := h
        rcases List.mem_cons.mp hmem with rfl | hmem
        · exact absurd hi hw
        · exact ih ⟨w', hmem, hi⟩

/-- Stores at other indices do not count. -/
theorem last_of_forall_ne {old : E} (h : ∀ w ∈ writes, w.1 ≠ i) : last writes i old = old := by
  unfold last
  induction writes generalizing old with
  | nil => rfl
  | cons w writes ih =>
      rw [List.foldl_cons, if_neg (h w List.mem_cons_self)]
      exact ih fun w' hw' => h w' (List.mem_cons_of_mem w hw')

/-- One store for each index of a list: each has its own. -/
theorem last_map {is : List I} {f : I → E} {old : E} (h : i ∈ is) :
    last (is.map fun j => (j, f j)) i old = f i := by
  unfold last
  induction is generalizing old with
  | nil => cases h
  | cons j is ih =>
      rw [List.map_cons, List.foldl_cons]
      by_cases hi : i ∈ is
      · exact ih hi
      · obtain rfl : i = j := (List.mem_cons.mp h).resolve_right hi
        rw [if_pos rfl]
        refine last_of_forall_ne ?_
        intro w hw
        obtain ⟨k, hk, rfl⟩ := List.mem_map.mp hw
        rintro rfl
        exact hi hk

end Table
