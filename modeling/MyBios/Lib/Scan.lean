import Mathlib.Data.List.TakeWhile

/-!
Searching a list for its `n`-th hit, giving up at the first gap.

`scan` goes through a list with a counter, as a loop does: an element that is
not `present` ends it, the hit that the counter has been waiting for ends it,
and any other element moves it on. `scan_append` splits a scan, so that nested
loops can be put together, and `scan_eq` says what a whole scan returns.
-/

/-- Where a scan stands: at the hit it looked for, at a gap, or past the end with a
count of hits. -/
inductive Scan (α : Type) where
  | found (a : α)
  | gap
  | next (count : Nat)
  deriving DecidableEq, Repr

namespace Scan

variable {α : Type} {present hit : α → Bool} {n c : Nat} {xs ys : List α}

/-- Look for hit number `n`, with `c` hits so far. -/
def scan (present hit : α → Bool) (n : Nat) : List α → Nat → Scan α
  | [], c => .next c
  | x :: xs, c =>
    if present x then
      if hit x then if c = n then .found x else scan present hit n xs (c + 1)
      else scan present hit n xs c
    else .gap

/-- Go on behind the end, if the scan got there. -/
def andThen : Scan α → (Nat → Scan α) → Scan α
  | .next c, f => f c
  | r, _ => r

/-- The hits in front of the first gap. -/
def hits (present hit : α → Bool) (xs : List α) : List α := (xs.takeWhile present).filter hit

/-- Scanning one list and then another. -/
theorem scan_append :
    scan present hit n (xs ++ ys) c =
      (scan present hit n xs c).andThen (scan present hit n ys) := by
  induction xs generalizing c with
  | nil => rfl
  | cons x xs ih =>
      simp only [List.cons_append, scan]
      split
      · split
        · split
          · rfl
          · exact ih
        · exact ih
      · rfl

/-- The element a scan stops at, if it stops at one. -/
def result : Scan α → Option α
  | .found a => some a
  | _ => none

/-- A scan returns the `n`-th hit in front of the first gap. -/
theorem scan_result (h : c ≤ n) :
    (scan present hit n xs c).result = (hits present hit xs)[n - c]? := by
  induction xs generalizing c with
  | nil => rfl
  | cons x xs ih =>
      rw [scan]
      by_cases hp : present x
      · rw [if_pos hp, hits, List.takeWhile_cons_of_pos hp]
        by_cases hh : hit x
        · rw [if_pos hh, List.filter_cons_of_pos hh]
          by_cases hc : c = n
          · subst hc
            rw [if_pos rfl, Nat.sub_self]
            rfl
          · obtain ⟨m, rfl⟩ : ∃ m, n = c + 1 + m := ⟨n - (c + 1), by omega⟩
            rw [if_neg hc, ih (by omega), show c + 1 + m - c = m + 1 by omega,
              Nat.add_sub_cancel_left]
            rfl
        · rw [if_neg hh, List.filter_cons_of_neg hh]
          exact ih h
      · rw [if_neg hp, hits, List.takeWhile_cons_of_neg hp]
        rfl

/-- A scan that reaches the end has counted fewer hits than it was looking for. -/
theorem scan_next_le {c' : Nat} (h : c ≤ n) (hs : scan present hit n xs c = .next c') :
    c' ≤ n := by
  induction xs generalizing c with
  | nil =>
      cases hs
      exact h
  | cons x xs ih =>
      rw [scan] at hs
      split at hs
      · split at hs
        · split at hs
          · cases hs
          · exact ih (by omega) hs
        · exact ih h hs
      · cases hs

/-- Only the elements of the list matter. -/
theorem hits_congr {present' hit' : α → Bool} (hp : ∀ x ∈ xs, present x = present' x)
    (hh : ∀ x ∈ xs, hit x = hit' x) : hits present hit xs = hits present' hit' xs := by
  induction xs with
  | nil => rfl
  | cons x xs ih =>
      have tail := ih (fun y hy => hp y (List.mem_cons_of_mem x hy))
        fun y hy => hh y (List.mem_cons_of_mem x hy)
      simp only [hits] at tail ⊢
      rw [List.takeWhile_cons, List.takeWhile_cons, hp x List.mem_cons_self]
      split
      · rw [List.filter_cons, List.filter_cons, hh x List.mem_cons_self, tail]
      · rfl

/-- What is in front of the first gap is present. -/
theorem hits_and : hits present hit xs = hits present (fun x => present x && hit x) xs := by
  refine List.filter_congr ?_
  intro x hx
  rw [List.mem_takeWhile_imp hx, Bool.true_and]

/-- Nothing behind a gap counts. -/
theorem hits_append_gap (h : ∃ x ∈ xs, present x = false) :
    hits present hit (xs ++ ys) = hits present hit xs := by
  induction xs with
  | nil =>
      obtain ⟨x, hx, -⟩ := h
      cases hx
  | cons x xs ih =>
      simp only [hits, List.cons_append] at ih ⊢
      cases hx : present x with
      | false =>
          rw [List.takeWhile_cons_of_neg (by simp [hx]), List.takeWhile_cons_of_neg (by simp [hx])]
      | true =>
          obtain ⟨y, hy, hgap⟩ := h
          rcases List.mem_cons.mp hy with rfl | hy
          · rw [hx] at hgap
            cases hgap
          · rw [List.takeWhile_cons_of_pos hx, List.takeWhile_cons_of_pos hx, List.filter_cons,
              List.filter_cons, ih ⟨y, hy, hgap⟩]

/-- Without a gap, all the hits count. -/
theorem hits_append_full (h : ∀ x ∈ xs, present x = true) :
    hits present hit (xs ++ ys) = xs.filter hit ++ hits present hit ys := by
  rw [hits, List.takeWhile_append_of_pos h, List.filter_append]
  rfl

theorem hits_full (h : ∀ x ∈ xs, present x = true) : hits present hit xs = xs.filter hit := by
  rw [hits, List.takeWhile_eq_self_iff.mpr h]

end Scan
