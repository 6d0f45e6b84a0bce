import Mathlib.Data.Nat.Count

/-!
Maximal runs of a predicate on the natural numbers.

`IsRun P a e` says that `P` holds from `a` up to `e`, and neither at `e` nor just
before `a`. A number with `P` is in such a run as soon as `P` fails somewhere
behind it. `count_filled` and `count_gap` count over a stretch where `P` holds
throughout or nowhere.
-/

/-- `P` holds from `a` up to `e`, and no further on either side. -/
structure IsRun (P : Nat → Prop) (a e : Nat) : Prop where
  lt : a < e
  inside : ∀ b, a ≤ b → b < e → P b
  stop : ¬ P e
  start : a = 0 ∨ ¬ P (a - 1)

namespace IsRun

variable {P : Nat → Prop} {a b c e k : Nat}

/-- A run is about the numbers up to its end. -/
theorem congr {Q : Nat → Prop} (h : IsRun P a e) (hPQ : ∀ b ≤ e, P b ↔ Q b) : IsRun Q a e where
  lt := h.lt
  inside b hab hbe := (hPQ b (Nat.le_of_lt hbe)).mp (h.inside b hab hbe)
  stop := mt (hPQ e (Nat.le_refl e)).mpr h.stop
  start := h.start.imp_right (mt (hPQ (a - 1) (by have := h.lt; omega)).mpr)

/-- Where the run of `c` begins. -/
theorem exists_start (h : P c) :
    ∃ a ≤ c, (∀ b, a ≤ b → b ≤ c → P b) ∧ (a = 0 ∨ ¬ P (a - 1)) := by
  induction c with
  | zero =>
      refine ⟨0, Nat.le_refl 0, fun b _ hb => ?_, .inl rfl⟩
      rwa [Nat.le_zero.mp hb]
  | succ c ih =>
      by_cases hbefore : P c
      · obtain ⟨a, hac, hinside, hstart⟩ := ih hbefore
        refine ⟨a, Nat.le_succ_of_le hac, fun b hab hb => ?_, hstart⟩
        rcases Nat.le_succ_iff.mp hb with hb | rfl
        · exact hinside b hab hb
        · exact h
      · refine ⟨c + 1, Nat.le_refl _, fun b hab hb => ?_, .inr hbefore⟩
        rwa [Nat.le_antisymm hb hab]

/-- The run of `c`, when `P` fails at some `k` behind it. -/
theorem exists_of_mem (h : P c) (hck : c < k) (hk : ¬ P k) :
    ∃ a e, IsRun P a e ∧ a ≤ c ∧ c < e := by
  classical
  obtain ⟨a, hac, hinside, hstart⟩ := exists_start h
  have hfails : ∃ e, c < e ∧ ¬ P e := ⟨k, hck, hk⟩
  obtain ⟨hce, hstop⟩ := Nat.find_spec hfails
  refine ⟨a, Nat.find hfails, ⟨Nat.lt_of_le_of_lt hac hce, fun b hab hbe => ?_, hstop, hstart⟩,
    hac, hce⟩
  by_cases hbc : b ≤ c
  · exact hinside b hab hbc
  · by_contra hb
    exact Nat.find_min hfails hbe ⟨Nat.lt_of_not_le hbc, hb⟩

/-- A run stops at the latest where `P` fails. -/
theorem stop_le (h : IsRun P a e) (hab : a ≤ b) (hb : ¬ P b) : e ≤ b :=
  Nat.le_of_not_lt fun hbe => hb (h.inside b hab hbe)

/-- The number just before a run is not in `P`. -/
theorem start_le (h : IsRun P a e) (hb : P b) (hab : a ≤ b + 1) : a ≤ b := by
  by_contra hlt
  obtain rfl : a = b + 1 := by omega
  cases h.start with
  | inl hzero => exact absurd hzero (Nat.succ_ne_zero b)
  | inr hbefore => exact hbefore hb

end IsRun

section Count

variable {P : Nat → Prop} [DecidablePred P] {c e : Nat}

theorem count_filled (hce : c ≤ e) (h : ∀ b, c ≤ b → b < e → P b) :
    Nat.count P e = Nat.count P c + (e - c) := by
  obtain ⟨n, rfl⟩ := Nat.exists_eq_add_of_le hce
  rw [Nat.count_add, Nat.add_sub_cancel_left]
  exact congrArg _ (Nat.count_of_forall fun k hk => h _ (Nat.le_add_right _ _)
    (Nat.add_lt_add_left hk _))

theorem count_gap (hce : c ≤ e) (h : ∀ b, c ≤ b → b < e → ¬ P b) :
    Nat.count P e = Nat.count P c := by
  obtain ⟨n, rfl⟩ := Nat.exists_eq_add_of_le hce
  rw [Nat.count_add]
  exact congrArg _ (Nat.count_of_forall_not fun k hk => h _ (Nat.le_add_right _ _)
    (Nat.add_lt_add_left hk _))

end Count
