import Mathlib.Order.Lattice

/-!
Looking for the best candidate.

A loop goes through candidates `0`, `1` and so on and keeps the best one it has
seen. A candidate counts if it is `good` and worth more than `floor`, and among
candidates of the same worth the first one is kept. `Best` says what such a loop
holds after `n` candidates, `Best.take` and `Best.keep` are the two ways to go on,
and `Best.unique` says that nothing else fits.
-/

variable {α : Type} [LinearOrder α]

/-- What the best candidate is worth. -/
def Best.worth (value : Nat → α) (floor : α) : Option Nat → α
  | none => floor
  | some b => value b

/-- The first of the best candidates below `n`, or `none` if none of them counts. -/
def Best (good : Nat → Prop) (value : Nat → α) (floor : α) (n : Nat) : Option Nat → Prop
  | none => ∀ d < n, good d → value d ≤ floor
  | some b => b < n ∧ good b ∧ floor < value b ∧ (∀ d < n, good d → value d ≤ value b) ∧
      ∀ d < b, good d → value d < value b

variable {good : Nat → Prop} {value : Nat → α} {floor : α} {n d : Nat} {o o' : Option Nat}

theorem Best.zero : Best good value floor 0 none :=
  fun d hd => absurd hd (Nat.not_lt_zero d)

theorem Best.floor_le (h : Best good value floor n o) : floor ≤ Best.worth value floor o := by
  cases o with
  | none => exact le_refl floor
  | some b => exact le_of_lt h.2.2.1

/-- No candidate that counts is worth more. -/
theorem Best.le_worth (h : Best good value floor n o) (hd : d < n) (hgood : good d) :
    value d ≤ Best.worth value floor o := by
  cases o with
  | none => exact h d hd hgood
  | some b => exact h.2.2.2.1 d hd hgood

/-- Candidate `n` is better. -/
theorem Best.take (h : Best good value floor n o) (hgood : good n)
    (hmore : Best.worth value floor o < value n) : Best good value floor (n + 1) (some n) := by
  have hlt : ∀ d < n, good d → value d < value n :=
    fun d hd hg => lt_of_le_of_lt (h.le_worth hd hg) hmore
  refine ⟨Nat.lt_succ_self n, hgood, lt_of_le_of_lt h.floor_le hmore, ?_, hlt⟩
  intro d hd hg
  rcases Nat.lt_succ_iff_lt_or_eq.mp hd with hd | rfl
  · exact le_of_lt (hlt d hd hg)
  · exact le_refl _

/-- Candidate `n` is not better. -/
theorem Best.keep (h : Best good value floor n o)
    (hless : good n → value n ≤ Best.worth value floor o) : Best good value floor (n + 1) o := by
  have hle : ∀ d < n + 1, good d → value d ≤ Best.worth value floor o := by
    intro d hd hg
    rcases Nat.lt_succ_iff_lt_or_eq.mp hd with hd | rfl
    · exact h.le_worth hd hg
    · exact hless hg
  cases o with
  | none => exact hle
  | some b =>
      obtain ⟨hb, hgood, hfloor, -, hfirst⟩ := h
      exact ⟨Nat.lt_succ_of_lt hb, hgood, hfloor, hle, hfirst⟩

/-- The best candidate is the best there is. -/
theorem Best.unique (h : Best good value floor n o) (h' : Best good value floor n o') :
    o = o' := by
  cases o with
  | none =>
      cases o' with
      | none => rfl
      | some b =>
          obtain ⟨hb, hgood, hfloor, -⟩ := h'
          exact absurd (h b hb hgood) (not_le.mpr hfloor)
  | some a =>
      obtain ⟨ha, hga, hfa, hmaxa, hfirsta⟩ := h
      cases o' with
      | none => exact absurd (h' a ha hga) (not_le.mpr hfa)
      | some b =>
          obtain ⟨hb, hgb, -, hmaxb, hfirstb⟩ := h'
          rcases Nat.lt_trichotomy a b with hlt | rfl | hlt
          · exact absurd (hmaxa b hb hgb) (not_le.mpr (hfirstb a hlt hga))
          · rfl
          · exact absurd (hmaxb a ha hga) (not_le.mpr (hfirsta b hlt hgb))
