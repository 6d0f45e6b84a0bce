import Mathlib.Logic.Basic

/-!
NUL-terminated strings.

A pointer is seen as the bytes it runs over, a function of the offset. `Spells f s`
says that these are the string `s` and then its NUL. There is at most one such
string (`Spells.functional`), and there is one whenever the pointer runs into a
NUL at all (`exists_spells`).
-/

/-- The bytes of `f` are the string `s` and its terminator. -/
structure Spells (f : Nat → BitVec 8) (s : List (BitVec 8)) : Prop where
  char : ∀ i (h : i < s.length), f i = s[i]
  nonzero : ∀ c ∈ s, c ≠ 0
  terminator : f s.length = 0

variable {f : Nat → BitVec 8} {s s' : List (BitVec 8)} {c : BitVec 8}

theorem spells_nil : Spells f [] ↔ f 0 = 0 := by
  constructor
  · exact fun h => h.terminator
  · exact fun h => ⟨by simp, by simp, h⟩

/-- A string of one character more begins one byte earlier. -/
theorem spells_cons : Spells f (c :: s) ↔ f 0 = c ∧ c ≠ 0 ∧ Spells (fun i => f (i + 1)) s := by
  constructor
  · intro h
    refine ⟨h.char 0 (Nat.succ_pos _), h.nonzero c List.mem_cons_self, ?_, ?_, h.terminator⟩
    · exact fun i hi => h.char (i + 1) (Nat.succ_lt_succ hi)
    · exact fun d hd => h.nonzero d (List.mem_cons_of_mem c hd)
  · rintro ⟨hfirst, hc, hrest⟩
    refine ⟨?_, ?_, hrest.terminator⟩
    · intro i hi
      cases i with
      | zero => exact hfirst
      | succ i => exact hrest.char i (Nat.lt_of_succ_lt_succ hi)
    · intro d hd
      cases List.mem_cons.mp hd with
      | inl heq => exact heq ▸ hc
      | inr hmem => exact hrest.nonzero d hmem

/-- A pointer spells one string only. -/
theorem Spells.functional (h : Spells f s) (h' : Spells f s') : s = s' := by
  induction s generalizing f s' with
  | nil =>
      cases s' with
      | nil => rfl
      | cons c' s' =>
          obtain ⟨hfirst, hc, -⟩ := spells_cons.mp h'
          exact absurd (hfirst.symm.trans (spells_nil.mp h)) hc
  | cons c s ih =>
      obtain ⟨hfirst, hc, hrest⟩ := spells_cons.mp h
      cases s' with
      | nil => exact absurd (hfirst.symm.trans (spells_nil.mp h')) hc
      | cons c' s' =>
          obtain ⟨hfirst', -, hrest'⟩ := spells_cons.mp h'
          rw [← hfirst, ← hfirst', ih hrest hrest']

/-- A pointer that runs into a NUL spells a string. -/
theorem exists_spells {n : Nat} (h : f n = 0) : ∃ s, Spells f s := by
  induction n generalizing f with
  | zero => exact ⟨[], spells_nil.mpr h⟩
  | succ n ih =>
      by_cases hfirst : f 0 = 0
      · exact ⟨[], spells_nil.mpr hfirst⟩
      · obtain ⟨s, hs⟩ := ih (f := fun i => f (i + 1)) h
        exact ⟨f 0 :: s, spells_cons.mpr ⟨rfl, hfirst, hs⟩⟩
