import Mathlib.Data.List.Induction

/-!
Runs of a labelled transition system.

`Run step s₀ ls s` says that the steps labelled `ls`, in this order, lead from
`s₀` to `s`. `Run.invariant` is the induction every whole-run statement goes
through: what holds at the start and is kept by each step holds after every
run. The invariant may mention the labels of the run so far, so that a history
needs no ghost field in the state.

`Guarded ok step` keeps the steps that meet a condition on the label and the
state before the step; a run of it is a run whose steps all meet the condition.
-/

namespace Lts

variable {S L : Type}

inductive Run (step : S → L → S → Prop) (s₀ : S) : List L → S → Prop where
  | nil : Run step s₀ [] s₀
  | snoc {ls : List L} {s t : S} {l : L} :
      Run step s₀ ls s → step s l t → Run step s₀ (ls ++ [l]) t

/-- What holds at the start and is kept by every step holds after every run. -/
theorem Run.invariant {step : S → L → S → Prop} {s₀ : S} {I : List L → S → Prop}
    (init : I [] s₀)
    (keep : ∀ ls s l t, I ls s → step s l t → I (ls ++ [l]) t)
    {ls : List L} {s : S} (h : Run step s₀ ls s) : I ls s := by
  induction h with
  | nil => exact init
  | snoc _ hstep ih => exact keep _ _ _ _ ih hstep

theorem Run.trans {step : S → L → S → Prop} {s t u : S} {ls ks : List L}
    (h : Run step s ls t) (k : Run step t ks u) : Run step s (ls ++ ks) u := by
  induction k with
  | nil => simpa using h
  | snoc _ hstep ih => simpa using ih.snoc hstep

/-- The last step of a run. -/
theorem Run.last {step : S → L → S → Prop} {s u : S} {ls : List L} {l : L}
    (h : Run step s (ls ++ [l]) u) : ∃ t, Run step s ls t ∧ step t l u := by
  generalize hall : ls ++ [l] = all at h
  cases h with
  | nil => simp at hall
  | snoc hrun hstep =>
      obtain ⟨rfl, hl⟩ := List.append_inj' hall rfl
      cases hl
      exact ⟨_, hrun, hstep⟩

/-- A run stops half-way at a state from which the rest is a run. -/
theorem Run.split {step : S → L → S → Prop} {s u : S} {ls ks : List L}
    (h : Run step s (ls ++ ks) u) : ∃ t, Run step s ls t ∧ Run step t ks u := by
  induction ks using List.reverseRecOn generalizing u with
  | nil => exact ⟨u, by simpa using h, .nil⟩
  | append_singleton ks k ih =>
      rw [← List.append_assoc] at h
      obtain ⟨v, hrun, hstep⟩ := h.last
      obtain ⟨t, h₁, h₂⟩ := ih hrun
      exact ⟨t, h₁, h₂.snoc hstep⟩

/-- A step in front of a run. -/
theorem Run.cons {step : S → L → S → Prop} {s t u : S} {l : L} {ls : List L}
    (k : Run step t ls u) (h : step s l t) : Run step s (l :: ls) u :=
  (Run.nil.snoc h).trans k

/-- The steps that meet the condition `ok`. -/
def Guarded (ok : S → L → Prop) (step : S → L → S → Prop) (s : S) (l : L) (t : S) : Prop :=
  ok s l ∧ step s l t

/-- A run of a smaller step relation is a run. -/
theorem Run.mono {step step' : S → L → S → Prop} (sub : ∀ s l t, step s l t → step' s l t)
    {s₀ s : S} {ls : List L} (h : Run step s₀ ls s) : Run step' s₀ ls s := by
  induction h with
  | nil => exact .nil
  | snoc _ hstep ih => exact .snoc ih (sub _ _ _ hstep)

end Lts
