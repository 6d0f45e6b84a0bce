import Mathlib.Data.List.Basic
import Mathlib.Data.List.Induction

/-!
What a history of events leaves in one variable.

A latch is set by some events and cleared by others, so it holds whether the last of
these was one that sets it. A toggle is flipped by some events, so it holds the parity of
their number. A toggle that other events clear has only counted since the last of those.
A variable that events assign or empty holds what the last of them left.

* `foldl_latch`, `foldl_clearedToggle`: a bit of a state that every event treats in one of
  these ways.
* `clearedToggle_eq_toggle_iff`: clearing makes no difference exactly if the number of
  flips before the last clearing event is even.
* `assigned_eq_some_iff`: a variable holds a value exactly if an event assigned it and no
  later one assigned or emptied the variable.
-/

namespace History

variable {α β σ : Type} {on off : α → Bool} {es : List α} {e : α}

/-! ### Latches -/

/-- The last event that sets or clears the latch sets it. -/
def latch (on off : α → Bool) (es : List α) : Bool :=
  (es.filter fun e => on e || off e).getLast?.any on

theorem latch_snoc :
    latch on off (es ++ [e]) = if on e then true else if off e then false else latch on off es := by
  rw [latch, List.filter_append, List.filter_cons, List.filter_nil]
  cases hon : on e with
  | true => simp [hon]
  | false =>
      cases hoff : off e with
      | true => simp [hon]
      | false => simp [latch]

/-- A bit that each event sets, clears or leaves. -/
theorem foldl_latch {step : σ → α → σ} {s₀ : σ} (bit : σ → Bool)
    (init : bit s₀ = false)
    (hstep : ∀ s e, bit (step s e) = if on e then true else if off e then false else bit s) :
    bit (es.foldl step s₀) = latch on off es := by
  induction es using List.reverseRecOn with
  | nil => exact init
  | append_singleton es e ih =>
      rw [List.foldl_append, latch_snoc, ← ih]
      exact hstep _ e

/-! ### Toggles -/

/-- An odd number of events flips the bit. -/
def toggle (on : α → Bool) (es : List α) : Bool := es.countP on % 2 = 1

theorem toggle_append {es' : List α} :
    toggle on (es ++ es') = (toggle on es ^^ toggle on es') := by
  rw [toggle, toggle, toggle, List.countP_append, Nat.add_mod]
  rcases Nat.mod_two_eq_zero_or_one (es.countP on) with h | h
  · rcases Nat.mod_two_eq_zero_or_one (es'.countP on) with h' | h' <;> simp [h, h']
  · rcases Nat.mod_two_eq_zero_or_one (es'.countP on) with h' | h' <;> simp [h, h']

theorem toggle_snoc : toggle on (es ++ [e]) = (toggle on es ^^ on e) := by
  have hsingle : toggle on [e] = on e := by
    rw [toggle, List.countP_singleton]
    cases on e <;> rfl
  rw [toggle_append, hsingle]

/-! ### Toggles that are cleared -/

/-- The events after the last one that clears. -/
def since (off : α → Bool) (es : List α) : List α :=
  (es.reverse.takeWhile fun e => !off e).reverse

/-- The events up to the last one that clears. -/
def upTo (off : α → Bool) (es : List α) : List α :=
  (es.reverse.dropWhile fun e => !off e).reverse

theorem upTo_append_since : upTo off es ++ since off es = es := by
  rw [upTo, since, ← List.reverse_append, List.takeWhile_append_dropWhile, List.reverse_reverse]

theorem since_snoc : since off (es ++ [e]) = if off e then [] else since off es ++ [e] := by
  rw [since, List.reverse_append, List.reverse_singleton, List.singleton_append,
    List.takeWhile_cons]
  cases off e with
  | true => rfl
  | false => simp [since]

/-- Nothing clears it: it is a toggle. -/
theorem since_never : since (fun _ => false) es = es := by
  induction es using List.reverseRecOn with
  | nil => rfl
  | append_singleton es e ih => rw [since_snoc, if_neg (by decide), ih]

/-- A bit that each event clears, flips or leaves. -/
theorem foldl_clearedToggle {step : σ → α → σ} {s₀ : σ} (bit : σ → Bool)
    (init : bit s₀ = false)
    (hstep : ∀ s e, bit (step s e) = if off e then false else (bit s ^^ on e)) :
    bit (es.foldl step s₀) = toggle on (since off es) := by
  induction es using List.reverseRecOn with
  | nil => exact init
  | append_singleton es e ih =>
      rw [List.foldl_append, since_snoc]
      refine (hstep _ e).trans ?_
      rw [ih]
      cases off e with
      | true => rfl
      | false => exact toggle_snoc.symm

/-- Clearing makes no difference after an even number of flips. -/
theorem clearedToggle_eq_toggle_iff :
    toggle on (since off es) = toggle on es ↔ toggle on (upTo off es) = false := by
  have hsplit : toggle on es = (toggle on (upTo off es) ^^ toggle on (since off es)) := by
    rw [← toggle_append, upTo_append_since]
  rw [hsplit]
  cases toggle on (upTo off es) <;> simp

/-! ### Variables -/

section Assigned

variable {assign : α → Option (Option β)} {v : β}

/-- What the last event that assigns or empties the variable leaves. -/
def assigned (assign : α → Option (Option β)) (es : List α) : Option β :=
  es.foldl (fun v e => (assign e).getD v) none

theorem assigned_snoc :
    assigned assign (es ++ [e]) = (assign e).getD (assigned assign es) := by
  rw [assigned, List.foldl_append]
  rfl

theorem assigned_eq_some_iff : assigned assign es = some v ↔
    ∃ pre e post, es = pre ++ e :: post ∧ assign e = some (some v) ∧
      ∀ e' ∈ post, assign e' = none := by
  induction es using List.reverseRecOn with
  | nil => simp [assigned]
  | append_singleton es l ih =>
      rw [assigned_snoc]
      cases hl : assign l with
      | none =>
          rw [Option.getD_none, ih]
          constructor
          · rintro ⟨pre, e, post, rfl, he, hpost⟩
            refine ⟨pre, e, post ++ [l], by simp, he, fun e' hmem => ?_⟩
            rcases List.mem_append.mp hmem with hmem | hmem
            · exact hpost e' hmem
            · rw [List.mem_singleton.mp hmem, hl]
          · rintro ⟨pre, e, post, heq, he, hpost⟩
            rcases List.eq_nil_or_concat post with rfl | ⟨post, k, rfl⟩
            · obtain ⟨-, hlast⟩ := List.append_inj' heq rfl
              cases hlast
              cases hl.symm.trans he
            · rw [List.concat_eq_append, ← List.cons_append, ← List.append_assoc] at heq
              obtain ⟨rfl, -⟩ := List.append_inj' heq rfl
              exact ⟨pre, e, post, rfl, he, fun e' hmem => hpost e' (by simp [hmem])⟩
      | some w =>
          rw [Option.getD_some]
          constructor
          · rintro rfl
            exact ⟨es, l, [], rfl, hl, by simp⟩
          · rintro ⟨pre, e, post, heq, he, hpost⟩
            rcases List.eq_nil_or_concat post with rfl | ⟨post, k, rfl⟩
            · obtain ⟨-, hlast⟩ := List.append_inj' heq rfl
              cases hlast
              exact Option.some.inj (hl.symm.trans he)
            · rw [List.concat_eq_append, ← List.cons_append, ← List.append_assoc] at heq
              obtain ⟨-, hlast⟩ := List.append_inj' heq rfl
              cases hlast
              cases hl.symm.trans (hpost l (by simp))

end Assigned

end History
