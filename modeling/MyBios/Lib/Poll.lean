import MyBios.Lib.Prog

/-!
Polling: reading a source again and again until a value says stop.

`read` gives the next value of a source and what is left of it, so the values
that a source presents are determined by where the polling starts. `Polled read
stop s vs t` says that polling from `s` reads the values `vs`, of which the last
one stops it, and leaves the source at `t`.

* `Polled.functional`: the values are determined by the source.
* `Polled.last_read`, `Polled.le`: the last value was read, and what no read makes smaller
  is not smaller afterwards.
* `Polled.exists_iff`: what only a stopping value can be, some value is exactly
  when the last one is.
* `returns_poll`: a loop whose passes read the source returns what it makes of
  the last value, and has recorded all of them.
-/

namespace Poll

variable {σ ν : Type} {read : σ → ν × σ} {stop : ν → Prop}

inductive Polled (read : σ → ν × σ) (stop : ν → Prop) : σ → List ν → ν → σ → Prop where
  | last {s : σ} : stop (read s).1 → Polled read stop s [] (read s).1 (read s).2
  | more {s t : σ} {vs : List ν} {v : ν} : ¬ stop (read s).1 →
      Polled read stop (read s).2 vs v t → Polled read stop s ((read s).1 :: vs) v t

/-- The values that go round again, the value that stops, and the source after it
are determined. -/
theorem Polled.functional {s t t' : σ} {vs vs' : List ν} {v v' : ν}
    (h : Polled read stop s vs v t) (h' : Polled read stop s vs' v' t') :
    vs = vs' ∧ v = v' ∧ t = t' := by
  induction h generalizing vs' with
  | last hstop =>
      cases h' with
      | last => exact ⟨rfl, rfl, rfl⟩
      | more hnot => exact absurd hstop hnot
  | more hnot _ ih =>
      cases h' with
      | last hstop => exact absurd hstop hnot
      | more _ h' =>
          obtain ⟨rfl, hv, ht⟩ := ih h'
          exact ⟨rfl, hv, ht⟩

/-- The last value was read, and it stopped the polling. -/
theorem Polled.last_read {s t : σ} {vs : List ν} {v : ν} (h : Polled read stop s vs v t) :
    stop v ∧ ∃ u, read u = (v, t) := by
  induction h with
  | @last s hstop => exact ⟨hstop, s, rfl⟩
  | more _ _ ih => exact ih

/-- What no read makes smaller is not smaller than after the first one. -/
theorem Polled.le {f : σ → Nat} (hle : ∀ s, f s ≤ f (read s).2) {s t : σ} {vs : List ν} {v : ν}
    (h : Polled read stop s vs v t) : f (read s).2 ≤ f t := by
  induction h with
  | last => exact Nat.le_refl _
  | more _ _ ih => exact Nat.le_trans (hle _) ih

theorem Polled.goes_on {s t : σ} {vs : List ν} {v : ν} (h : Polled read stop s vs v t) :
    ∀ u ∈ vs, ¬ stop u := by
  induction h with
  | last => simp
  | more hnot _ ih =>
      intro u hu
      rcases List.mem_cons.mp hu with rfl | hu
      · exact hnot
      · exact ih u hu

/-- What only a stopping value can be, some value is exactly when the last one is. -/
theorem Polled.exists_iff {s t : σ} {vs : List ν} {v : ν} (h : Polled read stop s vs v t)
    {P : ν → Prop} (hP : ∀ u, P u → stop u) : (∃ u ∈ vs ++ [v], P u) ↔ P v := by
  constructor
  · rintro ⟨u, hu, hPu⟩
    rcases List.mem_append.mp hu with hu | hu
    · exact absurd (hP u hPu) (h.goes_on u hu)
    · rwa [← List.mem_singleton.mp hu]
  · intro hPv
    exact ⟨v, by simp, hPv⟩

/-- Loops that poll. `wrap d us` is the state of the program when the source is `d` and
the values `us` were read from it. -/
theorem returns_poll {τ γ : Type} {body : Unit → Prog τ (Prog.Pass Unit γ)}
    {wrap : σ → List ν → τ} {out : ν → γ} [DecidablePred stop]
    (hbody : ∀ d us pass t, (body ()).Returns (wrap d us) pass t ↔
      pass = (if stop (read d).1 then .done (out (read d).1) else .again ()) ∧
        t = wrap (read d).2 (us ++ [(read d).1]))
    {d : σ} {us : List ν} {c : γ} {t : τ} :
    (Prog.loop body ()).Returns (wrap d us) c t ↔
      ∃ vs v d', Polled read stop d vs v d' ∧ c = out v ∧ t = wrap d' (us ++ (vs ++ [v])) := by
  constructor
  · intro h
    -- what polling from a later pass reads is read from the first pass too
    obtain ⟨_, t', ⟨d₁, us₁, rfl, hlater⟩, hlast⟩ := h.loop_induct
      (I := fun _ t₁ => ∃ d₁ us₁, t₁ = wrap d₁ us₁ ∧ ∀ vs v d', Polled read stop d₁ vs v d' →
        ∃ vs', Polled read stop d vs' v d' ∧ us ++ vs' = us₁ ++ vs)
      (by
        rintro _ _ _ t₂ ⟨d₁, us₁, rfl, hlater⟩ hpass
        obtain ⟨hagain, rfl⟩ := (hbody d₁ us₁ _ t₂).mp hpass
        refine ⟨_, _, rfl, ?_⟩
        intro vs v d' hpolled
        have hnot : ¬ stop (read d₁).1 := by
          intro hstop
          rw [if_pos hstop] at hagain
          cases hagain
        obtain ⟨vs', hfirst, heq⟩ := hlater _ v d' (.more hnot hpolled)
        exact ⟨vs', hfirst, by rw [heq, List.append_assoc]; rfl⟩)
      ⟨d, us, rfl, fun vs v d' hpolled => ⟨vs, hpolled, rfl⟩⟩
    obtain ⟨hdone, rfl⟩ := (hbody d₁ us₁ _ t).mp hlast
    have hstop : stop (read d₁).1 := by
      by_cases hstop : stop (read d₁).1
      · exact hstop
      · rw [if_neg hstop] at hdone
        cases hdone
    rw [if_pos hstop] at hdone
    cases hdone
    obtain ⟨vs, hfirst, heq⟩ := hlater [] _ _ (.last hstop)
    rw [List.append_nil] at heq
    exact ⟨vs, _, _, hfirst, rfl, by rw [← List.append_assoc, heq]⟩
  · rintro ⟨vs, v, d', hpolled, rfl, rfl⟩
    induction hpolled generalizing us with
    | last hstop =>
        exact Prog.returns_loop.mpr (.inl ((hbody _ _ _ _).mpr ⟨by rw [if_pos hstop], rfl⟩))
    | @more d _ _ _ hnot _ ih =>
        have hrest := @ih (us ++ [(read d).1])
        rw [List.append_assoc] at hrest
        exact Prog.returns_loop.mpr
          (.inr ⟨(), _, (hbody _ _ _ _).mpr ⟨by rw [if_neg hnot], rfl⟩, hrest⟩)

end Poll
