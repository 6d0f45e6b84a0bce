import Mathlib.Logic.Basic

/-!
Imperative programs with unbounded loops over an explicit state.

`Prog σ α` is a program that reads and changes a state of type `σ` and returns
an `α`. It is executable: `run n s` evaluates it with fuel `n`, and `none`
means that the fuel ran out. A program carries the proof that more fuel never
changes a result (`mono`), so a result does not depend on the fuel that found
it and the fuel can be hidden: `Returns p s a t` says that `p`, started in `s`,
stops with result `a` in state `t`.

Reasoning about programs is reasoning about `Returns`:

* one rewriting rule for each construct (`returns_pure`, `returns_bind`,
  `returns_get`, `returns_loop`, ...), all of them equivalences;
* `Returns.functional`: a program is deterministic;
* `Returns.loop_induct`: the invariant rule of `loop`;
* `Passes`: the passes of a loop, also of one that never ends;
* `Rounds`: the same with the passes counted;
* `Keeps`: what a program does not destroy, by one rule for each construct;
* `not_returns_loop`: a loop that never stops;
* `onlyIf`: an assertion in front of a program;
* `Total`: a program returns and its result is right, with rules for loops;
* `Lens` and `zoom`: a program over a component of a larger state.
-/

/-- A program over the state `σ`: its evaluator with fuel, and the proof that a
result found with some fuel is found with any larger one. -/
structure Prog (σ α : Type) where
  run : Nat → σ → Option (α × σ)
  mono : ∀ {n m s r}, n ≤ m → run n s = some r → run m s = some r

namespace Prog

variable {σ τ α β γ : Type}

/-- `p`, started in `s`, stops with result `a` in state `t`. -/
def Returns (p : Prog σ α) (s : σ) (a : α) (t : σ) : Prop :=
  ∃ n, p.run n s = some (a, t)

/-- A program has at most one result. -/
theorem Returns.functional {p : Prog σ α} {s t t' : σ} {a a' : α}
    (h : p.Returns s a t) (h' : p.Returns s a' t') : a = a' ∧ t = t' := by
  obtain ⟨n, hn⟩ := h
  obtain ⟨m, hm⟩ := h'
  have h₁ := p.mono (Nat.le_max_left n m) hn
  have h₂ := p.mono (Nat.le_max_right n m) hm
  rw [h₁] at h₂
  simpa using h₂

/-! ### Straight-line programs -/

/-- A program that changes the state and returns in one go. -/
def prim (f : σ → α × σ) : Prog σ α where
  run _ s := some (f s)
  mono _ h := h

protected def pure (a : α) : Prog σ α := prim fun s => (a, s)

protected def bind (p : Prog σ α) (f : α → Prog σ β) : Prog σ β where
  run n s :=
    match p.run n s with
    | none => none
    | some (a, t) => (f a).run n t
  mono := by
    intro n m s r hnm h
    cases hp : p.run n s with
    | none => simp [hp] at h
    | some at_ =>
        rw [p.mono hnm hp]
        rw [hp] at h
        exact (f at_.1).mono hnm h

instance : Monad (Prog σ) where
  pure := Prog.pure
  bind := Prog.bind

/-- The current state. -/
def get : Prog σ σ := prim fun s => (s, s)

/-- A value read off the current state. -/
def gets (f : σ → α) : Prog σ α := prim fun s => (f s, s)

/-- Change the state. -/
def modify (f : σ → σ) : Prog σ Unit := prim fun s => ((), f s)

@[simp] theorem returns_prim {f : σ → α × σ} {s t : σ} {a : α} :
    (prim f).Returns s a t ↔ f s = (a, t) := by
  simp [Returns, prim]

@[simp] theorem returns_pure {s t : σ} {a b : α} :
    (pure a : Prog σ α).Returns s b t ↔ b = a ∧ t = s := by
  show (prim fun s => (a, s)).Returns s b t ↔ _
  rw [returns_prim, Prod.mk.injEq, eq_comm (a := a), eq_comm (a := s)]

@[simp] theorem returns_get {s t a : σ} : (get : Prog σ σ).Returns s a t ↔ a = s ∧ t = s := by
  rw [get, returns_prim, Prod.mk.injEq, eq_comm (a := s), eq_comm (a := s)]

@[simp] theorem returns_gets {f : σ → α} {s t : σ} {a : α} :
    (gets f).Returns s a t ↔ a = f s ∧ t = s := by
  rw [gets, returns_prim, Prod.mk.injEq, eq_comm (a := f s), eq_comm (a := s)]

@[simp] theorem returns_modify {f : σ → σ} {s t : σ} {u : Unit} :
    (modify f).Returns s u t ↔ t = f s := by
  rw [modify, returns_prim, Prod.mk.injEq, eq_comm (a := f s)]
  exact and_iff_right rfl

theorem run_bind (p : Prog σ α) (f : α → Prog σ β) (n : Nat) (s : σ) :
    (p >>= f).run n s =
      match p.run n s with
      | none => none
      | some (a, t) => (f a).run n t := rfl

/-- A sequence returns when its parts do, one after the other. -/
@[simp] theorem returns_bind {p : Prog σ α} {f : α → Prog σ β} {s u : σ} {b : β} :
    (p >>= f).Returns s b u ↔ ∃ a t, p.Returns s a t ∧ (f a).Returns t b u := by
  constructor
  · rintro ⟨n, h⟩
    rw [run_bind] at h
    cases hp : p.run n s with
    | none => simp [hp] at h
    | some at_ =>
        rw [hp] at h
        exact ⟨at_.1, at_.2, ⟨n, hp⟩, ⟨n, h⟩⟩
  · rintro ⟨a, t, ⟨n, hp⟩, ⟨m, hf⟩⟩
    refine ⟨max n m, ?_⟩
    rw [run_bind, p.mono (Nat.le_max_left n m) hp]
    exact (f a).mono (Nat.le_max_right n m) hf

/-- Running a sequence, part by part. -/
theorem Returns.bind {p : Prog σ α} {f : α → Prog σ β} {s t u : σ} {a : α} {b : β}
    (hp : p.Returns s a t) (hf : (f a).Returns t b u) : (p >>= f).Returns s b u :=
  returns_bind.mpr ⟨a, t, hp, hf⟩

/-- Once the first part is known, the sequence does what the rest does. -/
theorem Returns.bind_iff {p : Prog σ α} {f : α → Prog σ β} {s t u : σ} {a : α} {b : β}
    (hp : p.Returns s a t) : (p >>= f).Returns s b u ↔ (f a).Returns t b u := by
  constructor
  · intro h
    obtain ⟨a', t', hp', hf⟩ := returns_bind.mp h
    obtain ⟨rfl, rfl⟩ := hp.functional hp'
    exact hf
  · exact hp.bind

protected theorem bind_assoc (p : Prog σ α) (f : α → Prog σ β) (g : β → Prog σ γ) :
    (p >>= f) >>= g = p >>= fun a => f a >>= g := by
  have hrun : ((p >>= f) >>= g).run = (p >>= fun a => f a >>= g).run := by
    funext n s
    rw [run_bind, run_bind, run_bind]
    cases p.run n s with
    | none => rfl
    | some at_ => rfl
  exact (Prog.mk.injEq ..).mpr hrun

@[simp] theorem returns_ite {c : Prop} [Decidable c] {p q : Prog σ α} {s t : σ} {a : α} :
    (if c then p else q).Returns s a t ↔ if c then p.Returns s a t else q.Returns s a t := by
  split <;> rfl

/-- A statement under a condition. -/
def when (c : Bool) (p : Prog σ Unit) : Prog σ Unit := if c then p else pure ()

@[simp] theorem returns_when {c : Bool} {p : Prog σ Unit} {s t : σ} {u : Unit} :
    (when c p).Returns s u t ↔ if c then p.Returns s () t else t = s := by
  cases c with
  | true => exact Iff.rfl
  | false => exact returns_pure.trans (and_iff_right rfl)

theorem returns_when_modify {c : Bool} {f : σ → σ} {s t : σ} {u : Unit} :
    (when c (modify f)).Returns s u t ↔ t = if c then f s else s := by
  rw [returns_when, returns_modify]
  split <;> rfl

/-! ### Loops -/

/-- What one pass through a loop decides: go round again from `b`, or leave the
loop with `c`. -/
inductive Pass (β γ : Type) where
  | again (b : β)
  | done (c : γ)

/-- At most `k` passes, each with fuel `n`. -/
def loopRun (body : β → Prog σ (Pass β γ)) (n : Nat) : Nat → β → σ → Option (γ × σ)
  | 0, _, _ => none
  | k + 1, b, s =>
    match (body b).run n s with
    | none => none
    | some (.again b', t) => loopRun body n k b' t
    | some (.done c, t) => some (c, t)

theorem loopRun_mono {body : β → Prog σ (Pass β γ)} {n m : Nat} (hnm : n ≤ m) {r : γ × σ} :
    ∀ {k l : Nat} {b : β} {s : σ}, k ≤ l → loopRun body n k b s = some r →
      loopRun body m l b s = some r
  | 0, _, _, _, _, h => by simp [loopRun] at h
  | k + 1, 0, _, _, hkl, _ => absurd hkl (by omega)
  | k + 1, l + 1, b, s, hkl, h => by
      cases hb : (body b).run n s with
      | none => simp [loopRun, hb] at h
      | some res =>
          have hb' := (body b).mono hnm hb
          obtain ⟨pass, t⟩ := res
          cases pass with
          | again b' =>
              simp only [loopRun, hb] at h
              simp only [loopRun, hb']
              exact loopRun_mono hnm (Nat.le_of_succ_le_succ hkl) h
          | done c =>
              simp only [loopRun, hb] at h
              simp only [loopRun, hb']
              exact h

/-- Run `body` from `b` until a pass leaves the loop. -/
def loop (body : β → Prog σ (Pass β γ)) (b : β) : Prog σ γ where
  run n s := loopRun body n n b s
  mono hnm h := loopRun_mono hnm hnm h

/-- Unfolding a loop by one pass. -/
theorem returns_loop {body : β → Prog σ (Pass β γ)} {b : β} {s u : σ} {c : γ} :
    (loop body b).Returns s c u ↔
      (body b).Returns s (.done c) u ∨
        ∃ b' t, (body b).Returns s (.again b') t ∧ (loop body b').Returns t c u := by
  constructor
  · rintro ⟨n, h⟩
    change loopRun body n n b s = some (c, u) at h
    cases n with
    | zero => simp [loopRun] at h
    | succ k =>
        cases hb : (body b).run (k + 1) s with
        | none => simp [loopRun, hb] at h
        | some res =>
            obtain ⟨pass, t⟩ := res
            cases pass with
            | again b' =>
                simp only [loopRun, hb] at h
                exact Or.inr ⟨b', t, ⟨_, hb⟩, k + 1, loopRun_mono (Nat.le_refl _) (Nat.le_succ k) h⟩
            | done c' =>
                simp only [loopRun, hb, Option.some.injEq, Prod.mk.injEq] at h
                obtain ⟨rfl, rfl⟩ := h
                exact Or.inl ⟨_, hb⟩
  · rintro (⟨n, hb⟩ | ⟨b', t, ⟨n, hb⟩, m, hl⟩)
    · refine ⟨n + 1, ?_⟩
      change loopRun body (n + 1) (n + 1) b s = some (c, u)
      simp only [loopRun, (body b).mono (Nat.le_succ n) hb]
    · refine ⟨n + m + 1, ?_⟩
      change loopRun body (n + m + 1) (n + m + 1) b s = some (c, u)
      simp only [loopRun, (body b).mono (show n ≤ n + m + 1 by omega) hb]
      exact loopRun_mono (by omega) (by omega) hl

/-- Once a pass is known to go round again, the loop does what it does from there. -/
theorem Returns.loop_again_iff {body : β → Prog σ (Pass β γ)} {b b' : β} {s t u : σ} {c : γ}
    (hpass : (body b).Returns s (.again b') t) :
    (loop body b).Returns s c u ↔ (loop body b').Returns t c u := by
  constructor
  · intro h
    rcases returns_loop.mp h with hdone | ⟨b'', t', hpass', hrest⟩
    · exact absurd (hpass.functional hdone).1 (by simp)
    · obtain ⟨heq, rfl⟩ := hpass.functional hpass'
      cases heq
      exact hrest
  · exact fun h => returns_loop.mpr (.inr ⟨b', t, hpass, h⟩)

/-- The invariant rule: what holds when a loop is entered and is kept by every
pass that goes round again still holds at the start of the pass that leaves. -/
theorem Returns.loop_induct {body : β → Prog σ (Pass β γ)} {I : β → σ → Prop}
    (keep : ∀ b s b' t, I b s → (body b).Returns s (.again b') t → I b' t)
    {b : β} {s u : σ} {c : γ} (h : (loop body b).Returns s c u) (init : I b s) :
    ∃ b' t, I b' t ∧ (body b').Returns t (.done c) u := by
  obtain ⟨n, h⟩ := h
  change loopRun body n n b s = some (c, u) at h
  suffices ∀ k b s, I b s → loopRun body n k b s = some (c, u) →
      ∃ b' t, I b' t ∧ (body b').Returns t (.done c) u from this n b s init h
  intro k
  induction k with
  | zero => intro b s _ h; simp [loopRun] at h
  | succ k ih =>
      intro b s init h
      cases hb : (body b).run n s with
      | none => simp [loopRun, hb] at h
      | some res =>
          obtain ⟨pass, t⟩ := res
          cases pass with
          | again b' =>
              simp only [loopRun, hb] at h
              exact ih b' t (keep b s b' t init ⟨n, hb⟩) h
          | done c' =>
              simp only [loopRun, hb, Option.some.injEq, Prod.mk.injEq] at h
              obtain ⟨rfl, rfl⟩ := h
              exact ⟨b, s, init, n, hb⟩

/-- From `b` and `s`, passes that go round again lead to the pass that starts from `b'`
and `s'`, whether or not the loop ever ends. -/
inductive Passes (body : β → Prog σ (Pass β γ)) (b : β) (s : σ) : β → σ → Prop where
  | start : Passes body b s b s
  | again {b' b'' : β} {s' s'' : σ} : Passes body b s b' s' →
      (body b').Returns s' (.again b'') s'' → Passes body b s b'' s''

/-- A loop returns when one of its passes leaves it. -/
theorem returns_loop_passes {body : β → Prog σ (Pass β γ)} {b : β} {s u : σ} {c : γ} :
    (loop body b).Returns s c u ↔
      ∃ b' t, Passes body b s b' t ∧ (body b').Returns t (.done c) u := by
  constructor
  · intro h
    exact h.loop_induct (I := Passes body b s) (fun _ _ _ _ hpasses => hpasses.again) .start
  · rintro ⟨b', t, hpasses, hlast⟩
    suffices ∀ c u, (loop body b').Returns t c u → (loop body b).Returns s c u from
      this c u (returns_loop.mpr (.inl hlast))
    clear hlast
    induction hpasses with
    | start => exact fun _ _ h => h
    | again _ hpass ih =>
        intro c u h
        exact ih c u (returns_loop.mpr (.inr ⟨_, _, hpass, h⟩))

/-- `n` passes of a loop, each of which goes round again. -/
inductive Rounds (body : β → Prog σ (Pass β γ)) (b : β) (s : σ) : Nat → β → σ → Prop where
  | start : Rounds body b s 0 b s
  | again {n : Nat} {b' b'' : β} {s' s'' : σ} : Rounds body b s n b' s' →
      (body b').Returns s' (.again b'') s'' → Rounds body b s (n + 1) b'' s''

/-- A loop returns when a pass leaves it after some rounds. -/
theorem Rounds.returns {body : β → Prog σ (Pass β γ)} {b b' : β} {s t u : σ} {c : γ} {n : Nat}
    (h : Rounds body b s n b' t) (hlast : (body b').Returns t (.done c) u) :
    (loop body b).Returns s c u := by
  refine returns_loop_passes.mpr ⟨b', t, ?_, hlast⟩
  clear hlast
  induction h with
  | start => exact .start
  | again _ hpass ih => exact ih.again hpass

/-- The rounds of a loop whose variable and state after `k` of them are `point k` and
`after k`, and which goes round again from there exactly when `ok k` holds. -/
theorem rounds_iff {body : β → Prog σ (Pass β γ)} (point : Nat → β) (after : Nat → σ)
    (ok : Nat → Prop)
    (step : ∀ k b' t, (body (point k)).Returns (after k) (.again b') t ↔
      ok k ∧ b' = point (k + 1) ∧ t = after (k + 1))
    {n : Nat} {b' : β} {t : σ} : Rounds body (point 0) (after 0) n b' t ↔
      (∀ k < n, ok k) ∧ b' = point n ∧ t = after n := by
  constructor
  · intro h
    induction h with
    | start => exact ⟨fun k hk => absurd hk (Nat.not_lt_zero k), rfl, rfl⟩
    | again _ hpass ih =>
        obtain ⟨hok, rfl, rfl⟩ := ih
        obtain ⟨hlast, hb, ht⟩ := (step _ _ _).mp hpass
        refine ⟨fun k hk => ?_, hb, ht⟩
        rcases Nat.lt_succ_iff_lt_or_eq.mp hk with hk | rfl
        · exact hok k hk
        · exact hlast
  · rintro ⟨hok, rfl, rfl⟩
    induction n with
    | zero => exact .start
    | succ n ih =>
        have hrounds := ih fun k hk => hok k (Nat.lt_succ_of_lt hk)
        exact hrounds.again ((step _ _ _).mpr ⟨hok n (Nat.lt_succ_self n), rfl, rfl⟩)

/-- A loop in which every pass from the invariant goes round again never stops. -/
theorem not_returns_loop {body : β → Prog σ (Pass β γ)} {I : β → σ → Prop}
    (step : ∀ b s, I b s → ∃ b' t, (body b).Returns s (.again b') t ∧ I b' t)
    {b : β} {s t : σ} {c : γ} (init : I b s) : ¬ (loop body b).Returns s c t := by
  intro h
  have keep : ∀ b s b' t, I b s → (body b).Returns s (.again b') t → I b' t := by
    intro b s b' t hI hpass
    obtain ⟨b'', t', hpass', hI'⟩ := step b s hI
    obtain ⟨heq, rfl⟩ := hpass.functional hpass'
    cases heq
    exact hI'
  obtain ⟨b', s', hI, hlast⟩ := h.loop_induct keep init
  obtain ⟨b'', t', hpass, -⟩ := step b' s' hI
  exact absurd (hlast.functional hpass).1 (by simp)

/-- `for` with a fixed number of rounds, handing a value from round to round. -/
def repeatN (body : β → Prog σ β) : Nat → β → Prog σ β
  | 0, b => pure b
  | n + 1, b => do
    let b ← body b
    repeatN body n b

/-! ### Programs over a component of the state -/

/-- A component of type `σ` inside a state of type `τ`. -/
structure Lens (τ σ : Type) where
  get : τ → σ
  set : σ → τ → τ
  get_set : ∀ s t, get (set s t) = s
  set_get : ∀ t, set (get t) t = t

/-- Run a program on a component and put the result back. -/
def zoom (l : Lens τ σ) (p : Prog σ α) : Prog τ α where
  run n t :=
    match p.run n (l.get t) with
    | none => none
    | some (a, s) => some (a, l.set s t)
  mono := by
    intro n m t r hnm h
    cases hp : p.run n (l.get t) with
    | none => simp [hp] at h
    | some as => rw [p.mono hnm hp]; rwa [hp] at h

/-- A zoomed program changes its own component only. -/
@[simp] theorem returns_zoom {l : Lens τ σ} {p : Prog σ α} {t u : τ} {a : α} :
    (zoom l p).Returns t a u ↔ ∃ s, p.Returns (l.get t) a s ∧ u = l.set s t := by
  constructor
  · rintro ⟨n, h⟩
    unfold zoom at h
    cases hp : p.run n (l.get t) with
    | none => simp [hp] at h
    | some as =>
        simp only [hp, Option.some.injEq, Prod.mk.injEq] at h
        obtain ⟨rfl, rfl⟩ := h
        exact ⟨as.2, ⟨n, hp⟩, rfl⟩
  · rintro ⟨s, ⟨n, hp⟩, rfl⟩
    refine ⟨n, ?_⟩
    simp [zoom, hp]

/-! ### Invariants

`Keeps I p` says that `p`, wherever it returns, keeps a property of the state.
There is one rule for each construct, so such a fact follows the program text.
-/

/-- Wherever `p` returns, it has kept `I`. -/
def Keeps (I : σ → Prop) (p : Prog σ α) : Prop :=
  ∀ s a t, p.Returns s a t → I s → I t

section Keeps

variable {I : σ → Prop}

theorem keeps_pure {a : α} : Keeps I (pure a : Prog σ α) := by
  intro s b t h hs
  rw [(returns_pure.mp h).2]
  exact hs

theorem keeps_gets {f : σ → α} : Keeps I (gets f) := by
  intro s a t h hs
  rw [(returns_gets.mp h).2]
  exact hs

theorem keeps_get : Keeps I (get : Prog σ σ) := by
  intro s a t h hs
  rw [(returns_get.mp h).2]
  exact hs

theorem Keeps.bind {p : Prog σ α} {f : α → Prog σ β} (hp : Keeps I p)
    (hf : ∀ a, Keeps I (f a)) : Keeps I (p >>= f) := by
  intro s b u h hs
  obtain ⟨a, t, h₁, h₂⟩ := returns_bind.mp h
  exact hf a t b u h₂ (hp s a t h₁ hs)

theorem Keeps.ite {c : Prop} [Decidable c] {p q : Prog σ α} (hp : Keeps I p)
    (hq : Keeps I q) : Keeps I (if c then p else q) := by
  split
  · exact hp
  · exact hq

theorem Keeps.when {c : Bool} {p : Prog σ Unit} (hp : Keeps I p) : Keeps I (when c p) :=
  hp.ite keeps_pure

theorem keeps_modify {f : σ → σ} (h : ∀ s, I s → I (f s)) : Keeps I (modify f) := by
  intro s u t hr hs
  rw [returns_modify.mp hr]
  exact h s hs

theorem Keeps.loop {body : β → Prog σ (Pass β γ)} (h : ∀ b, Keeps I (body b)) {b : β} :
    Keeps I (loop body b) := by
  intro s c u hr hs
  obtain ⟨b', t, ht, hlast⟩ := hr.loop_induct (I := fun _ t => I t)
    (fun b s b' t hs hpass => h b s (.again b') t hpass hs) hs
  exact h b' t (.done c) u hlast ht

theorem Keeps.repeatN {body : β → Prog σ β} (h : ∀ b, Keeps I (body b)) :
    ∀ {n : Nat} {b : β}, Keeps I (repeatN body n b)
  | 0, _ => keeps_pure
  | _ + 1, b => (h b).bind fun _ => Keeps.repeatN h

/-- A zoomed program keeps what the component program keeps with the rest of the
state fixed. -/
theorem Keeps.zoom {l : Lens τ σ} {I : τ → Prop} {p : Prog σ α}
    (h : ∀ t, Keeps (fun s => I (l.set s t)) p) : Keeps I (zoom l p) := by
  intro t a u hr ht
  obtain ⟨s, hs, rfl⟩ := returns_zoom.mp hr
  exact h t _ a s hs (by show I (l.set (l.get t) t); rwa [l.set_get])

end Keeps

/-! ### Assertions -/

/-- `p`, which is only allowed to start in states with `P`: elsewhere it never returns. -/
def onlyIf (P : σ → Prop) [DecidablePred P] (p : Prog σ α) : Prog σ α where
  run n s := if P s then p.run n s else none
  mono := by
    intro n m s r hle h
    by_cases hP : P s
    · rw [if_pos hP] at h ⊢
      exact p.mono hle h
    · rw [if_neg hP] at h
      cases h

@[simp] theorem returns_onlyIf {P : σ → Prop} [DecidablePred P] {p : Prog σ α} {s t : σ}
    {a : α} : (onlyIf P p).Returns s a t ↔ P s ∧ p.Returns s a t := by
  unfold onlyIf Returns
  by_cases hP : P s
  · simp [hP]
  · simp [hP]

/-! ### Total correctness

`Total p s Q` says that `p`, started in `s`, returns, and that its result and
final state satisfy `Q`.
-/

def Total (p : Prog σ α) (s : σ) (Q : α → σ → Prop) : Prop :=
  ∃ a t, p.Returns s a t ∧ Q a t

section Total

variable {p : Prog σ α} {s : σ} {Q : β → σ → Prop}

/-- A run that is known. -/
theorem Total.of_returns {p : Prog σ β} {b : β} {t : σ} (h : p.Returns s b t) :
    Total p s fun b' t' => b' = b ∧ t' = t :=
  ⟨b, t, h, rfl, rfl⟩

theorem total_pure {b : β} (h : Q b s) : Total (pure b) s Q :=
  ⟨b, s, returns_pure.mpr ⟨rfl, rfl⟩, h⟩

theorem total_gets {f : σ → β} (h : Q (f s) s) : Total (gets f) s Q :=
  ⟨f s, s, returns_gets.mpr ⟨rfl, rfl⟩, h⟩

theorem Total.bind {f : α → Prog σ β} {R : α → σ → Prop} (hp : Total p s R)
    (hf : ∀ a t, R a t → Total (f a) t Q) : Total (p >>= f) s Q := by
  obtain ⟨a, t, hr, hR⟩ := hp
  obtain ⟨b, u, hr', hQ⟩ := hf a t hR
  exact ⟨b, u, returns_bind.mpr ⟨a, t, hr, hr'⟩, hQ⟩

theorem total_modify {f : σ → σ} {Q : Unit → σ → Prop} (h : Q () (f s)) : Total (modify f) s Q :=
  ⟨(), f s, returns_modify.mpr rfl, h⟩

theorem Total.modify_bind {f : σ → σ} {q : Unit → Prog σ β} (h : Total (q ()) (f s) Q) :
    Total (modify f >>= q) s Q := by
  obtain ⟨b, t, hr, hQ⟩ := h
  exact ⟨b, t, returns_bind.mpr ⟨(), f s, returns_modify.mpr rfl, hr⟩, hQ⟩

theorem Total.gets_bind {f : σ → α} {q : α → Prog σ β} (h : Total (q (f s)) s Q) :
    Total (gets f >>= q) s Q := by
  obtain ⟨b, t, hr, hQ⟩ := h
  exact ⟨b, t, returns_bind.mpr ⟨f s, s, returns_gets.mpr ⟨rfl, rfl⟩, hr⟩, hQ⟩

theorem Total.mono {R : α → σ → Prop} {Q : α → σ → Prop} (hp : Total p s R)
    (h : ∀ a t, R a t → Q a t) : Total p s Q := by
  obtain ⟨a, t, hr, hR⟩ := hp
  exact ⟨a, t, hr, h a t hR⟩

/-- What is proved of the result holds of any result, since there is only one. -/
theorem Total.returns {a : α} {t : σ} {Q : α → σ → Prop} (hp : Total p s Q)
    (h : p.Returns s a t) : Q a t := by
  obtain ⟨a', t', h', hQ⟩ := hp
  obtain ⟨rfl, rfl⟩ := h.functional h'
  exact hQ

/-- A program whose result is `v` returns `w` exactly when the two are equal. -/
theorem Total.result_iff {v w : α} (hp : Total p s fun r _ => r = v) :
    (Total p s fun r _ => r = w) ↔ v = w := by
  constructor
  · rintro ⟨_, _, hreturns, rfl⟩
    exact (hp.returns hreturns).symm
  · rintro rfl
    exact hp

/-- The variant rule: a pass that keeps the invariant and goes round again makes
the measure smaller. -/
theorem Total.loop {body : β → Prog σ (Pass β γ)} {I : β → σ → Prop} {Q : γ → σ → Prop}
    (measure : β → σ → Nat)
    (step : ∀ b s, I b s → Total (body b) s fun pass t =>
      match pass with
      | .again b' => I b' t ∧ measure b' t < measure b s
      | .done c => Q c t)
    {b : β} {s : σ} (init : I b s) : Total (loop body b) s Q := by
  induction hm : measure b s using Nat.strongRecOn generalizing b s with
  | ind m ih =>
      obtain ⟨pass, t, hpass, h⟩ := step b s init
      cases pass with
      | done c => exact ⟨c, t, returns_loop.mpr (.inl hpass), h⟩
      | again b' =>
          obtain ⟨c, u, hrest, hQ⟩ := ih _ (hm ▸ h.2) h.1 rfl
          exact ⟨c, u, returns_loop.mpr (.inr ⟨b', t, hpass, hrest⟩), hQ⟩

/-- The rule for a loop that leaves in a known pass: pass `k` starts from `b k`, goes
round again for `k < n`, and leaves for `k = n`. -/
theorem Total.loop_counted {body : β → Prog σ (Pass β γ)} {I : Nat → σ → Prop}
    {Q : γ → σ → Prop} {n : Nat} {b : Nat → β}
    (again : ∀ k s, k < n → I k s →
      ∃ t, (body (b k)).Returns s (.again (b (k + 1))) t ∧ I (k + 1) t)
    (last : ∀ s, I n s → ∃ c t, (body (b n)).Returns s (.done c) t ∧ Q c t)
    {s : σ} (init : I 0 s) : Total (Prog.loop body (b 0)) s Q := by
  suffices ∀ m k s, k + m = n → I k s → Total (Prog.loop body (b k)) s Q from
    this n 0 s (Nat.zero_add n) init
  intro m
  induction m with
  | zero =>
      intro k s hk h
      obtain rfl : k = n := hk
      obtain ⟨c, t, hlast, hQ⟩ := last s h
      exact ⟨c, t, returns_loop.mpr (.inl hlast), hQ⟩
  | succ m ih =>
      intro k s hk h
      obtain ⟨t, hpass, ht⟩ := again k s (by omega) h
      obtain ⟨c, u, hrest, hQ⟩ := ih (k + 1) t (by omega) ht
      exact ⟨c, u, returns_loop.mpr (.inr ⟨_, t, hpass, hrest⟩), hQ⟩

/-- A loop whose passes leave the state alone until one of them stops: it keeps the state
exactly when the pass that stops does. -/
theorem keeps_sweep {body : β → Prog σ (Pass β γ)} {b : Nat → β} {s : σ} {C : Nat → Prop}
    {left : Nat → σ} (again : ∀ k, C k → (body (b k)).Returns s (.again (b (k + 1))) s)
    (stop : ∀ k, ¬ C k → ∃ c, (body (b k)).Returns s (.done c) (left k)) :
    (∀ c t, (Prog.loop body (b 0)).Returns s c t → t = s) ↔
      ∀ n, (∀ k < n, C k) → ¬ C n → left n = s := by
  have ends : ∀ n, (∀ k < n, C k) → ¬ C n →
      Total (Prog.loop body (b 0)) s fun _ t => t = left n := by
    intro n hgood hbad
    refine Total.loop_counted (I := fun _ t => t = s) (n := n) (b := b) ?_ ?_ rfl
    · rintro k _ hk rfl
      exact ⟨_, again k (hgood k hk), rfl⟩
    · rintro _ rfl
      obtain ⟨c, hstop⟩ := stop n hbad
      exact ⟨c, _, hstop, rfl⟩
  constructor
  · intro hkeeps n hgood hbad
    obtain ⟨c, t, hreturns, rfl⟩ := ends n hgood hbad
    exact hkeeps c _ hreturns
  · intro hleft c t hreturns
    by_cases hlast : ∃ n, ¬ C n ∧ ∀ k < n, C k
    · obtain ⟨n, hbad, hgood⟩ := hlast
      rw [(ends n hgood hbad).returns hreturns, hleft n hgood hbad]
    · have hall : ∀ k, C k := by
        intro k
        induction k using Nat.strongRecOn with
        | ind k ih => exact Classical.byContradiction fun hbad => hlast ⟨k, hbad, ih⟩
      refine absurd hreturns (not_returns_loop (I := fun x u => (∃ k, x = b k) ∧ u = s) ?_
        ⟨⟨0, rfl⟩, rfl⟩)
      rintro _ _ ⟨⟨k, rfl⟩, rfl⟩
      exact ⟨_, _, again k (hall k), ⟨k + 1, rfl⟩, rfl⟩

/-- The rule of `repeatN`: an invariant that counts the rounds. -/
theorem Total.repeatN {body : β → Prog σ β} {I : Nat → β → σ → Prop} {n : Nat}
    (step : ∀ k b s, k < n → I k b s → Total (body b) s (I (k + 1))) {b : β} {s : σ}
    (init : I 0 b s) : Total (repeatN body n b) s (I n) := by
  suffices ∀ m k b s, k + m = n → I k b s → Total (Prog.repeatN body m b) s (I n) from
    this n 0 b s (Nat.zero_add n) init
  intro m
  induction m with
  | zero =>
      intro k b s hk h
      exact total_pure (by rwa [← hk])
  | succ m ih =>
      intro k b s hk h
      exact (step k b s (by omega) h).bind fun b' t h' => ih (k + 1) b' t (by omega) h'

/-- The same invariant for rounds that may not return. -/
theorem Returns.repeatN_induct {body : β → Prog σ β} {I : Nat → β → σ → Prop} {n : Nat}
    (step : ∀ k b s b' t, k < n → I k b s → (body b).Returns s b' t → I (k + 1) b' t)
    {b b' : β} {s t : σ} (init : I 0 b s) (h : (repeatN body n b).Returns s b' t) : I n b' t := by
  suffices ∀ m k b s, k + m = n → I k b s → (Prog.repeatN body m b).Returns s b' t → I n b' t from
    this n 0 b s (Nat.zero_add n) init h
  intro m
  induction m with
  | zero =>
      intro k b s hk hI hrun
      obtain ⟨rfl, rfl⟩ := returns_pure.mp hrun
      rwa [← hk]
  | succ m ih =>
      intro k b s hk hI hrun
      obtain ⟨b₁, s₁, hbody, hrest⟩ := returns_bind.mp hrun
      exact ih (k + 1) b₁ s₁ (by omega) (step k b s b₁ s₁ (by omega) hI hbody) hrest

/-- The converse: a `repeatN` that returns has done all its rounds. -/
theorem Returns.repeatN {body : β → Prog σ β} {I : Nat → β → σ → Prop} {P : Nat → Prop} {n : Nat}
    (good : ∀ k b s, k < n → P k → I k b s → Total (body b) s (I (k + 1)))
    (bad : ∀ k b s b' t, k < n → ¬ P k → I k b s → ¬ (body b).Returns s b' t)
    {b b' : β} {s t : σ} (init : I 0 b s) (h : (repeatN body n b).Returns s b' t) :
    ∀ k < n, P k := by
  suffices ∀ m k b s, k + m = n → I k b s → (Prog.repeatN body m b).Returns s b' t →
      ∀ j < n, k ≤ j → P j from
    fun j hj => this n 0 b s (Nat.zero_add n) init h j hj (Nat.zero_le j)
  intro m
  induction m with
  | zero =>
      intro k b s hk _ _ j hj hkj
      omega
  | succ m ih =>
      intro k b s hk hI hrun j hj hkj
      obtain ⟨b₁, s₁, hbody, hrest⟩ := returns_bind.mp hrun
      have hP : P k := Classical.byContradiction fun hnot =>
        bad k b s b₁ s₁ (by omega) hnot hI hbody
      obtain ⟨b₂, s₂, hbody', hI'⟩ := good k b s (by omega) hP hI
      obtain ⟨rfl, rfl⟩ := hbody.functional hbody'
      rcases Nat.eq_or_lt_of_le hkj with rfl | hlt
      · exact hP
      · exact ih (k + 1) b₁ s₁ (by omega) hI' hrest j hj hlt

end Total

end Prog
