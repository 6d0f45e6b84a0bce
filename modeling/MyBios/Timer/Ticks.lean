import MyBios.Bda
import MyBios.Timer.Schedule

/-!
The two handlers of the timer interrupt.

In protected mode IRQ 0 runs `handle_timer` of `timer.c`, which counts the tick and
runs the callbacks; `inc_ticks`, which `main` registers with interval 1, adds to
`bda.irq0_counter`. In real mode it runs `handle_timer` of `bios.asm`, which does
nothing but increment `bda.irq0_counter`.

`inStep_iff`: the timer state is where that many ticks put it, all along a sequence
of deliveries, exactly when all of them were taken in protected mode.
-/

namespace MyBios

open Lts

/-! ### The callbacks and the handlers -/

/-- `inc_ticks`, or some other callback. -/
inductive BiosCallback (κ : Type) where
  | incTicks
  | other (f : κ)

/-- Memory, and what the other callbacks work on. -/
structure TickEnv (ε : Type) where
  mem : ByteMem
  rest : ε

section Ticks

variable {κ ε : Type} [Callbacks κ ε]

instance biosCallbacks : Callbacks (BiosCallback κ) (TickEnv ε) where
  call
    | .incTicks, ticks, env =>
      (ticks, { env with mem := Bda.setIrq0Counter (Bda.irq0Counter env.mem + ticks) env.mem })
    | .other f, ticks, env =>
      ((Callbacks.call f ticks env.rest).1,
        { env with rest := (Callbacks.call f ticks env.rest).2 })

abbrev BiosTiming (κ ε : Type) := Timing (BiosCallback κ) (TickEnv ε)

/-- `inc dword [ds:0x6c]` with `ds = 0x40`. -/
def incIrq0Counter (m : ByteMem) : ByteMem := Bda.setIrq0Counter (Bda.irq0Counter m + 1) m

/-- The real-mode `handle_timer`. -/
def realModeHandleTimer (s : BiosTiming κ ε) : BiosTiming κ ε :=
  { s with env := { s.env with mem := incIrq0Counter s.env.mem } }

/-- The mode the processor is in. -/
inductive CpuMode where
  | protectedMode
  | realMode
  deriving DecidableEq, Repr

/-- A delivery of IRQ 0. -/
inductive TickStep : BiosTiming κ ε → CpuMode → BiosTiming κ ε → Prop where
  | protectedMode {s t : BiosTiming κ ε} : handleTimer.Returns s () t → TickStep s .protectedMode t
  | realMode {s : BiosTiming κ ε} : TickStep s .realMode (realModeHandleTimer s)

/-- The BDA is cleared, the timer initialised, `inc_ticks` registered, and then the
other callbacks. -/
def started (s : BiosTiming κ ε) (others : List (κ × U32)) : BiosTiming κ ε :=
  { s with
    timer := others.foldl (fun t f => (timerRegisterCallback (.other f.1) f.2 t).2)
      (timerRegisterCallback .incTicks 1 (timerInit s.timer)).2
    env := { s.env with mem := Bda.clear s.env.mem } }

/-- One tick in protected mode. -/
def protectedTick (s : BiosTiming κ ε) : BiosTiming κ ε :=
  checkTimerCallbacks { s with timer := { s.timer with timerTicks := s.timer.timerTicks + 1 } }

/-- Both counters are `k`, and every slot is where `k` ticks put it. -/
structure InStep (s₀ : BiosTiming κ ε) (k : Nat) (s : BiosTiming κ ε) : Prop where
  irq0Counter : Bda.irq0Counter s.env.mem = BitVec.ofNat 32 k
  timerTicks : s.timer.timerTicks = BitVec.ofNat 32 k
  slots : ∀ i, s.timer.slot i = (protectedTick^[k] s₀).timer.slot i

/-! ### A tick in protected mode -/

/-- Slot 0 belongs to `inc_ticks`, and no other slot does. -/
structure IncTicksFirst (t : DevTimer (BiosCallback κ)) : Prop where
  watchdog : t.watchdogEnabled = false
  first : t.slot 0 = ⟨some .incTicks, 1, 0⟩
  others : ∀ i, i ≠ 0 → t.timerCallbacks i ≠ some .incTicks

/-- A round of another slot leaves memory alone. -/
theorem checkSlot_mem {i : Fin 8} {s : BiosTiming κ ε}
    (h : s.timer.timerCallbacks i ≠ some .incTicks) : (checkSlot i s).env.mem = s.env.mem := by
  rw [checkSlot]
  cases hf : s.timer.timerCallbacks i with
  | none => rfl
  | some f =>
      cases f with
      | incTicks => exact absurd hf h
      | other f =>
          dsimp only
          split
          · split <;> rfl
          · rfl

/-- A round of the slot of `inc_ticks` adds 1 to the counter and leaves the slot as
it was. -/
theorem checkSlot_incTicks {s : BiosTiming κ ε} (h : s.timer.slot 0 = ⟨some .incTicks, 1, 0⟩) :
    Bda.irq0Counter (checkSlot 0 s).env.mem = Bda.irq0Counter s.env.mem + 1 ∧
      (checkSlot 0 s).timer.slot 0 = ⟨some .incTicks, 1, 0⟩ := by
  obtain ⟨hcallback, hinterval, hcounter⟩ := CallbackSlot.mk.inj h
  have hdue : (0 : U32) + 1 ≥ 1 := by decide
  have hanswer : ¬ (1 : U32) = 0 := by decide
  simp only [checkSlot, hcallback, hinterval, hcounter, if_pos hdue, Callbacks.call,
    if_neg hanswer, DevTimer.slot, Function.update_self, Bda.irq0Counter_setIrq0Counter,
    and_self]

/-- No callback appears in a round. -/
theorem checkSlot_callbacks {i j : Fin 8} {s : BiosTiming κ ε}
    (h : s.timer.timerCallbacks j ≠ some .incTicks) :
    (checkSlot i s).timer.timerCallbacks j ≠ some .incTicks := by
  by_cases hij : j = i
  · subst hij
    obtain ⟨calls, hround⟩ := checkSlot_rounds j s
    have hcallback : (checkSlot j s).timer.timerCallbacks j =
        if answerOf j calls = some 0 then none else s.timer.timerCallbacks j :=
      (hround.ticked j (List.mem_singleton_self j)).callback
    rw [hcallback]
    split
    · simp
    · exact h
  · have hother := congrArg CallbackSlot.callback (checkSlot_other hij s)
    exact fun heq => h (hother.symm.trans heq)

/-- The rounds of the other slots. -/
theorem otherSlots (is : List (Fin 8)) (his : ∀ i ∈ is, i ≠ 0) {s : BiosTiming κ ε}
    (h : ∀ i, i ≠ 0 → s.timer.timerCallbacks i ≠ some .incTicks) :
    (is.foldl (fun s i => checkSlot i s) s).env.mem = s.env.mem ∧
      (is.foldl (fun s i => checkSlot i s) s).timer.slot 0 = s.timer.slot 0 ∧
      ∀ i, i ≠ 0 → (is.foldl (fun s i => checkSlot i s) s).timer.timerCallbacks i ≠
        some .incTicks := by
  induction is generalizing s with
  | nil => exact ⟨rfl, rfl, h⟩
  | cons j is ih =>
      have hj : j ≠ 0 := his j List.mem_cons_self
      obtain ⟨hmem, hslot, hrest⟩ := ih (fun i hi => his i (List.mem_cons_of_mem _ hi))
        (s := checkSlot j s) fun i hi => checkSlot_callbacks (h i hi)
      rw [List.foldl_cons]
      exact ⟨hmem.trans (checkSlot_mem (h j hj)), hslot.trans (checkSlot_other hj.symm s), hrest⟩

/-- One tick in protected mode: both counters go up by 1. -/
theorem protectedTick_counts {s : BiosTiming κ ε} (h : IncTicksFirst s.timer) :
    Bda.irq0Counter (protectedTick s).env.mem = Bda.irq0Counter s.env.mem + 1 ∧
      (protectedTick s).timer.timerTicks = s.timer.timerTicks + 1 ∧
      IncTicksFirst (protectedTick s).timer := by
  have hframe := checkTimerCallbacks_frame
    { s with timer := { s.timer with timerTicks := s.timer.timerTicks + 1 } }
  obtain ⟨hcount, hslot⟩ := checkSlot_incTicks (κ := κ) (ε := ε)
    (s := { s with timer := { s.timer with timerTicks := s.timer.timerTicks + 1 } }) h.first
  have hloop : ∀ t : BiosTiming κ ε, checkTimerCallbacks t =
      ((List.finRange 7).map Fin.succ).foldl (fun s i => checkSlot i s) (checkSlot 0 t) := by
    intro t
    rw [checkTimerCallbacks, List.finRange_succ]
    rfl
  obtain ⟨hmem, hfirst, hothers⟩ := otherSlots ((List.finRange 7).map Fin.succ) (by
    intro i hi
    obtain ⟨j, -, rfl⟩ := List.mem_map.mp hi
    exact Fin.succ_ne_zero j)
    (s := checkSlot 0 { s with timer := { s.timer with timerTicks := s.timer.timerTicks + 1 } })
    fun i hi => checkSlot_callbacks (h.others i hi)
  rw [← hloop] at hmem hfirst hothers
  refine ⟨?_, hframe.1, hframe.2.trans h.watchdog, hfirst.trans hslot, hothers⟩
  rw [protectedTick, hmem, hcount]

/-! ### Sequences of deliveries -/

/-- Another registration does not touch the slot of `inc_ticks`. -/
theorem register_other {f : κ} {n : U32} {t : DevTimer (BiosCallback κ)} (h : IncTicksFirst t) :
    IncTicksFirst (timerRegisterCallback (.other f) n t).2 ∧
      (timerRegisterCallback (.other f) n t).2.timerTicks = t.timerTicks := by
  cases hfind : (List.finRange 8).find? fun i => (t.timerCallbacks i).isNone with
  | none =>
      rw [timerRegisterCallback, hfind]
      exact ⟨h, rfl⟩
  | some j =>
      have hfree := List.find?_some hfind
      have hnone : t.timerCallbacks j = none := Option.isNone_iff_eq_none.mp hfree
      have hj : (0 : Fin 8) ≠ j := by
        rintro rfl
        have hbusy := congrArg CallbackSlot.callback h.first
        cases hnone.symm.trans hbusy
      rw [timerRegisterCallback, hfind]
      refine ⟨⟨h.watchdog, ?_, ?_⟩, rfl⟩
      · simp only [DevTimer.slot, Function.update_of_ne hj]
        exact h.first
      · intro i hi
        by_cases hij : i = j
        · subst hij
          simp
        · simp only [Function.update_of_ne hij]
          exact h.others i hi

omit [Callbacks κ ε] in
theorem started_first (s : BiosTiming κ ε) (others : List (κ × U32)) :
    IncTicksFirst (started s others).timer ∧ (started s others).timer.timerTicks = 0 := by
  simp only [started]
  have init : IncTicksFirst (timerRegisterCallback .incTicks 1 (timerInit s.timer)).2 := by
    refine ⟨rfl, rfl, ?_⟩
    intro i hi
    have hother : (timerRegisterCallback .incTicks 1 (timerInit s.timer)).2.timerCallbacks i =
        none := Function.update_of_ne hi _ _
    rw [hother]
    simp
  have ticks : (timerRegisterCallback .incTicks 1 (timerInit s.timer)).2.timerTicks = 0 := rfl
  generalize (timerRegisterCallback .incTicks 1 (timerInit s.timer)).2 = t at init ticks
  induction others generalizing t with
  | nil => exact ⟨init, ticks⟩
  | cons f others ih =>
      obtain ⟨hfirst, hticks⟩ := register_other (f := f.1) (n := f.2) init
      exact ih _ hfirst (hticks.trans ticks)

variable {s t : BiosTiming κ ε} {others : List (κ × U32)} {ds : List CpuMode}

/-- The run lemma: deliveries in protected mode are ticks. -/
theorem protected_run (h : Run TickStep (started s others) ds t)
    (hmode : ∀ d ∈ ds, d = .protectedMode) :
    IncTicksFirst t.timer ∧ InStep (started s others) ds.length t ∧
      t = protectedTick^[ds.length] (started s others) := by
  revert hmode
  refine h.invariant (I := fun ds t => (∀ d ∈ ds, d = .protectedMode) →
    IncTicksFirst t.timer ∧ InStep (started s others) ds.length t ∧
      t = protectedTick^[ds.length] (started s others)) ?_ ?_
  · intro _
    obtain ⟨hfirst, hticks⟩ := started_first s others
    exact ⟨hfirst, ⟨Bda.irq0Counter_clear, hticks, fun i => rfl⟩, rfl⟩
  · intro ds u d v ih hstep hmode
    obtain ⟨hfirst, hin, hiter⟩ := ih fun d hd => hmode d (List.mem_append_left _ hd)
    cases hstep with
    | realMode => exact absurd (hmode .realMode (by simp)) (by simp)
    | protectedMode hreturns =>
        obtain rfl : v = protectedTick u := (returns_handleTimer hfirst.watchdog).mp hreturns
        obtain ⟨hcount, hticks, hfirst'⟩ := protectedTick_counts hfirst
        have hnext : protectedTick u = protectedTick^[(ds ++ [CpuMode.protectedMode]).length]
            (started s others) := by
          rw [List.length_append, List.length_singleton, Function.iterate_succ_apply', ← hiter]
        refine ⟨hfirst', ⟨?_, ?_, fun i => by rw [← hnext]⟩, hnext⟩
        · rw [hcount, hin.irq0Counter, List.length_append, BitVec.ofNat_add]
          rfl
        · rw [hticks, hin.timerTicks, List.length_append, BitVec.ofNat_add]
          rfl

/-- The timer state is in step all along a sequence of deliveries exactly when all of
them are taken in protected mode. -/
theorem inStep_iff (h : Run TickStep (started s others) ds t) :
    (∀ pre post u, ds = pre ++ post → Run TickStep (started s others) pre u →
        InStep (started s others) pre.length u) ↔
      ∀ d ∈ ds, d = .protectedMode := by
  constructor
  · intro hin d hd
    obtain ⟨pre, post, rfl⟩ := List.append_of_mem hd
    cases d with
    | protectedMode => rfl
    | realMode =>
        rw [List.append_cons] at h
        obtain ⟨v, hrun, -⟩ := h.split
        obtain ⟨u, hpre, hstep⟩ := hrun.last
        have before := (hin pre (.realMode :: post) u rfl hpre).timerTicks
        have after := (hin (pre ++ [.realMode]) post v (List.append_cons ..) hrun).timerTicks
        cases hstep
        rw [List.length_append, BitVec.ofNat_add] at after
        have heq := before.symm.trans after
        exact absurd (BitVec.self_eq_add_right.mp heq) (by decide)
  · intro hmode pre post u heq hrun
    subst heq
    exact (protected_run hrun fun d hd => hmode d (List.mem_append_left _ hd)).2.1

end Ticks

/-- A timer that has never been used. -/
def BiosTiming.unused : BiosTiming Unit Unit :=
  ⟨⟨0, false, 0, fun _ => none, fun _ => 0, fun _ => 0⟩, ⟨.zeros, ()⟩, []⟩

/-- Three ticks in protected mode, with another callback that is called in each of them. -/
theorem inStep_iff_three :
    ∃ t, Run TickStep (started BiosTiming.unused [((), 1)]) (List.replicate 3 .protectedMode) t ∧
      t.calls.map (·.slot) = [0, 1, 0, 1, 0, 1] ∧
      ∀ pre post u, List.replicate 3 CpuMode.protectedMode = pre ++ post →
        Run TickStep (started BiosTiming.unused [((), 1)]) pre u →
          InStep (started BiosTiming.unused [((), 1)]) pre.length u := by
  have tick (s : BiosTiming Unit Unit) (h : s.timer.watchdogEnabled = false) :
      TickStep s .protectedMode (protectedTick s) :=
    .protectedMode ((returns_handleTimer h).mpr rfl)
  have run : Run TickStep (started BiosTiming.unused [((), 1)]) (List.replicate 3 .protectedMode)
      (protectedTick (protectedTick (protectedTick (started BiosTiming.unused [((), 1)])))) :=
    ((Run.nil.snoc (tick _ rfl)).snoc (tick _ rfl)).snoc (tick _ rfl)
  exact ⟨_, run, rfl, (inStep_iff run).mpr fun d hd => List.eq_of_mem_replicate hd⟩

/-- A tick in real mode is not counted in `timer_ticks`. -/
theorem inStep_fails :
    ¬ ∀ (s : BiosTiming Unit Unit) (others : List (Unit × U32)) (ds : List CpuMode)
        (t : BiosTiming Unit Unit), Run TickStep (started s others) ds t →
          InStep (started s others) ds.length t := by
  intro h
  have run : Run TickStep (started BiosTiming.unused []) [.realMode] _ := Run.nil.snoc .realMode
  have hticks := (h _ _ _ _ run).timerTicks
  exact absurd hticks (by decide)

end MyBios
