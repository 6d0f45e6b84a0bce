import MyBios.Lib.History
import MyBios.Timer.Driver

/-!
When callbacks are called: runs of ticks, registrations and removals.

`countdown` is what a slot is about: the number of ticks to the next call, or
nothing for a free slot. It is moved by the events of that slot alone. `SlotAgrees`
ties it to the interval and the counter of a slot, and `heldAfter` is the callback
that the history has left in the slot. `tick_follows` is the step lemma for a tick,
and `run_follows` the run lemma.

`timer_schedule` puts the history of calls in terms of ticks: a callback is
called exactly when its interval is over, a stopped one never again, a registration
is refused exactly when all eight slots are in use, and what runs in a slot is the
callback that was registered there, with the answers that it gives.
-/

namespace MyBios

open Lts

/-! ### Runs -/

/-- What happens to a timer: a tick with the calls it makes, a registration with the
slot it gets, a removal, and whatever changes the environment of the callbacks. -/
inductive TimerLabel (κ : Type) where
  | tick (calls : List (TimerCall κ))
  | register (callback : κ) (interval : U32) (id : Option (Fin 8))
  | unregister (id : Fin 8)
  | env

namespace Timing

section Runs

variable {κ ε : Type} [Callbacks κ ε]

inductive Step : Timing κ ε → TimerLabel κ → Timing κ ε → Prop where
  | tick {s t : Timing κ ε} {calls : List (TimerCall κ)} :
      handleTimer.Returns s () t → t.calls = s.calls ++ calls → Step s (.tick calls) t
  | register {s : Timing κ ε} {callback : κ} {interval : U32} :
      Step s (.register callback interval (timerRegisterCallback callback interval s.timer).1)
        { s with timer := (timerRegisterCallback callback interval s.timer).2 }
  | unregister {s : Timing κ ε} {id : Fin 8} :
      Step s (.unregister id)
        { s with timer := (timerUnregisterCallback (id.val : Int) s.timer).2 }
  | env {s : Timing κ ε} {env : ε} : Step s .env { s with env := env }

/-- `timer_init` has run. -/
def initial (s : Timing κ ε) : Timing κ ε := { s with timer := timerInit s.timer }

end Runs

end Timing

/-! ### The countdown of a slot -/

/-- What concerns one slot. -/
inductive SlotEvent where
  | tick (answer : Option U32)
  | register (interval : U32)
  | unregister
  deriving DecidableEq

/-- The ticks to the next call, after an event. -/
def countdown (d : Option Nat) : SlotEvent → Option Nat
  | .tick none => d.map (· - 1)
  | .tick (some r) => if r = 0 then none else some r.toNat
  | .register n => some (max 1 n.toNat)
  | .unregister => none

section Countdown

variable {κ : Type}

/-- The part of slot `i` in a label. -/
def TimerLabel.own (i : Fin 8) : TimerLabel κ → Option SlotEvent
  | .tick calls => some (.tick (answerOf i calls))
  | .register _ n id => if id = some i then some (.register n) else none
  | .unregister id => if id = i then some .unregister else none
  | .env => none

/-- The ticks to the next call of slot `i`, after a history. -/
def dueAfter (i : Fin 8) (ls : List (TimerLabel κ)) : Option Nat :=
  (ls.filterMap (·.own i)).foldl countdown none

/-- What a label assigns to the callback of slot `i`. -/
def TimerLabel.assigns (i : Fin 8) : TimerLabel κ → Option (Option κ)
  | .tick calls => if answerOf i calls = some 0 then some none else none
  | .register f _ id => if id = some i then some (some f) else none
  | .unregister id => if id = i then some none else none
  | .env => none

theorem TimerLabel.assigns_of_own {i : Fin 8} {l : TimerLabel κ} (h : l.own i = none) :
    l.assigns i = none := by
  cases l with
  | tick calls => cases h
  | register f n id =>
      by_cases hid : id = some i
      · simp [own, hid] at h
      · simp [assigns, hid]
  | unregister id =>
      by_cases hid : id = i
      · simp [own, hid] at h
      · simp [assigns, hid]
  | env => rfl

/-- The callback in slot `i`, after a history. -/
def heldAfter (i : Fin 8) (ls : List (TimerLabel κ)) : Option κ :=
  History.assigned (·.assigns i) ls

/-- The slot is as the countdown says. -/
inductive SlotAgrees : CallbackSlot κ → Option Nat → Prop where
  | free {n c : U32} : SlotAgrees ⟨none, n, c⟩ none
  | due {f : κ} {n c : U32} {k : Nat} :
      1 ≤ k → c.toNat + k = max 1 n.toNat → SlotAgrees ⟨some f, n, c⟩ (some k)

/-- A tick calls the callback exactly when the countdown is at 1. -/
theorem tick_agrees {slot slot' : CallbackSlot κ} {d : Option Nat} {answer : Option U32}
    (h : SlotAgrees slot d) (ht : slot.Tick answer slot') :
    (answer.isSome ↔ d = some 1) ∧ SlotAgrees slot' (countdown d (.tick answer)) := by
  cases h with
  | free =>
      cases ht with
      | free => exact ⟨by simp, .free⟩
  | @due f n c k hk hsum =>
      have hn := n.isLt
      have hnext : (c + 1).toNat = c.toNat + 1 := by
        rw [BitVec.toNat_add, show (1 : U32).toNat = 1 from rfl]
        omega
      have hdue : c + 1 ≥ n ↔ k = 1 := by
        rw [ge_iff_le, BitVec.le_def, hnext]
        omega
      cases ht with
      | wait hwait =>
          rw [hdue] at hwait
          refine ⟨by simp [hwait], .due (k := k - 1) (by omega) ?_⟩
          rw [hnext]
          omega
      | stop hover => exact ⟨by simp [hdue.mp hover], .free⟩
      | @again _ _ _ r hover hr =>
          have hpos : r.toNat ≠ 0 := fun h => hr (BitVec.eq_of_toNat_eq h)
          refine ⟨by simp [hdue.mp hover], ?_⟩
          rw [countdown, if_neg hr]
          exact .due (by omega) (by rw [show (0 : U32).toNat = 0 from rfl]; omega)

theorem dueAfter_snoc {i : Fin 8} {ls : List (TimerLabel κ)} {l : TimerLabel κ} :
    dueAfter i (ls ++ [l]) =
      match l.own i with
      | none => dueAfter i ls
      | some e => countdown (dueAfter i ls) e := by
  rw [dueAfter, List.filterMap_append, List.foldl_append]
  cases h : l.own i with
  | none => simp [h, dueAfter]
  | some e => simp [h, dueAfter]

theorem heldAfter_snoc {i : Fin 8} {ls : List (TimerLabel κ)} {l : TimerLabel κ} :
    heldAfter i (ls ++ [l]) = (l.assigns i).getD (heldAfter i ls) :=
  History.assigned_snoc

end Countdown

/-! ### Every slot follows its countdown -/

section Simulation

variable {κ ε : Type}

/-- The watchdog is off, and the slots are as the history has left them. -/
structure Follows (ls : List (TimerLabel κ)) (s : Timing κ ε) : Prop where
  watchdog : s.timer.watchdogEnabled = false
  agrees : ∀ i, SlotAgrees (s.timer.slot i) (dueAfter i ls)
  holds : ∀ i, s.timer.timerCallbacks i = heldAfter i ls

/-- What a step shows of the history before it. -/
def Shows (ls : List (TimerLabel κ)) : TimerLabel κ → Prop
  | .tick calls => (∀ i, (calls.filter (·.slot = i)).length ≤ 1 ∧
      ((answerOf i calls).isSome ↔ dueAfter i ls = some 1)) ∧
      ∀ c ∈ calls, heldAfter c.slot ls = some c.callback
  | .register _ _ id => (id = none ↔ ∀ i, dueAfter i ls ≠ none) ∧
      ∀ i, id = some i → dueAfter i ls = none
  | _ => True

/-- A slot is free exactly when its countdown is nothing. -/
theorem Follows.free_iff {ls : List (TimerLabel κ)} {s : Timing κ ε} (h : Follows ls s)
    (i : Fin 8) : s.timer.timerCallbacks i = none ↔ dueAfter i ls = none := by
  have hslot := h.agrees i
  rw [DevTimer.slot] at hslot
  generalize s.timer.timerCallbacks i = callback at hslot ⊢
  generalize dueAfter i ls = d at hslot ⊢
  cases hslot with
  | free => simp
  | due => simp

variable {ls : List (TimerLabel κ)} {s t : Timing κ ε}

theorem Follows.of_slots (hwatchdog : s.timer.watchdogEnabled = false)
    (hslots : ∀ i, SlotAgrees (s.timer.slot i) (dueAfter i ls) ∧
      s.timer.timerCallbacks i = heldAfter i ls) : Follows ls s :=
  ⟨hwatchdog, fun i => (hslots i).1, fun i => (hslots i).2⟩

/-- A slot that neither an event nor the state changes. -/
theorem Follows.unchanged {i : Fin 8} {l : TimerLabel κ} (h : Follows ls s) (hown : l.own i = none)
    (hslot : t.timer.slot i = s.timer.slot i) :
    SlotAgrees (t.timer.slot i) (dueAfter i (ls ++ [l])) ∧
      t.timer.timerCallbacks i = heldAfter i (ls ++ [l]) := by
  have hcallback : t.timer.timerCallbacks i = s.timer.timerCallbacks i :=
    congrArg CallbackSlot.callback hslot
  rw [dueAfter_snoc, hown, heldAfter_snoc, TimerLabel.assigns_of_own hown, hslot, hcallback]
  exact ⟨h.agrees i, h.holds i⟩

theorem register_follows {f : κ} {n : U32} (h : Follows ls s) :
    Shows ls (.register f n (timerRegisterCallback f n s.timer).1) ∧
      Follows (ls ++ [.register f n (timerRegisterCallback f n s.timer).1])
        { s with timer := (timerRegisterCallback f n s.timer).2 } := by
  cases hfind : (List.finRange 8).find? fun i => (s.timer.timerCallbacks i).isNone with
  | none =>
      have hlive : ∀ i, dueAfter i ls ≠ none := by
        intro i hnone
        have hbusy := List.find?_eq_none.mp hfind i (List.mem_finRange i)
        rw [(h.free_iff i).mpr hnone] at hbusy
        exact hbusy rfl
      rw [timerRegisterCallback, hfind]
      exact ⟨⟨iff_of_true rfl hlive, fun i hi => by cases hi⟩,
        .of_slots h.watchdog fun i => h.unchanged rfl rfl⟩
  | some j =>
      have hfree : dueAfter j ls = none := by
        have hnone := List.find?_some hfind
        exact (h.free_iff j).mp (Option.isNone_iff_eq_none.mp hnone)
      rw [timerRegisterCallback, hfind]
      refine ⟨⟨iff_of_false (by simp) fun hlive => hlive j hfree, ?_⟩, ?_⟩
      · intro i hi
        cases hi
        exact hfree
      refine .of_slots h.watchdog fun i => ?_
      by_cases hi : j = i
      · subst hi
        rw [dueAfter_snoc, heldAfter_snoc]
        refine ⟨?_, by simp [TimerLabel.assigns]⟩
        simp only [TimerLabel.own, if_true, DevTimer.slot, Function.update_self, countdown]
        exact .due (by omega) (by rw [show (0 : U32).toNat = 0 from rfl]; omega)
      · have hne : i ≠ j := fun heq => hi heq.symm
        exact h.unchanged (by simp [TimerLabel.own, hi])
          (by simp only [DevTimer.slot, Function.update_of_ne hne])

theorem unregister_follows {id : Fin 8} (h : Follows ls s) :
    Follows (ls ++ [.unregister id])
      { s with timer := (timerUnregisterCallback (id.val : Int) s.timer).2 } := by
  rw [timerUnregisterCallback_valid]
  refine .of_slots h.watchdog fun i => ?_
  by_cases hi : id = i
  · subst hi
    rw [dueAfter_snoc, heldAfter_snoc]
    refine ⟨?_, by simp [TimerLabel.assigns]⟩
    simp only [TimerLabel.own, if_true, DevTimer.slot, Function.update_self, countdown]
    exact .free
  · have hne : i ≠ id := fun heq => hi heq.symm
    exact h.unchanged (by simp [TimerLabel.own, hi])
      (by simp only [DevTimer.slot, Function.update_of_ne hne])

variable [Callbacks κ ε]

/-- With the watchdog off, a tick is the rounds of all slots. -/
theorem tick_rounds {calls : List (TimerCall κ)} (h : s.timer.watchdogEnabled = false)
    (hreturns : handleTimer.Returns s () t) (hcalls : t.calls = s.calls ++ calls) :
    Rounds (List.finRange 8)
        { s with timer := { s.timer with timerTicks := s.timer.timerTicks + 1 } } calls t ∧
      t.timer.watchdogEnabled = false := by
  rw [returns_handleTimer h] at hreturns
  subst hreturns
  obtain ⟨calls', hrounds⟩ := checkTimerCallbacks_rounds
    { s with timer := { s.timer with timerTicks := s.timer.timerTicks + 1 } }
  obtain rfl : calls' = calls := List.append_cancel_left (hrounds.logged.symm.trans hcalls)
  exact ⟨hrounds, (checkTimerCallbacks_frame _).2.trans h⟩

theorem tick_follows {calls : List (TimerCall κ)} (h : Follows ls s)
    (hreturns : handleTimer.Returns s () t) (hcalls : t.calls = s.calls ++ calls) :
    Shows ls (.tick calls) ∧ Follows (ls ++ [.tick calls]) t := by
  obtain ⟨hrounds, hwatchdog⟩ := tick_rounds h.watchdog hreturns hcalls
  have hslot := fun i => hrounds.ticked i (List.mem_finRange i)
  have htick := fun i => tick_agrees (h.agrees i) (hslot i)
  refine ⟨⟨fun i => ⟨hrounds.once i, (htick i).1⟩, ?_⟩, hwatchdog, ?_, ?_⟩
  · intro c hc
    exact (h.holds c.slot).symm.trans (hrounds.own c hc).2
  · intro i
    rw [dueAfter_snoc]
    exact (htick i).2
  · intro i
    have hcallback : t.timer.timerCallbacks i =
        if answerOf i calls = some 0 then none else s.timer.timerCallbacks i := (hslot i).callback
    rw [heldAfter_snoc, hcallback, h.holds i, TimerLabel.assigns]
    split <;> rfl

/-- The step lemma. -/
theorem step_follows {l : TimerLabel κ} (h : Follows ls s) (hstep : s.Step l t) :
    Shows ls l ∧ Follows (ls ++ [l]) t := by
  cases hstep with
  | tick hreturns hcalls => exact tick_follows h hreturns hcalls
  | register => exact register_follows h
  | unregister => exact ⟨trivial, unregister_follows h⟩
  | env => exact ⟨trivial, .of_slots h.watchdog fun i => h.unchanged rfl rfl⟩

/-- The run lemma. -/
theorem run_follows (h : Run Timing.Step s.initial ls t) : Follows ls t := by
  refine h.invariant ⟨rfl, fun i => .free, fun i => rfl⟩ ?_
  intro ls s l t hs hstep
  exact (step_follows hs hstep).2

/-- At every step of a run the history shows. -/
theorem run_shows {pre post : List (TimerLabel κ)} {l : TimerLabel κ}
    (h : Run Timing.Step s.initial (pre ++ l :: post) t) : Shows pre l := by
  rw [List.append_cons] at h
  obtain ⟨u, hprefix, -⟩ := h.split
  obtain ⟨v, hrun, hstep⟩ := hprefix.last
  exact (step_follows (run_follows hrun) hstep).1

/-- A next tick always returns. -/
theorem run_ticks (h : Run Timing.Step s.initial ls t) :
    ∃ (calls : List (TimerCall κ)) (u : Timing κ ε), t.Step (.tick calls) u := by
  obtain ⟨calls, hrounds⟩ := checkTimerCallbacks_rounds
    { t with timer := { t.timer with timerTicks := t.timer.timerTicks + 1 } }
  exact ⟨calls, _, .tick ((returns_handleTimer (run_follows h).watchdog).mpr rfl) hrounds.logged⟩

/-- In every tick of the run the callbacks of its calls ran, in their order and with the answers
that the label has. -/
def Ran (s : Timing κ ε) (ls : List (TimerLabel κ)) (t : Timing κ ε) : Prop :=
  ∀ pre calls post, ls = pre ++ .tick calls :: post →
    ∃ u v : Timing κ ε, Run Timing.Step s pre u ∧ u.Step (.tick calls) v ∧
      Run Timing.Step v post t ∧ Run TimerCall.Runs u.env calls v.env

theorem run_ran (h : Run Timing.Step s.initial ls t) : Ran s.initial ls t := by
  rintro pre calls post rfl
  rw [List.append_cons] at h
  obtain ⟨v, hprefix, hrest⟩ := h.split
  obtain ⟨u, hrun, hstep⟩ := hprefix.last
  refine ⟨u, v, hrun, hstep, hrest, ?_⟩
  cases hstep with
  | tick hreturns hcalls => exact (tick_rounds (run_follows hrun).watchdog hreturns hcalls).1.ran

end Simulation

/-! ### Histories in terms of ticks -/

section History

variable {κ : Type}

def TimerLabel.isTick : TimerLabel κ → Bool
  | .tick _ => true
  | _ => false

def ticks (ls : List (TimerLabel κ)) : Nat := ls.countP (·.isTick)

/-- A history in which every step shows the countdowns before it. -/
def Punctual (ls : List (TimerLabel κ)) : Prop :=
  ∀ pre l post, ls = pre ++ l :: post → Shows pre l

theorem Punctual.append_left {ls ks : List (TimerLabel κ)} (h : Punctual (ls ++ ks)) :
    Punctual ls := by
  rintro pre l post rfl
  exact h pre l (post ++ ks) (by simp)

theorem Punctual.last {ls : List (TimerLabel κ)} {l : TimerLabel κ} (h : Punctual (ls ++ [l])) :
    Shows ls l :=
  h ls l [] rfl

theorem ticks_snoc {ls : List (TimerLabel κ)} {l : TimerLabel κ} :
    ticks (ls ++ [l]) = ticks ls + if l.isTick then 1 else 0 := by
  rw [ticks, List.countP_append, List.countP_singleton]
  rfl

/-- While a callback is waiting, its countdown goes down by the ticks. -/
theorem countdown_ticks {i : Fin 8} {ls mid : List (TimerLabel κ)} {n : Nat}
    (h : Punctual (ls ++ mid)) (hdue : dueAfter i ls = some n) (hkept : .unregister i ∉ mid)
    (hlt : ticks mid < n) : dueAfter i (ls ++ mid) = some (n - ticks mid) := by
  induction mid using List.reverseRecOn with
  | nil => simpa [ticks] using hdue
  | append_singleton mid l ih =>
      rw [← List.append_assoc] at h ⊢
      rw [List.mem_append, List.mem_singleton, not_or] at hkept
      rw [ticks_snoc] at hlt ⊢
      have hmid := ih h.append_left hkept.1 (by omega)
      have hshows := h.last
      rw [dueAfter_snoc, hmid]
      cases l with
      | tick calls =>
          have hcalled := (hshows.1 i).2
          simp only [TimerLabel.isTick, if_true] at hlt ⊢
          rw [hmid, Option.some.injEq] at hcalled
          have hnone : answerOf i calls = none := by
            rw [← Option.not_isSome_iff_eq_none, hcalled]
            omega
          simp only [TimerLabel.own, hnone, countdown, Option.map_some, Option.some.injEq]
          omega
      | register f m id =>
          by_cases hid : id = some i
          · exact absurd (hmid.symm.trans (hshows.2 i hid)) (by simp)
          · simp [TimerLabel.own, hid, TimerLabel.isTick]
      | unregister id =>
          have hid : ¬ id = i := fun heq => hkept.2 (heq ▸ rfl)
          simp [TimerLabel.own, hid, TimerLabel.isTick]
      | env => simp [TimerLabel.own, TimerLabel.isTick]

/-- A free slot stays free until it is registered. -/
theorem free_until_registered {i : Fin 8} {ls mid : List (TimerLabel κ)}
    (h : Punctual (ls ++ mid)) (hfree : dueAfter i ls = none)
    (hkept : ∀ f n, .register f n (some i) ∉ mid) : dueAfter i (ls ++ mid) = none := by
  induction mid using List.reverseRecOn with
  | nil => simpa using hfree
  | append_singleton mid l ih =>
      rw [← List.append_assoc] at h ⊢
      have hmid := ih h.append_left fun f n hmem => hkept f n (List.mem_append_left _ hmem)
      have hshows := h.last
      rw [dueAfter_snoc, hmid]
      cases l with
      | tick calls =>
          have hnone : answerOf i calls = none := by
            rw [← Option.not_isSome_iff_eq_none, (hshows.1 i).2, hmid]
            simp
          simp [TimerLabel.own, hnone, countdown]
      | register f m id =>
          have hid : ¬ id = some i := by
            rintro rfl
            exact hkept f m (by simp)
          simp [TimerLabel.own, hid]
      | unregister id =>
          by_cases hid : id = i <;> simp [TimerLabel.own, hid, countdown]
      | env => simp [TimerLabel.own]

/-- Slot `i` was last registered with callback `f`, which has neither been removed nor answered 0
since. -/
def HeldBy (i : Fin 8) (f : κ) (ls : List (TimerLabel κ)) : Prop :=
  ∃ pre n post, ls = pre ++ .register f n (some i) :: post ∧
    (∀ g m, .register g m (some i) ∉ post) ∧ .unregister i ∉ post ∧
      ∀ calls, .tick calls ∈ post → answerOf i calls ≠ some 0

/-- Whether slot `i` has a callback, by what has happened to it. -/
def Live (i : Fin 8) (ls : List (TimerLabel κ)) : Prop := ∃ f, HeldBy i f ls

theorem assigns_some_iff {i : Fin 8} {l : TimerLabel κ} {f : κ} :
    l.assigns i = some (some f) ↔ ∃ n, l = .register f n (some i) := by
  cases l with
  | tick calls => simp [TimerLabel.assigns]
  | register g n id =>
      constructor
      · intro h
        by_cases hid : id = some i
        · subst hid
          simp only [TimerLabel.assigns, if_true, Option.some.injEq] at h
          exact ⟨n, by rw [h]⟩
        · simp [TimerLabel.assigns, hid] at h
      · rintro ⟨m, h⟩
        cases h
        simp [TimerLabel.assigns]
  | unregister id => simp [TimerLabel.assigns]
  | env => simp [TimerLabel.assigns]

theorem assigns_none_iff {i : Fin 8} {l : TimerLabel κ} :
    l.assigns i = none ↔ (∀ g m, l ≠ .register g m (some i)) ∧ l ≠ .unregister i ∧
      ∀ calls, l = .tick calls → answerOf i calls ≠ some 0 := by
  cases l with
  | tick calls => simp [TimerLabel.assigns]
  | register g n id => simp [TimerLabel.assigns]
  | unregister id => simp [TimerLabel.assigns]
  | env => simp [TimerLabel.assigns]

theorem heldAfter_eq_some_iff {i : Fin 8} {f : κ} {ls : List (TimerLabel κ)} :
    heldAfter i ls = some f ↔ HeldBy i f ls := by
  rw [heldAfter, History.assigned_eq_some_iff]
  constructor
  · rintro ⟨pre, l, post, rfl, hl, hpost⟩
    obtain ⟨n, rfl⟩ := assigns_some_iff.mp hl
    refine ⟨pre, n, post, rfl, ?_, ?_, ?_⟩
    · exact fun g m hmem => (assigns_none_iff.mp (hpost _ hmem)).1 g m rfl
    · exact fun hmem => (assigns_none_iff.mp (hpost _ hmem)).2.1 rfl
    · exact fun calls hmem => (assigns_none_iff.mp (hpost _ hmem)).2.2 calls rfl
  · rintro ⟨pre, n, post, rfl, hanew, hkept, hanswers⟩
    refine ⟨pre, _, post, rfl, assigns_some_iff.mpr ⟨n, rfl⟩, fun l hmem => ?_⟩
    refine assigns_none_iff.mpr ⟨?_, ?_, ?_⟩
    · rintro g m rfl
      exact hanew g m hmem
    · rintro rfl
      exact hkept hmem
    · rintro calls rfl
      exact hanswers calls hmem

/-- A slot has a callback exactly when its countdown runs. -/
theorem live_iff {i : Fin 8} {ls : List (TimerLabel κ)} (h : Punctual ls) :
    Live i ls ↔ dueAfter i ls ≠ none := by
  simp only [Live, ← heldAfter_eq_some_iff, ← Option.ne_none_iff_exists']
  induction ls using List.reverseRecOn with
  | nil => simp [heldAfter, History.assigned, dueAfter]
  | append_singleton ls l ih =>
      have hls := ih h.append_left
      have hshows := h.last
      rw [heldAfter_snoc, dueAfter_snoc]
      cases l with
      | tick calls =>
          have hcalled := (hshows.1 i).2
          cases hanswer : answerOf i calls with
          | none => simpa [TimerLabel.own, TimerLabel.assigns, hanswer, countdown] using hls
          | some r =>
              rw [hanswer] at hcalled
              have hdue := hcalled.mp rfl
              rw [hdue] at hls
              by_cases hr : r = 0
              · simp [TimerLabel.own, TimerLabel.assigns, hanswer, countdown, hr]
              · simp only [TimerLabel.own, TimerLabel.assigns, hanswer, countdown,
                  Option.some.injEq, if_neg hr, Option.getD_none]
                simpa using hls
      | register f n id =>
          by_cases hid : id = some i
          · simp [TimerLabel.own, TimerLabel.assigns, hid, countdown]
          · simpa [TimerLabel.own, TimerLabel.assigns, hid] using hls
      | unregister id =>
          by_cases hid : id = i
          · simp [TimerLabel.own, TimerLabel.assigns, hid, countdown]
          · simpa [TimerLabel.own, TimerLabel.assigns, hid] using hls
      | env => simpa [TimerLabel.own, TimerLabel.assigns] using hls

/-! ### The schedule -/

/-- An event after which slot `i` is free. -/
def Stops (i : Fin 8) (l : TimerLabel κ) : Prop :=
  l = .unregister i ∨ ∃ calls, l = .tick calls ∧ answerOf i calls = some 0

/-- A history in which callbacks are called when they should be. -/
structure OnSchedule (ls : List (TimerLabel κ)) : Prop where
  /-- A tick calls a callback at most once. -/
  once : ∀ pre calls i, ls = pre ++ [.tick calls] → (calls.filter (·.slot = i)).length ≤ 1
  /-- A call runs the callback that its slot was last registered with. -/
  called : ∀ pre calls c, ls = pre ++ [.tick calls] → c ∈ calls → HeldBy c.slot c.callback pre
  /-- After a registration with interval `n`, the first call is in tick `n`. -/
  first : ∀ pre f n i mid calls, ls = pre ++ .register f n (some i) :: (mid ++ [.tick calls]) →
    1 ≤ n.toNat → .unregister i ∉ mid → ticks mid < n.toNat →
      ((answerOf i calls).isSome ↔ ticks mid + 1 = n.toNat)
  /-- After a call that returns `r > 0`, the next call is in tick `r`. -/
  again : ∀ pre calls₀ i r mid calls, ls = pre ++ .tick calls₀ :: (mid ++ [.tick calls]) →
    answerOf i calls₀ = some r → 0 < r.toNat → .unregister i ∉ mid → ticks mid < r.toNat →
      ((answerOf i calls).isSome ↔ ticks mid + 1 = r.toNat)
  /-- After a call that returns 0, or a removal, there is no call. -/
  stopped : ∀ pre l i mid calls, ls = pre ++ l :: (mid ++ [.tick calls]) → Stops i l →
    (∀ f n, .register f n (some i) ∉ mid) → answerOf i calls = none
  /-- A registration is refused when all slots are in use, and takes a free one. -/
  registered : ∀ pre f n id, ls = pre ++ [.register f n id] →
    (id = none ↔ ∀ i, Live i pre) ∧ ∀ i, id = some i → ¬ Live i pre

/-- The tick at the end of a wait. -/
theorem Punctual.next {pre mid : List (TimerLabel κ)} {l : TimerLabel κ}
    {calls : List (TimerCall κ)} {i : Fin 8} {n : Nat}
    (h : Punctual (pre ++ l :: (mid ++ [.tick calls])))
    (hdue : dueAfter i (pre ++ [l]) = some n) (hkept : .unregister i ∉ mid)
    (hlt : ticks mid < n) : (answerOf i calls).isSome ↔ ticks mid + 1 = n := by
  rw [List.append_cons, ← List.append_assoc] at h
  rw [(h.last.1 i).2, countdown_ticks h.append_left hdue hkept hlt, Option.some.injEq]
  omega

theorem Punctual.onSchedule {ls : List (TimerLabel κ)} (h : Punctual ls) : OnSchedule ls := by
  refine ⟨?_, ?_, ?_, ?_, ?_, ?_⟩
  · rintro pre calls i rfl
    exact (h.last.1 i).1
  · rintro pre calls c rfl hc
    exact heldAfter_eq_some_iff.mp (h.last.2 c hc)
  · rintro pre f n i mid calls rfl hn hkept hlt
    refine h.next ?_ hkept hlt
    rw [dueAfter_snoc]
    simp [TimerLabel.own, countdown, hn]
  · rintro pre calls₀ i r mid calls rfl hr hpos hkept hlt
    have hne : r ≠ 0 := by
      rintro rfl
      exact absurd hpos (by decide)
    refine h.next ?_ hkept hlt
    rw [dueAfter_snoc]
    simp only [TimerLabel.own, hr, countdown, if_neg hne]
  · rintro pre l i mid calls rfl hl hkept
    have hfree : dueAfter i (pre ++ [l]) = none := by
      rw [dueAfter_snoc]
      rcases hl with rfl | ⟨calls₀, rfl, hanswer⟩
      · simp [TimerLabel.own, countdown]
      · simp [TimerLabel.own, hanswer, countdown]
    rw [List.append_cons, ← List.append_assoc] at h
    rw [← Option.not_isSome_iff_eq_none, (h.last.1 i).2,
      free_until_registered h.append_left hfree hkept]
    simp
  · rintro pre f n id rfl
    have hlive : ∀ i, Live i pre ↔ dueAfter i pre ≠ none := fun i => live_iff h.append_left
    simp only [hlive, not_not]
    exact h.last

/-- Two histories that look the same from a slot call it in the same ticks. -/
def SameSchedule (ls ls' : List (TimerLabel κ)) : Prop :=
  ∀ i pre calls pre' calls', ls = pre ++ [.tick calls] → ls' = pre' ++ [.tick calls'] →
    pre.filterMap (·.own i) = pre'.filterMap (·.own i) →
      ((answerOf i calls).isSome ↔ (answerOf i calls').isSome)

theorem Punctual.same {ls ls' : List (TimerLabel κ)} (h : Punctual ls) (h' : Punctual ls') :
    SameSchedule ls ls' := by
  rintro i pre calls pre' calls' rfl rfl hown
  rw [(h.last.1 i).2, (h'.last.1 i).2, dueAfter, dueAfter, hown]

end History

/-- In every run callbacks are called on schedule and answer for themselves, a slot has the
callback it was last registered with until that is stopped, the schedule of a slot depends on
its own events only, and the run can go on with a tick. -/
theorem timer_schedule {κ ε : Type} [Callbacks κ ε] {s t : Timing κ ε} {ls : List (TimerLabel κ)}
    (h : Run Timing.Step s.initial ls t) :
    OnSchedule ls ∧ Ran s.initial ls t ∧
      (∀ i f, t.timer.timerCallbacks i = some f ↔ HeldBy i f ls) ∧
      (∀ (s' t' : Timing κ ε) (ls' : List (TimerLabel κ)), Run Timing.Step s'.initial ls' t' →
        SameSchedule ls ls') ∧
      ∃ (calls : List (TimerCall κ)) (u : Timing κ ε), t.Step (.tick calls) u := by
  have hls : Punctual ls := by
    rintro pre l post rfl
    exact run_shows h
  refine ⟨hls.onSchedule, run_ran h, fun i f => ?_, ?_, run_ticks h⟩
  · rw [(run_follows h).holds i]
    exact heldAfter_eq_some_iff
  · intro s' t' ls' h'
    refine hls.same ?_
    rintro pre l post rfl
    exact run_shows h'

/-- A callback that asks to be called in every tick. -/
instance everyTick : Callbacks Unit Unit where
  call _ _ env := (1, env)

/-- A timer that has never been used. -/
def Timing.unused : Timing Unit Unit :=
  ⟨⟨0, false, 0, fun _ => none, fun _ => 0, fun _ => 0⟩, (), []⟩

/-- Registered in slot `i`, called twice, removed, and a tick without a call. -/
def callsUntilRemoved (i : Fin 8) : List (TimerLabel Unit) :=
  [.register () 1 (some i), .tick [⟨i, (), 1, 1⟩], .tick [⟨i, (), 1, 1⟩], .unregister i, .tick []]

theorem run_callsUntilRemoved :
    ∃ t, Run Timing.Step Timing.unused.initial (callsUntilRemoved 0) t := by
  have registered : Run Timing.Step Timing.unused.initial
      [.register () 1 (timerRegisterCallback () 1 Timing.unused.initial.timer).1] _ :=
    Run.nil.snoc .register
  have called := (registered.snoc (.tick ((returns_handleTimer rfl).mpr rfl) rfl)).snoc
    (.tick ((returns_handleTimer rfl).mpr rfl) rfl)
  have removed (s : Timing Unit Unit) : s.Step (.unregister 0) _ := .unregister
  exact ⟨_, (called.snoc (removed _)).snoc (.tick ((returns_handleTimer rfl).mpr rfl) rfl)⟩

theorem timer_schedule_everyTick :
    ∃ t, Run Timing.Step Timing.unused.initial (callsUntilRemoved 0) t ∧
      OnSchedule (callsUntilRemoved 0) ∧ Ran Timing.unused.initial (callsUntilRemoved 0) t ∧
      ∀ i f, t.timer.timerCallbacks i = some f ↔ HeldBy i f (callsUntilRemoved 0) := by
  obtain ⟨t, run⟩ := run_callsUntilRemoved
  obtain ⟨hschedule, hran, hheld, -⟩ := timer_schedule run
  exact ⟨t, run, hschedule, hran, hheld⟩

end MyBios
