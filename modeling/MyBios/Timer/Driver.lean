import Mathlib.Data.BitVec
import Mathlib.Data.List.FinRange
import MyBios.Lib.Lts
import MyBios.Machine

/-!
The timer and its callbacks (`timer.c`).

A callback is a C function of its interval, which returns the next interval. What
it does besides is a parameter: `Callbacks κ ε` runs a callback of type `κ` in some
environment `ε`. The state logs the calls, oldest first, which is what statements
about schedules are about.

`Rounds` says what the rounds of the loop for some of the slots do: which callbacks
run, in what order and with which answers, and what becomes of the slots. `checkSlot_rounds`
is one round and `checkTimerCallbacks_rounds` all eight.
-/

namespace MyBios

open Prog Lts

/-- What a callback returns for an interval, and what it does to its environment. -/
class Callbacks (κ ε : Type) where
  call : κ → U32 → ε → U32 × ε

/-- `dev_timer`, without `base` and `frequency`, which nothing reads. -/
structure DevTimer (κ : Type) where
  watchdogCounter : U32
  watchdogEnabled : Bool
  timerTicks : U32
  timerCallbacks : Fin 8 → Option κ
  callbackIntervals : Fin 8 → U32
  callbackCounters : Fin 8 → U32

/-- One call of a callback. -/
structure TimerCall (κ : Type) where
  slot : Fin 8
  callback : κ
  interval : U32
  answer : U32

/-- The timer, what its callbacks work on, and the calls so far. -/
structure Timing (κ ε : Type) where
  timer : DevTimer κ
  env : ε
  calls : List (TimerCall κ)

section Driver

variable {κ ε : Type} [Callbacks κ ε]

/-! ### The program -/

/-- One round of the loop of `check_timer_callbacks`. -/
def checkSlot (i : Fin 8) (s : Timing κ ε) : Timing κ ε :=
  match s.timer.timerCallbacks i with
  | none => s
  | some callback =>
    let counter := s.timer.callbackCounters i + 1
    let interval := s.timer.callbackIntervals i
    let counted := Function.update s.timer.callbackCounters i counter
    if counter ≥ interval then
      let called := Callbacks.call callback interval s.env
      let calls := s.calls ++ [⟨i, callback, interval, called.1⟩]
      if called.1 = 0 then
        { timer := { s.timer with
            callbackCounters := counted
            timerCallbacks := Function.update s.timer.timerCallbacks i none }
          env := called.2
          calls := calls }
      else
        { timer := { s.timer with
            callbackIntervals := Function.update s.timer.callbackIntervals i called.1
            callbackCounters := Function.update counted i 0 }
          env := called.2
          calls := calls }
    else { s with timer := { s.timer with callbackCounters := counted } }

def checkTimerCallbacks (s : Timing κ ε) : Timing κ ε :=
  (List.finRange 8).foldl (fun s i => checkSlot i s) s

/-- `handle_timer`. -/
def handleTimer : Prog (Timing κ ε) Unit := do
  if (← get).timer.watchdogEnabled then
    modify fun s => { s with timer := { s.timer with
      watchdogCounter := s.timer.watchdogCounter + 1 } }
    if (1000 : U32).slt (← get).timer.watchdogCounter then hlt else pure ()
  else pure ()
  modify fun s => { s with timer := { s.timer with timerTicks := s.timer.timerTicks + 1 } }
  modify checkTimerCallbacks

/-- `timer_register_callback`: the first free slot, or `none` for −1. -/
def timerRegisterCallback (callback : κ) (interval : U32) (t : DevTimer κ) :
    Option (Fin 8) × DevTimer κ :=
  match (List.finRange 8).find? fun i => (t.timerCallbacks i).isNone with
  | some i =>
    (some i, { t with
      timerCallbacks := Function.update t.timerCallbacks i (some callback)
      callbackIntervals := Function.update t.callbackIntervals i interval
      callbackCounters := Function.update t.callbackCounters i 0 })
  | none => (none, t)

/-- `timer->timer_callbacks[id] = NULL`, wherever that is: the intervals and the
counters lie behind the array. -/
def clearCallback (id : Nat) (t : DevTimer κ) : DevTimer κ :=
  if h : id < 8 then { t with timerCallbacks := Function.update t.timerCallbacks ⟨id, h⟩ none }
  else if h : id - 8 < 8 then
    { t with callbackIntervals := Function.update t.callbackIntervals ⟨id - 8, h⟩ 0 }
  else if h : id - 16 < 8 then
    { t with callbackCounters := Function.update t.callbackCounters ⟨id - 16, h⟩ 0 }
  else t

/-- `timer_unregister_callback`. -/
def timerUnregisterCallback (id : Int) (t : DevTimer κ) : Bool × DevTimer κ :=
  if id < 0 ∨ id ≥ 256 then (false, t) else (true, clearCallback id.toNat t)

/-- A valid id clears its slot. -/
theorem timerUnregisterCallback_valid (id : Fin 8) (t : DevTimer κ) :
    timerUnregisterCallback (id.val : Int) t =
      (true, { t with timerCallbacks := Function.update t.timerCallbacks id none }) := by
  have hid := id.isLt
  rw [timerUnregisterCallback, if_neg (by omega), Int.toNat_natCast, clearCallback, dif_pos hid]

/-- The state of the timer that `timer_init` leaves. -/
def timerInit (t : DevTimer κ) : DevTimer κ :=
  { t with
    watchdogCounter := 0
    watchdogEnabled := false
    timerTicks := 0
    timerCallbacks := fun _ => none }

/-! ### One slot -/

/-- What belongs to one callback. -/
structure CallbackSlot (κ : Type) where
  callback : Option κ
  interval : U32
  counter : U32

def DevTimer.slot (t : DevTimer κ) (i : Fin 8) : CallbackSlot κ :=
  ⟨t.timerCallbacks i, t.callbackIntervals i, t.callbackCounters i⟩

/-- The answer of slot `i`, if it was called. -/
def answerOf (i : Fin 8) (calls : List (TimerCall κ)) : Option U32 :=
  (calls.find? (·.slot = i)).map (·.answer)

theorem answerOf_self {c : TimerCall κ} : answerOf c.slot [c] = some c.answer := by
  simp [answerOf]

theorem answerOf_other {i : Fin 8} {calls : List (TimerCall κ)} (h : ∀ c ∈ calls, c.slot ≠ i) :
    answerOf i calls = none := by
  rw [answerOf, List.find?_eq_none.mpr (by simpa using h)]
  rfl

theorem answerOf_append {i : Fin 8} {calls calls' : List (TimerCall κ)} :
    answerOf i (calls ++ calls') = (answerOf i calls).or (answerOf i calls') := by
  rw [answerOf, List.find?_append, answerOf, answerOf]
  cases calls.find? (·.slot = i) <;> rfl

/-- A tick of one slot: a callback is called when its counter gets to the interval,
and its answer is the next interval, or the end. -/
inductive CallbackSlot.Tick : CallbackSlot κ → Option U32 → CallbackSlot κ → Prop where
  | free {n c : U32} : Tick ⟨none, n, c⟩ none ⟨none, n, c⟩
  | wait {f : κ} {n c : U32} : ¬ c + 1 ≥ n → Tick ⟨some f, n, c⟩ none ⟨some f, n, c + 1⟩
  | stop {f : κ} {n c : U32} : c + 1 ≥ n → Tick ⟨some f, n, c⟩ (some 0) ⟨none, n, c + 1⟩
  | again {f : κ} {n c r : U32} : c + 1 ≥ n → r ≠ 0 →
      Tick ⟨some f, n, c⟩ (some r) ⟨some f, r, 0⟩

/-- A tick keeps the callback of a slot, or removes it if it answered 0. -/
theorem CallbackSlot.Tick.callback {slot slot' : CallbackSlot κ} {answer : Option U32}
    (h : slot.Tick answer slot') :
    slot'.callback = if answer = some 0 then none else slot.callback := by
  cases h with
  | free => rfl
  | wait hwait => rfl
  | stop hdue => rfl
  | again hdue hr =>
      have hne : ¬ some _ = some (0 : U32) := fun h => hr (Option.some.inj h)
      rw [if_neg hne]

/-- The other slots stay as they are. -/
theorem checkSlot_other {i j : Fin 8} (h : j ≠ i) (s : Timing κ ε) :
    (checkSlot i s).timer.slot j = s.timer.slot j := by
  cases hf : s.timer.timerCallbacks i with
  | none => simp only [checkSlot, hf]
  | some f =>
      by_cases hdue : s.timer.callbackCounters i + 1 ≥ s.timer.callbackIntervals i
      · by_cases hzero : (Callbacks.call f (s.timer.callbackIntervals i) s.env).1 = 0
        · simp only [checkSlot, hf, if_pos hdue, if_pos hzero, DevTimer.slot,
            Function.update_of_ne h]
        · simp only [checkSlot, hf, if_pos hdue, if_neg hzero, DevTimer.slot,
            Function.update_of_ne h]
      · simp only [checkSlot, hf, if_neg hdue, DevTimer.slot, Function.update_of_ne h]

/-- A call: the callback runs in an environment and returns the answer. -/
def TimerCall.Runs (env : ε) (c : TimerCall κ) (env' : ε) : Prop :=
  Callbacks.call c.callback c.interval env = (c.answer, env')

/-- The rounds of the slots `is` make these calls, one after the other, at most one for each
slot and of its callback, and leave the other slots alone. -/
structure Rounds (is : List (Fin 8)) (s : Timing κ ε) (calls : List (TimerCall κ))
    (t : Timing κ ε) : Prop where
  logged : t.calls = s.calls ++ calls
  ran : Run TimerCall.Runs s.env calls t.env
  own : ∀ c ∈ calls, c.slot ∈ is ∧ s.timer.timerCallbacks c.slot = some c.callback
  once : ∀ i, (calls.filter (·.slot = i)).length ≤ 1
  ticked : ∀ i ∈ is, (s.timer.slot i).Tick (answerOf i calls) (t.timer.slot i)
  others : ∀ i ∉ is, t.timer.slot i = s.timer.slot i

/-- A round without a call. -/
theorem Rounds.quiet {i : Fin 8} {s : Timing κ ε} (hcalls : (checkSlot i s).calls = s.calls)
    (henv : (checkSlot i s).env = s.env)
    (htick : (s.timer.slot i).Tick none ((checkSlot i s).timer.slot i)) :
    Rounds [i] s [] (checkSlot i s) := by
  refine ⟨by simp [hcalls], henv ▸ .nil, by simp, by simp, ?_, ?_⟩
  · intro j hj
    rw [List.mem_singleton.mp hj]
    exact htick
  · intro j hj
    exact checkSlot_other (fun heq => hj (List.mem_singleton.mpr heq)) s

/-- A round with a call. -/
theorem Rounds.call {s : Timing κ ε} {c : TimerCall κ}
    (hcallback : s.timer.timerCallbacks c.slot = some c.callback)
    (hcalls : (checkSlot c.slot s).calls = s.calls ++ [c])
    (hran : c.Runs s.env (checkSlot c.slot s).env)
    (htick : (s.timer.slot c.slot).Tick (some c.answer) ((checkSlot c.slot s).timer.slot c.slot)) :
    Rounds [c.slot] s [c] (checkSlot c.slot s) := by
  refine ⟨hcalls, Run.nil.snoc hran, ?_, fun j => List.length_filter_le _ [c], ?_, ?_⟩
  · intro d hd
    rw [List.mem_singleton.mp hd]
    exact ⟨List.mem_singleton_self c.slot, hcallback⟩
  · intro j hj
    rw [List.mem_singleton.mp hj, answerOf_self]
    exact htick
  · intro j hj
    exact checkSlot_other (fun heq => hj (List.mem_singleton.mpr heq)) s

/-- One round. -/
theorem checkSlot_rounds (i : Fin 8) (s : Timing κ ε) :
    ∃ calls, Rounds [i] s calls (checkSlot i s) := by
  cases hf : s.timer.timerCallbacks i with
  | none =>
      have hkept : checkSlot i s = s := by simp only [checkSlot, hf]
      refine ⟨[], .quiet (by rw [hkept]) (by rw [hkept]) ?_⟩
      rw [hkept, DevTimer.slot, hf]
      exact .free
  | some f =>
      by_cases hdue : s.timer.callbackCounters i + 1 ≥ s.timer.callbackIntervals i
      · let call : TimerCall κ := ⟨i, f, s.timer.callbackIntervals i,
          (Callbacks.call f (s.timer.callbackIntervals i) s.env).1⟩
        have hcalls : (checkSlot i s).calls = s.calls ++ [call] := by
          simp only [checkSlot, hf, if_pos hdue]
          split <;> rfl
        have hran : call.Runs s.env (checkSlot i s).env := by
          refine Prod.ext rfl ?_
          simp only [checkSlot, hf, if_pos hdue]
          split <;> rfl
        refine ⟨[call], .call hf hcalls hran ?_⟩
        by_cases hzero : (Callbacks.call f (s.timer.callbackIntervals i) s.env).1 = 0
        · simp only [call, checkSlot, hf, if_pos hdue, if_pos hzero, DevTimer.slot,
            Function.update_self]
          rw [hzero]
          exact .stop hdue
        · simp only [call, checkSlot, hf, if_pos hdue, if_neg hzero, DevTimer.slot,
            Function.update_self]
          exact .again hdue hzero
      · refine ⟨[], .quiet (by simp only [checkSlot, hf, if_neg hdue])
          (by simp only [checkSlot, hf, if_neg hdue]) ?_⟩
        simp only [checkSlot, hf, if_neg hdue, DevTimer.slot, Function.update_self]
        exact .wait hdue

/-- Rounds of other slots after these. -/
theorem Rounds.append {is js : List (Fin 8)} {s t u : Timing κ ε}
    {calls calls' : List (TimerCall κ)} (h : Rounds is s calls t) (h' : Rounds js t calls' u)
    (apart : is.Disjoint js) :
    Rounds (is ++ js) s (calls ++ calls') u := by
  have hcallback : ∀ i ∈ js, t.timer.timerCallbacks i = s.timer.timerCallbacks i := fun i hi =>
    congrArg CallbackSlot.callback (h.others i fun hmem => apart hmem hi)
  have hfirst : ∀ i ∉ is, ∀ c ∈ calls, c.slot ≠ i := fun i hi c hc heq =>
    hi (heq ▸ (h.own c hc).1)
  have hrest : ∀ i ∉ js, ∀ c ∈ calls', c.slot ≠ i := fun i hi c hc heq =>
    hi (heq ▸ (h'.own c hc).1)
  refine ⟨?_, h.ran.trans h'.ran, ?_, ?_, ?_, ?_⟩
  · rw [h'.logged, h.logged, List.append_assoc]
  · intro c hc
    rcases List.mem_append.mp hc with hc | hc
    · obtain ⟨hslot, hf⟩ := h.own c hc
      exact ⟨List.mem_append_left _ hslot, hf⟩
    · obtain ⟨hslot, hf⟩ := h'.own c hc
      exact ⟨List.mem_append_right _ hslot, (hcallback _ hslot).symm.trans hf⟩
  · intro i
    rw [List.filter_append, List.length_append]
    by_cases hi : i ∈ is
    · have hnone : calls'.filter (·.slot = i) = [] :=
        List.filter_eq_nil_iff.mpr (by simpa using hrest i (apart hi))
      rw [hnone]
      exact h.once i
    · have hnone : calls.filter (·.slot = i) = [] :=
        List.filter_eq_nil_iff.mpr (by simpa using hfirst i hi)
      rw [hnone, List.length_nil, Nat.zero_add]
      exact h'.once i
  · intro i hi
    rw [answerOf_append]
    rcases List.mem_append.mp hi with hi | hi
    · rw [answerOf_other (hrest i (apart hi)), Option.or_none, h'.others i (apart hi)]
      exact h.ticked i hi
    · have hnot : i ∉ is := fun hmem => apart hmem hi
      rw [answerOf_other (hfirst i hnot), Option.none_or, ← h.others i hnot]
      exact h'.ticked i hi
  · intro i hi
    obtain ⟨his, hjs⟩ := not_or.mp (mt List.mem_append.mpr hi)
    rw [h'.others i hjs, h.others i his]

/-- The loop: a round of every slot. -/
theorem checkTimerCallbacks_rounds (s : Timing κ ε) :
    ∃ calls, Rounds (List.finRange 8) s calls (checkTimerCallbacks s) := by
  suffices ∀ is : List (Fin 8), is.Nodup → ∀ s : Timing κ ε,
      ∃ calls, Rounds is s calls (is.foldl (fun s i => checkSlot i s) s) from
    this _ (List.nodup_finRange 8) s
  intro is
  induction is with
  | nil =>
      exact fun _ s => ⟨[], (List.append_nil _).symm, .nil, by simp, by simp, by simp,
        fun _ _ => rfl⟩
  | cons j is ih =>
      intro hnodup s
      obtain ⟨hj, hnodup⟩ := List.nodup_cons.mp hnodup
      obtain ⟨first, hfirst⟩ := checkSlot_rounds j s
      obtain ⟨rest, hrest⟩ := ih hnodup (checkSlot j s)
      exact ⟨first ++ rest, hfirst.append hrest (List.singleton_disjoint.mpr hj)⟩

/-- The loop leaves the tick count and the watchdog alone. -/
theorem checkTimerCallbacks_frame (s : Timing κ ε) :
    (checkTimerCallbacks s).timer.timerTicks = s.timer.timerTicks ∧
      (checkTimerCallbacks s).timer.watchdogEnabled = s.timer.watchdogEnabled := by
  have hone : ∀ (i : Fin 8) (s : Timing κ ε),
      (checkSlot i s).timer.timerTicks = s.timer.timerTicks ∧
        (checkSlot i s).timer.watchdogEnabled = s.timer.watchdogEnabled := by
    intro i s
    rw [checkSlot]
    split
    · exact ⟨rfl, rfl⟩
    · dsimp only
      split
      · split <;> exact ⟨rfl, rfl⟩
      · exact ⟨rfl, rfl⟩
  rw [checkTimerCallbacks]
  generalize List.finRange 8 = is
  induction is generalizing s with
  | nil => exact ⟨rfl, rfl⟩
  | cons i is ih =>
      rw [List.foldl_cons, (ih _).1, (ih _).2]
      exact hone i s

/-- With the watchdog off, the handler counts the tick and runs the callbacks. -/
theorem returns_handleTimer {s t : Timing κ ε} {u : Unit} (h : s.timer.watchdogEnabled = false) :
    handleTimer.Returns s u t ↔
      t = checkTimerCallbacks
        { s with timer := { s.timer with timerTicks := s.timer.timerTicks + 1 } } := by
  simp [handleTimer, h]

end Driver

end MyBios
