import MyBios.Timer.Driver

/-!
`struct dev_timer` in memory, and `timer_unregister_callback` on it.

The function checks its id against 256 and then indexes an array of 8. The arrays of
the struct lie back to back, so that an id from 8 on is an interval, a counter, or a
word behind the struct.

* `ofMem_timerUnregisterCallback`: on the struct it is what `Timer.Driver` says.
* `clearsOwnSlot_iff`: it keeps to the slot of its id for all ids but 8 to 255.
* `unregister_interval_due`: for an id from 8 to 15 some other callback is called at
  the next tick, whatever its interval was.
-/

namespace MyBios

namespace DevTimer

/-! ### The struct -/

def maxTimers : Nat := 8

/-- Behind `base`, `watchdog_counter`, `watchdog_enabled`, `timer_ticks` and `frequency`. -/
def callbacksOffset : Nat := 20
def intervalsOffset : Nat := callbacksOffset + 4 * maxTimers
def countersOffset : Nat := intervalsOffset + 4 * maxTimers

/-- The address of `timer_callbacks[id]`. -/
def callbackAddr (timer id : Nat) : Nat := timer + callbacksOffset + 4 * id

/-- The struct at `timer`. A callback is its address, and a free slot holds `NULL`. -/
def ofMem (timer : Nat) (m : ByteMem) : DevTimer U32 where
  watchdogCounter := m.read32 (timer + 4)
  watchdogEnabled := m.read32 (timer + 8) ≠ 0
  timerTicks := m.read32 (timer + 12)
  timerCallbacks i :=
    if m.read32 (callbackAddr timer i) = 0 then none else some (m.read32 (callbackAddr timer i))
  callbackIntervals i := m.read32 (timer + intervalsOffset + 4 * i)
  callbackCounters i := m.read32 (timer + countersOffset + 4 * i)

end DevTimer

open DevTimer

/-- `timer_unregister_callback` on the struct at `timer`. -/
def timerUnregisterCallbackAt (timer : Nat) (id : Int) (m : ByteMem) : Bool × ByteMem :=
  if id < 0 ∨ id ≥ 256 then (false, m) else (true, m.write32 (callbackAddr timer id.toNat) 0)

/-- What a caller expects: at most the slot of the id is changed; true is for the id
of a slot; and for any other id nothing is changed, in the struct or outside. -/
structure ClearsOwnSlot (timer : Nat) (id : Int) (m : ByteMem) : Prop where
  frame : ∀ a, (∀ i : Fin 8, id = i.val →
      a < callbackAddr timer i ∨ callbackAddr timer i + 4 ≤ a) →
    (timerUnregisterCallbackAt timer id m).2 a = m a
  accepted : (timerUnregisterCallbackAt timer id m).1 = true → ∃ i : Fin 8, id = i.val
  refused : (¬ ∃ i : Fin 8, id = i.val) → timerUnregisterCallbackAt timer id m = (false, m)

variable {timer : Nat} {id : Int} {m : ByteMem}

/-! ### Words of the struct -/

/-- The intervals and the counters go on where the callbacks end. -/
theorem intervalAddr_eq (timer : Nat) (i : Fin 8) :
    timer + intervalsOffset + 4 * i.val = callbackAddr timer (8 + i) := by
  unfold callbackAddr intervalsOffset maxTimers
  omega

theorem counterAddr_eq (timer : Nat) (i : Fin 8) :
    timer + countersOffset + 4 * i.val = callbackAddr timer (16 + i) := by
  unfold callbackAddr countersOffset intervalsOffset maxTimers
  omega

/-- The store hits the word of its index only, whichever array that is in. -/
theorem read32_cleared (j k : Nat) :
    (m.write32 (callbackAddr timer j) 0).read32 (callbackAddr timer k) =
      if k = j then 0 else m.read32 (callbackAddr timer k) := by
  by_cases hjk : k = j
  · rw [if_pos hjk, hjk]
    exact ByteMem.read32_write32_same
  · rw [if_neg hjk]
    apply ByteMem.read32_write32_disjoint
    unfold callbackAddr
    omega

theorem read32_cleared_header {j offset : Nat} (h : offset + 4 ≤ callbacksOffset) :
    (m.write32 (callbackAddr timer j) 0).read32 (timer + offset) = m.read32 (timer + offset) := by
  apply ByteMem.read32_write32_disjoint
  unfold callbackAddr
  omega

/-- An array whose words start at index `base`, after the store at index `base + k`. -/
theorem cleared_array {α : Type} (f : Fin 8 → α) (v : α) (base : Nat) (k : Fin 8) :
    (fun i : Fin 8 => if base + i.val = base + k.val then v else f i) =
      Function.update f k v := by
  funext i
  by_cases hik : i = k
  · rw [hik, if_pos rfl, Function.update_self]
  · have hne : base + i.val ≠ base + k.val := fun h => hik (Fin.ext (Nat.add_left_cancel h))
    rw [if_neg hne, Function.update_of_ne hik]

/-- An array that the store misses. -/
theorem missed_array {α : Type} (f : Fin 8 → α) (v : α) {base j : Nat}
    (h : j < base ∨ base + 8 ≤ j) :
    (fun i : Fin 8 => if base + i.val = j then v else f i) = f := by
  funext i
  exact if_neg (by omega)

theorem ofMem_callbacks (j : Nat) :
    (ofMem timer (m.write32 (callbackAddr timer j) 0)).timerCallbacks =
      fun i => if 0 + i.val = j then none else (ofMem timer m).timerCallbacks i := by
  funext i
  simp only [ofMem, read32_cleared, Nat.zero_add]
  split <;> rfl

/-- The store of `NULL`, seen as a change of the struct. -/
theorem ofMem_cleared (j : Nat) :
    ofMem timer (m.write32 (callbackAddr timer j) 0) = clearCallback j (ofMem timer m) := by
  have hheader : ∀ offset, offset + 4 ≤ callbacksOffset →
      (m.write32 (callbackAddr timer j) 0).read32 (timer + offset) = m.read32 (timer + offset) :=
    fun _ h => read32_cleared_header h
  have hstruct : ofMem timer (m.write32 (callbackAddr timer j) 0) =
      { ofMem timer m with
        timerCallbacks := fun i =>
          if 0 + i.val = j then none else (ofMem timer m).timerCallbacks i
        callbackIntervals := fun i =>
          if 8 + i.val = j then 0 else (ofMem timer m).callbackIntervals i
        callbackCounters := fun i =>
          if 16 + i.val = j then 0 else (ofMem timer m).callbackCounters i } := by
    rw [← ofMem_callbacks]
    simp only [ofMem, intervalAddr_eq, counterAddr_eq, read32_cleared, hheader 4 (by decide),
      hheader 8 (by decide), hheader 12 (by decide)]
  rw [hstruct, clearCallback]
  by_cases hcallback : j < 8
  · have hclear := cleared_array (ofMem timer m).timerCallbacks none 0 ⟨j, hcallback⟩
    rw [Nat.zero_add j] at hclear
    rw [dif_pos hcallback, hclear, missed_array _ _ (by omega), missed_array _ _ (by omega)]
  · rw [dif_neg hcallback, missed_array (ofMem timer m).timerCallbacks _ (by omega)]
    by_cases hinterval : j - 8 < 8
    · have hclear := cleared_array (ofMem timer m).callbackIntervals 0 8 ⟨j - 8, hinterval⟩
      rw [show 8 + (j - 8) = j by omega] at hclear
      rw [dif_pos hinterval, hclear, missed_array _ _ (by omega)]
    · rw [dif_neg hinterval, missed_array (ofMem timer m).callbackIntervals _ (by omega)]
      by_cases hcounter : j - 16 < 8
      · have hclear := cleared_array (ofMem timer m).callbackCounters 0 16 ⟨j - 16, hcounter⟩
        rw [show 16 + (j - 16) = j by omega] at hclear
        rw [dif_pos hcounter, hclear]
      · rw [dif_neg hcounter, missed_array (ofMem timer m).callbackCounters _ (by omega)]

/-- In memory, `timer_unregister_callback` does to the struct what it does in
`Timer.Driver`. -/
theorem ofMem_timerUnregisterCallbackAt (timer : Nat) (id : Int) (m : ByteMem) :
    ((timerUnregisterCallbackAt timer id m).1,
        ofMem timer (timerUnregisterCallbackAt timer id m).2) =
      timerUnregisterCallback id (ofMem timer m) := by
  rw [timerUnregisterCallbackAt, timerUnregisterCallback]
  by_cases hid : id < 0 ∨ id ≥ 256
  · rw [if_pos hid, if_pos hid]
  · rw [if_neg hid, if_neg hid, ofMem_cleared]

/-! ### Ids -/

theorem timerUnregisterCallbackAt_slot (i : Fin 8) :
    timerUnregisterCallbackAt timer (i.val : Int) m =
      (true, m.write32 (callbackAddr timer i) 0) := by
  have hi := i.isLt
  rw [timerUnregisterCallbackAt, if_neg (by omega), Int.toNat_natCast]

/-- The function keeps to the slot of its id for all ids but 8 to 255. -/
theorem clearsOwnSlot_iff (timer : Nat) (id : Int) (m : ByteMem) :
    ClearsOwnSlot timer id m ↔ ¬ (8 ≤ id ∧ id < 256) := by
  constructor
  · rintro hown ⟨hlow, hhigh⟩
    have hreturns : (timerUnregisterCallbackAt timer id m).1 = true := by
      rw [timerUnregisterCallbackAt, if_neg (by omega)]
    obtain ⟨i, hi⟩ := hown.accepted hreturns
    have hlt := i.isLt
    omega
  · intro hid
    by_cases hslot : 0 ≤ id ∧ id < 8
    · obtain ⟨i, rfl⟩ : ∃ i : Fin 8, id = i.val := ⟨⟨id.toNat, by omega⟩, by simp [hslot.1]⟩
      refine ⟨?_, fun _ => ⟨i, rfl⟩, fun hnot => absurd ⟨i, rfl⟩ hnot⟩
      intro a ha
      rw [timerUnregisterCallbackAt_slot]
      exact ByteMem.write32_other (ha i rfl)
    · have hrefused : timerUnregisterCallbackAt timer id m = (false, m) := by
        rw [timerUnregisterCallbackAt, if_pos (by omega)]
      refine ⟨?_, ?_, fun _ => hrefused⟩
      · intro a _
        rw [hrefused]
      · intro htrue
        rw [hrefused] at htrue
        cases htrue

/-- Id 8 is accepted, and takes the interval of slot 0. -/
theorem unregister_eight_fails :
    ¬ ClearsOwnSlot 0x8000 8 (ByteMem.zeros.write32 0x8034 100) ∧
      (ofMem 0x8000 (ByteMem.zeros.write32 0x8034 100)).callbackIntervals 0 = 100 ∧
      (ofMem 0x8000 (timerUnregisterCallbackAt 0x8000 8
        (ByteMem.zeros.write32 0x8034 100)).2).callbackIntervals 0 = 0 := by
  refine ⟨?_, by decide, by decide⟩
  intro h
  obtain ⟨i, hi⟩ := h.accepted rfl
  have hlt := i.isLt
  omega

/-! ### The schedule -/

section Schedule

variable {κ ε : Type}

/-- A callback with interval 0 is called at every tick. -/
theorem CallbackSlot.Tick.due {slot slot' : CallbackSlot κ} {answer : Option U32} {f : κ}
    (h : slot.Tick answer slot') (hf : slot.callback = some f) (hzero : slot.interval = 0) :
    answer.isSome = true := by
  cases h with
  | free => cases hf
  | wait hnot =>
      cases hzero
      exact absurd (Nat.zero_le _) hnot
  | stop => rfl
  | again => rfl

/-- Id `8 + i` leaves slot `i` with interval 0, and its callback is called at the next
tick, whatever its interval was and however long ago it was called. -/
theorem unregister_interval_due [Callbacks κ ε] (i : Fin 8) (s : Timing κ ε) {f : κ}
    (hf : s.timer.timerCallbacks i = some f) :
    ∃ calls, (checkTimerCallbacks { s with
        timer := (timerUnregisterCallback (8 + i.val) s.timer).2 }).calls = s.calls ++ calls ∧
      (answerOf i calls).isSome = true := by
  have hi := i.isLt
  have hcleared : (timerUnregisterCallback (8 + i.val) s.timer).2.slot i =
      ⟨some f, 0, s.timer.callbackCounters i⟩ := by
    have hid : (8 + (i.val : Int)).toNat = 8 + i.val := by omega
    rw [timerUnregisterCallback, if_neg (by omega), hid, clearCallback, dif_neg (by omega),
      dif_pos (by omega)]
    simp [DevTimer.slot, hf]
  obtain ⟨calls, hrounds⟩ := checkTimerCallbacks_rounds
    { s with timer := (timerUnregisterCallback (8 + i.val) s.timer).2 }
  refine ⟨calls, hrounds.logged, ?_⟩
  have htick := hrounds.ticked i (List.mem_finRange i)
  rw [hcleared] at htick
  exact htick.due rfl rfl

end Schedule

end MyBios
