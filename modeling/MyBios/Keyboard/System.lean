import MyBios.Bios.Keyboard
import MyBios.Lib.Lts

/-!
The keyboard as a concurrent system: the controller and its interrupt on one
side, a reader of the key queue on the other.

A reader is INT 16h AH=00/10 (`read`) or a bare `keyboard_pop_scancode`
(`call`). It is cut into the steps between which the rest of the machine may
move: each poll of the controller, each keystroke it processes while polling,
taking the code at the tail, advancing the tail. An environment step `env`
changes the devices; IRQ1 runs `keyboard_irq_handler` whenever the reader runs
with interrupts enabled or there is no reader.

* `step_mem` says once what a step does to memory, and `run_mem` that memory
  after a run is a function of the run's labels.
* `irqHandler_step`, `getScancode_run` and `keyboardRead_run` connect the steps to
  the code: what the C functions do without interruption is a run of these steps.
-/

namespace MyBios.Keyboard

open Prog Lts

/-! ### What a keystroke does -/

/-- The effect of processing `scancode` on memory. -/
def keystrokeMem (scancode : U8) (m : ByteMem) : ByteMem :=
  if isMake scancode then enqueue scancode (updateFlags scancode m) else updateFlags scancode m

/-- The LED transaction of a lock key's make code; other codes have none. -/
def ledsFor {δ : Type} [Bus δ] (scancode : U8) (m : ByteMem) : Io δ Unit :=
  when (isMake scancode && isLockKey scancode)
    (updateLeds (Bda.flagsXt (updateFlags scancode m)))

/-- Everything `keyboard_process_keystroke` does: one read, perhaps an LED
transaction, and the effect on memory. -/
theorem returns_processKeystroke {δ : Type} [Bus δ] {m m' : Machine δ} {b : U8} :
    keyboardProcessKeystroke.Returns m b m' ↔
      ∃ io₁ io₂, keyboardReadData.Returns m.io b io₁ ∧
        (ledsFor b m.mem).Returns io₁ () io₂ ∧ m' = ⟨io₂, keystrokeMem b m.mem⟩ := by
  simp only [keyboardProcessKeystroke, returns_bind, returns_onPorts, returns_modify,
    returns_when_modify, returns_pure, ledsFor]
  constructor
  · rintro ⟨a, m₁, ⟨io₁, hread, rfl⟩, ⟨⟩, m₂, rfl, ⟨⟩, m₃, hleds, ⟨⟩, m₄, hstore, rfl, hm⟩
    have hio : ∃ io₂, (when (isMake b && isLockKey b)
        (updateLeds (Bda.flagsXt (updateFlags b m.mem)))).Returns io₁ () io₂ ∧
          m₃ = ⟨io₂, updateFlags b m.mem⟩ := by
      cases hlock : isMake b && isLockKey b with
      | false => exact ⟨io₁, by simp, by simpa [hlock] using hleds⟩
      | true =>
          rw [hlock, returns_when, if_pos rfl, returns_bind] at hleds
          obtain ⟨xt, m₅, hxt, hleds⟩ := hleds
          obtain ⟨rfl, rfl⟩ := returns_gets.mp hxt
          obtain ⟨io₂, hio, rfl⟩ := returns_onPorts.mp hleds
          exact ⟨io₂, hio, rfl⟩
    obtain ⟨io₂, hio, rfl⟩ := hio
    refine ⟨io₁, io₂, hread, hio, hm.trans (hstore.trans ?_)⟩
    unfold keystrokeMem
    split <;> rfl
  · rintro ⟨io₁, io₂, hread, hleds, rfl⟩
    refine ⟨b, _, ⟨io₁, hread, rfl⟩, (), _, rfl, (), ⟨io₂, updateFlags b m.mem⟩, ?_, (), _, rfl,
      rfl, ?_⟩
    · cases hlock : isMake b && isLockKey b with
      | false => simpa [hlock] using hleds
      | true =>
          rw [hlock] at hleds
          exact returns_bind.mpr ⟨_, _, returns_gets.mpr ⟨rfl, rfl⟩,
            returns_onPorts.mpr ⟨io₂, hleds, rfl⟩⟩
    · unfold keystrokeMem
      split <;> rfl

/-- Whether a code is queued: `keyboard_buffer_head != keyboard_buffer_tail`. -/
def queued (m : ByteMem) : Prop := Bda.head m ≠ Bda.tail m

instance (m : ByteMem) : Decidable (queued m) := inferInstanceAs (Decidable (_ ≠ _))

/-- The code at the tail. -/
def oldest (m : ByteMem) : U8 := Bda.keyboardBufferAt m (Bda.tail m)

/-- `keyboard_available` leaves memory alone. -/
theorem available_mem {δ : Type} [Bus δ] {m m' : Machine δ} {a : Bool}
    (h : keyboardAvailable.Returns m a m') : m'.mem = m.mem := by
  simp only [keyboardAvailable, returns_bind, returns_gets, returns_ite, returns_pure,
    returns_onPorts] at h
  obtain ⟨q, m₁, ⟨-, rfl⟩, h⟩ := h
  split at h
  · rw [h.2]
  · obtain ⟨_, _, ⟨_, _, rfl⟩, _, rfl⟩ := h
    rfl

/-! ### Steps -/

/-- Where a reader stands. `itr` is the interrupt flag it runs with. -/
inductive Reader where
  | idle
  /-- `while (!keyboard_available());` of INT 16h -/
  | wait (itr : Bool)
  /-- inside `keyboard_get_scancode` -/
  | get (itr : Bool)
  /-- about to load the code at the tail, with interrupts enabled -/
  | load
  /-- about to advance the tail -/
  | advance (itr : Bool) (code : U8)
  deriving DecidableEq

def Reader.interruptible : Reader → Bool
  | .idle | .load => true
  | .wait itr | .get itr | .advance itr _ => itr

structure System (δ : Type) where
  machine : Machine δ
  reader : Reader

inductive Label (ε : Type) where
  | env (e : ε)
  /-- IRQ1, whose handler processes `b` -/
  | irq (b : U8)
  /-- INT 16h AH=00/10 begins -/
  | read (itr : Bool)
  /-- a bare `keyboard_pop_scancode` begins -/
  | call (itr : Bool)
  /-- one `keyboard_available` of a waiting loop -/
  | check
  /-- the reader itself processes `b` -/
  | poll (b : U8)
  /-- the reader takes `c` for its caller -/
  | take (c : U8)
  /-- the tail advances and the reader returns `c` -/
  | pop (c : U8)

variable {δ ε : Type} [Bus δ]

inductive Step (env : δ → ε → δ → Prop) : System δ → Label ε → System δ → Prop where
  | env {m r e d} : env m.io.dev e d →
      Step env ⟨m, r⟩ (.env e) ⟨{ m with io := { m.io with dev := d } }, r⟩
  | irq {m m' r b} : r.interruptible = true → keyboardProcessKeystroke.Returns m b m' →
      Step env ⟨m, r⟩ (.irq b) ⟨m', r⟩
  | read {m itr} : Step env ⟨m, .idle⟩ (.read itr) ⟨m, .wait itr⟩
  | call {m itr} : Step env ⟨m, .idle⟩ (.call itr) ⟨m, .get itr⟩
  | check {m m' itr available} : keyboardAvailable.Returns m available m' →
      Step env ⟨m, .wait itr⟩ .check ⟨m', if available then .get itr else .wait itr⟩
  | checkHlt {m m' available} : keyboardAvailable.Returns m available m' →
      Step env ⟨m, .get true⟩ .check ⟨m', if available then .load else .get true⟩
  | load {m} : Step env ⟨m, .load⟩ (.take (oldest m.mem)) ⟨m, .advance true (oldest m.mem)⟩
  | taken {m} : queued m.mem →
      Step env ⟨m, .get false⟩ (.take (oldest m.mem)) ⟨m, .advance false (oldest m.mem)⟩
  | poll {m m₁ m' b} : ¬ queued m.mem → keyboardAvailable.Returns m true m₁ →
      keyboardProcessKeystroke.Returns m₁ b m' →
      Step env ⟨m, .get false⟩ (.poll b) ⟨m', .get false⟩
  | nothing {m m'} : ¬ queued m.mem → keyboardAvailable.Returns m false m' →
      Step env ⟨m, .get false⟩ (.take 0) ⟨m', .advance false 0⟩
  | pop {m itr c} :
      Step env ⟨m, .advance itr c⟩ (.pop c) ⟨{ m with mem := advanceTail m.mem }, .idle⟩

/-- What a step with this label does to memory. -/
def labelMem : Label ε → ByteMem → ByteMem
  | .irq b | .poll b => keystrokeMem b
  | .pop _ => advanceTail
  | _ => id

theorem step_mem {env : δ → ε → δ → Prop} {s t : System δ} {l : Label ε} (h : Step env s l t) :
    t.machine.mem = labelMem l s.machine.mem := by
  cases h with
  | irq _ h =>
      obtain ⟨_, _, _, _, rfl⟩ := returns_processKeystroke.mp h
      rfl
  | check h => exact available_mem h
  | checkHlt h => exact available_mem h
  | poll _ ha h =>
      obtain ⟨_, _, _, _, rfl⟩ := returns_processKeystroke.mp h
      rw [available_mem ha]
      rfl
  | nothing _ h => exact available_mem h
  | _ => rfl

/-- Memory after a run is a function of its labels. -/
theorem run_mem {env : δ → ε → δ → Prop} {s t : System δ} {ls : List (Label ε)}
    (h : Run (Step env) s ls t) :
    t.machine.mem = ls.foldl (fun m l => labelMem l m) s.machine.mem := by
  refine h.invariant (I := fun ls t => t.machine.mem = ls.foldl _ s.machine.mem) rfl ?_
  intro ls s l t ih hstep
  rw [List.foldl_append, step_mem hstep, ih]
  rfl

/-! ### The code runs these steps -/

section Code

variable {env : δ → ε → δ → Prop} {m m' : Machine δ}

/-- `keyboard_irq_handler` is a step. -/
theorem irqHandler_step {r : Reader} (hr : r.interruptible = true)
    (h : keyboardIrqHandler.Returns m () m') : ∃ b, Step env ⟨m, r⟩ (.irq b) ⟨m', r⟩ := by
  obtain ⟨b, m₁, hkey, hret⟩ := returns_bind.mp h
  obtain ⟨-, rfl⟩ := returns_pure.mp hret
  exact ⟨b, .irq hr hkey⟩

/-- One pass of a waiting loop is one `keyboard_available`. -/
theorem returns_checkPass {pass : Pass Unit Unit} :
    checkPass.Returns m pass m' ↔
      ∃ available, keyboardAvailable.Returns m available m' ∧
        pass = if available then .done () else .again () := by
  simp only [checkPass, returns_bind, returns_pure]
  constructor
  · rintro ⟨available, m₁, hcheck, hpass, rfl⟩
    exact ⟨available, hcheck, hpass⟩
  · rintro ⟨available, hcheck, hpass⟩
    exact ⟨available, m', hcheck, hpass, rfl⟩

theorem checkPass_again {u : Unit} (h : checkPass.Returns m (.again u) m') :
    keyboardAvailable.Returns m false m' := by
  obtain ⟨available, hcheck, hpass⟩ := returns_checkPass.mp h
  cases available with
  | false => exact hcheck
  | true => cases hpass

theorem checkPass_done {u : Unit} (h : checkPass.Returns m (.done u) m') :
    keyboardAvailable.Returns m true m' := by
  obtain ⟨available, hcheck, hpass⟩ := returns_checkPass.mp h
  cases available with
  | false => cases hpass
  | true => exact hcheck

/-- With a code queued, `keyboard_available` says so and does nothing else. -/
theorem available_queued (h : queued m.mem) : keyboardAvailable.Returns m true m :=
  .bind (returns_gets.mpr ⟨(decide_eq_true h).symm, rfl⟩) (returns_pure.mpr ⟨rfl, rfl⟩)

/-- A waiting loop is a run of its checks. -/
theorem waitAvailable_run (env : δ → ε → δ → Prop) {waiting ready : Reader}
    (h : waitAvailable.Returns m () m')
    (check : ∀ {m m' : Machine δ} {available}, keyboardAvailable.Returns m available m' →
      Step env ⟨m, waiting⟩ .check ⟨m', if available then ready else waiting⟩) :
    ∃ ls, Run (Step env) ⟨m, waiting⟩ ls ⟨m', ready⟩ := by
  obtain ⟨⟨⟩, m₁, ⟨ls, run⟩, hlast⟩ := h.loop_induct
    (I := fun _ m₁ => ∃ ls, Run (Step env) ⟨m, waiting⟩ ls ⟨m₁, waiting⟩)
    (fun _ _ _ _ ⟨_, run⟩ hpass => ⟨_, run.snoc (check (checkPass_again hpass))⟩)
    ⟨[], .nil⟩
  exact ⟨_, run.snoc (check (checkPass_done hlast))⟩

/-- One call of `keyboard_get_scancode` with interrupts disabled that calls
itself again has processed a keystroke. -/
theorem pollOnce_again {u : Unit} (h : pollOnce.Returns m (.again u) m') :
    ¬ queued m.mem ∧ ∃ m₁ b, keyboardAvailable.Returns m true m₁ ∧
      keyboardProcessKeystroke.Returns m₁ b m' := by
  simp only [pollOnce, returns_bind, returns_gets, returns_ite, returns_pure] at h
  obtain ⟨q, m₀, ⟨hq, rfl⟩, h⟩ := h
  cases q with
  | true =>
      obtain ⟨c, m₁, -, hpass, -⟩ := h
      cases hpass
  | false =>
      obtain ⟨available, m₁, ha, h⟩ := h
      cases available with
      | true =>
          obtain ⟨b, m₂, hkey, -, rfl⟩ := h
          exact ⟨of_decide_eq_false hq.symm, m₁, b, ha, hkey⟩
      | false => cases h.1

/-- One that returns has found a code, or no byte to process. -/
theorem pollOnce_done {c : U8} (h : pollOnce.Returns m (.done c) m') :
    (queued m.mem ∧ c = oldest m.mem ∧ m' = m) ∨
      (¬ queued m.mem ∧ c = 0 ∧ keyboardAvailable.Returns m false m') := by
  simp only [pollOnce, returns_bind, returns_gets, returns_ite, returns_pure] at h
  obtain ⟨q, m₀, ⟨hq, rfl⟩, h⟩ := h
  cases q with
  | true =>
      obtain ⟨c', m₁, hpeek, hpass, rfl⟩ := h
      obtain ⟨rfl, rfl⟩ := returns_gets.mp hpeek
      cases hpass
      exact Or.inl ⟨of_decide_eq_true hq.symm, rfl, rfl⟩
  | false =>
      obtain ⟨available, m₁, ha, h⟩ := h
      cases available with
      | true =>
          obtain ⟨b, m₂, hkey, hpass, rfl⟩ := h
          cases hpass
      | false =>
          obtain ⟨hpass, rfl⟩ := h
          cases hpass
          exact Or.inr ⟨of_decide_eq_false hq.symm, rfl, ha⟩

/-- With a code queued, it has found that code. -/
theorem pollOnce_queued (h : queued m.mem) : pollOnce.Returns m (.done (oldest m.mem)) m :=
  .bind (returns_gets.mpr ⟨(decide_eq_true h).symm, rfl⟩)
    ((returns_gets.mpr ⟨rfl, rfl⟩).bind (returns_pure.mpr ⟨rfl, rfl⟩))

/-- What `keyboard_get_scancode` does is a run that takes the code it returns:
checks and a load with interrupts enabled, keystrokes and a code without. -/
theorem getScancode_run (env : δ → ε → δ → Prop) {itr : Bool} {c : U8}
    (h : (keyboardGetScancode itr).Returns m c m') :
    ∃ ls, Run (Step env) ⟨m, .get itr⟩ ls ⟨m', .advance itr c⟩ := by
  cases itr with
  | true =>
      rw [keyboardGetScancode, if_pos rfl, returns_bind] at h
      obtain ⟨⟨⟩, m₁, hwait, hpeek⟩ := h
      obtain ⟨rfl, rfl⟩ := returns_gets.mp hpeek
      obtain ⟨ls, run⟩ := waitAvailable_run env hwait .checkHlt
      exact ⟨_, run.snoc .load⟩
  | false =>
      rw [keyboardGetScancode, if_neg (by simp)] at h
      obtain ⟨⟨⟩, m₁, ⟨ls, run⟩, hlast⟩ := h.loop_induct
        (I := fun _ m₁ => ∃ ls, Run (Step env) ⟨m, .get false⟩ ls ⟨m₁, .get false⟩)
        (fun _ _ _ _ ⟨_, run⟩ hpass => by
          obtain ⟨hempty, _, _, ha, hkey⟩ := pollOnce_again hpass
          exact ⟨_, run.snoc (.poll hempty ha hkey)⟩)
        ⟨[], .nil⟩
      rcases pollOnce_done hlast with ⟨hq, rfl, rfl⟩ | ⟨hq, rfl, ha⟩
      · exact ⟨_, run.snoc (.taken hq)⟩
      · exact ⟨_, run.snoc (.nothing hq ha)⟩

/-- From inside `keyboard_pop_scancode` the reader goes on to return the code. -/
theorem popScancode_run_get (env : δ → ε → δ → Prop) {itr : Bool} {c : U8}
    (h : (keyboardPopScancode itr).Returns m c m') :
    ∃ ls, Run (Step env) ⟨m, .get itr⟩ (ls ++ [.pop c]) ⟨m', .idle⟩ := by
  simp only [keyboardPopScancode, returns_bind, returns_modify, returns_pure] at h
  obtain ⟨c', m₁, hget, ⟨⟩, m₂, rfl, rfl, rfl⟩ := h
  obtain ⟨ls, run⟩ := getScancode_run env hget
  exact ⟨ls, run.snoc .pop⟩

/-- An uninterrupted `keyboard_pop_scancode` is a run of the reader. -/
theorem popScancode_run {itr : Bool} {c : U8} (h : (keyboardPopScancode itr).Returns m c m') :
    ∃ ls, Run (Step env) ⟨m, .idle⟩ (ls ++ [.pop c]) ⟨m', .idle⟩ := by
  obtain ⟨ls, run⟩ := popScancode_run_get env h
  exact ⟨.call itr :: ls, run.cons .call⟩

/-- An uninterrupted INT 16h AH=00/10 is a run of the reader, and AH of the
reply is the code the reader returns. -/
theorem keyboardRead_run {beyond : U8 → U8} {itr : Bool} {frame reply : ItrFrameRealMode}
    (hah : frame.ah = 0x00 ∨ frame.ah = 0x10)
    (h : (biosHandleKeyboardInterrupt beyond itr frame).Returns m reply m') :
    ∃ ls, Run (Step env) ⟨m, .idle⟩ (ls ++ [.pop reply.ah]) ⟨m', .idle⟩ := by
  have hcheck : ¬ (frame.ah = 0x01 ∨ frame.ah = 0x11) := by
    rcases hah with h | h <;> rw [h] <;> decide
  rw [biosHandleKeyboardInterrupt, if_neg hcheck, if_pos hah, returns_bind] at h
  obtain ⟨⟨⟩, m₁, hwait, h⟩ := h
  obtain ⟨c, m₂, hpop, h⟩ := returns_bind.mp h
  simp only [returns_bind, returns_gets, returns_pure] at h
  obtain ⟨xt, m₃, ⟨rfl, rfl⟩, rfl, rfl⟩ := h
  obtain ⟨ls₁, run₁⟩ := waitAvailable_run env hwait .check
  obtain ⟨ls₂, run₂⟩ := popScancode_run_get env hpop
  refine ⟨.read itr :: (ls₁ ++ ls₂), ?_⟩
  have hreply : ∀ xt, (scancodeReply beyond xt c frame).ah = c := by
    intro xt
    rw [scancodeReply, ItrFrameRealMode.ah_setAl, ItrFrameRealMode.ah_setAh]
  rw [hreply, List.cons_append, List.append_assoc]
  exact (run₁.trans run₂).cons .read

end Code

end MyBios.Keyboard
