import MyBios.Lib.Poll
import MyBios.Keyboard.Controller

/-!
What `keyboard_transact` sends.

The devices are any: what they answer follows from their state, so a call is described
by what happens to it. `Offered` is a byte that the controller takes or that is dropped
after 100 ticks, `Answered` the byte that comes back, or 0 after 18 ticks.

The loop keeps the answer in the variable of the byte to send. So it is the answers, not
the command, that a retry sends.

* `returns_waitThen`: what `keyboard_send_data` and `keyboard_read_data` do first.
* `onlyCommand_iff`: only the command is ever sent exactly if every answer that is sent
  is the command.
* `onlyCommand_fails`: a key pressed before the keyboard acknowledges is sent back to it
  as a command.
-/

namespace MyBios

open Prog Poll

variable {δ : Type} [Bus δ]

/-! ### Waiting for the controller -/

section Wait

/-- One look at the controller: its status and, unless that is what is waited for, the
clock. -/
def look (ready : U8 → Prop) [DecidablePred ready] (clock : δ → U32 × δ) (d : δ) :
    (U8 × U32) × δ :=
  let status := Bus.inb keyboardStatusPort d
  if ready status.1 then ((status.1, 0), status.2)
  else ((status.1, (clock status.2).1), (clock status.2).2)

/-- What is waited for is there, or the time is up. -/
def LookStop (ready : U8 → Prop) (expired : U32 → Prop) (v : U8 × U32) : Prop :=
  ready v.1 ∨ expired v.2

instance {ready : U8 → Prop} {expired : U32 → Prop} [DecidablePred ready]
    [DecidablePred expired] : DecidablePred (LookStop ready expired) := fun v =>
  inferInstanceAs (Decidable (ready v.1 ∨ expired v.2))

/-- Ports after the looks `vs`. -/
def lookedAt (log : List PortEvent) (d : δ) (vs : List (U8 × U32)) : Ports δ :=
  ⟨d, log ++ vs.map fun v => .inb keyboardStatusPort v.1⟩

theorem writesTo_looks {vs : List (U8 × U32)} :
    writesTo keyboardDataPort (vs.map fun v => .inb keyboardStatusPort v.1) = [] := by
  induction vs with
  | nil => rfl
  | cons v vs ih => exact ih

variable {ready : U8 → Prop} [DecidablePred ready] {expired : U32 → Prop} [DecidablePred expired]
  {clock : δ → U32 × δ} {readClock : Io δ U32}

/-- One pass of a loop that waits. -/
def waitPass (ready : U8 → Prop) [DecidablePred ready] (expired : U32 → Prop)
    [DecidablePred expired] (readClock : Io δ U32) : Io δ (Pass Unit Bool) := do
  let status ← inb keyboardStatusPort
  if ready status then pure (.done false)
  else do
    let now ← readClock
    if expired now then pure (.done true) else pure (.again ())

/-- `readClock` reads the clock. -/
def Reads (readClock : Io δ U32) (clock : δ → U32 × δ) : Prop :=
  ∀ p t q, readClock.Returns p t q ↔ t = (clock p.dev).1 ∧ q = ⟨(clock p.dev).2, p.log⟩

theorem returns_waitPass (hclock : Reads readClock clock) {p q : Ports δ}
    {pass : Pass Unit Bool} :
    (waitPass ready expired readClock).Returns p pass q ↔
      pass = (if LookStop ready expired (look ready clock p.dev).1 then
          .done (!decide (ready (look ready clock p.dev).1.1)) else .again ()) ∧
        q = ⟨(look ready clock p.dev).2,
          p.log ++ [.inb keyboardStatusPort (look ready clock p.dev).1.1]⟩ := by
  have hstatus : (inb keyboardStatusPort).Returns p _ _ := returns_inb.mpr ⟨rfl, rfl⟩
  rw [waitPass, hstatus.bind_iff]
  by_cases hready : ready (Bus.inb keyboardStatusPort p.dev).1
  · have hlook : look ready clock p.dev =
        (((Bus.inb keyboardStatusPort p.dev).1, 0), (Bus.inb keyboardStatusPort p.dev).2) :=
      if_pos hready
    rw [if_pos hready, hlook, if_pos (.inl hready), decide_eq_true hready]
    exact returns_pure
  · have hlook : look ready clock p.dev =
        (((Bus.inb keyboardStatusPort p.dev).1, (clock (Bus.inb keyboardStatusPort p.dev).2).1),
          (clock (Bus.inb keyboardStatusPort p.dev).2).2) := if_neg hready
    have hstop : LookStop ready expired
        ((Bus.inb keyboardStatusPort p.dev).1, (clock (Bus.inb keyboardStatusPort p.dev).2).1) ↔
        expired (clock (Bus.inb keyboardStatusPort p.dev).2).1 := or_iff_right hready
    have hnow := fun log => (hclock ⟨(Bus.inb keyboardStatusPort p.dev).2, log⟩ _ _).mpr ⟨rfl, rfl⟩
    rw [if_neg hready, (hnow _).bind_iff, ← apply_ite pure, hlook, if_congr hstop rfl rfl,
      decide_eq_false hready]
    exact returns_pure

/-- A loop that waits returns whether the time was up. -/
theorem returns_wait (hclock : Reads readClock clock) {p q : Ports δ} {late : Bool} :
    (loop (fun _ => waitPass ready expired readClock) ()).Returns p late q ↔
      ∃ vs v d, Polled (look ready clock) (LookStop ready expired) p.dev vs v d ∧
        late = !decide (ready v.1) ∧ q = lookedAt p.log d (vs ++ [v]) := by
  have hstart : lookedAt p.log p.dev [] = p := by
    rw [lookedAt, List.map_nil, List.append_nil]
  have hpass : ∀ (d : δ) (vs : List (U8 × U32)) (pass : Pass Unit Bool) (q : Ports δ),
      (waitPass ready expired readClock).Returns (lookedAt p.log d vs) pass q ↔
        pass = (if LookStop ready expired (look ready clock d).1 then
            .done (!decide (ready (look ready clock d).1.1)) else .again ()) ∧
          q = lookedAt p.log (look ready clock d).2 (vs ++ [(look ready clock d).1]) := by
    intro d vs pass q
    rw [returns_waitPass hclock, lookedAt, lookedAt, List.map_append, List.map_singleton,
      List.append_assoc]
  have hloop : (loop (fun _ => waitPass ready expired readClock) ()).Returns
      (lookedAt p.log p.dev []) late q ↔
      ∃ vs v d, Polled (look ready clock) (LookStop ready expired) p.dev vs v d ∧
        late = !decide (ready v.1) ∧ q = lookedAt p.log d ([] ++ (vs ++ [v])) :=
    returns_poll hpass
  rwa [hstart] at hloop

/-- Reading the clock, waiting, and what comes next. -/
theorem returns_waitThen {γ : Type} {expired : U32 → U32 → Prop}
    [∀ start, DecidablePred (expired start)] (hclock : Reads readClock clock) {p q : Ports δ}
    {r : γ} {rest : Bool → Io δ γ} :
    (do
      let start ← timerGetTicks
      let late ← loop (fun _ => waitPass ready (expired start) readClock) ()
      rest late).Returns p r q ↔
      ∃ vs v d, Polled (look ready clock) (LookStop ready (expired (Bus.ticks p.dev).1))
          (Bus.ticks p.dev).2 vs v d ∧
        (rest (!decide (ready v.1))).Returns (lookedAt p.log d (vs ++ [v])) r q := by
  have hticks : timerGetTicks.Returns p _ _ := returns_timerGetTicks.mpr ⟨rfl, rfl⟩
  rw [hticks.bind_iff, returns_bind]
  constructor
  · rintro ⟨late, p', hwait, hrest⟩
    obtain ⟨vs, v, d, hpolled, rfl, rfl⟩ := (returns_wait hclock).mp hwait
    exact ⟨vs, v, d, hpolled, hrest⟩
  · rintro ⟨vs, v, d, hpolled, hrest⟩
    exact ⟨_, _, (returns_wait hclock).mpr ⟨vs, v, d, hpolled, rfl, rfl⟩, hrest⟩

end Wait

/-! ### Sending and reading a byte -/

/-- The controller takes a byte. -/
def Accepting (v : U8) : Prop := v &&& inputBufferFull = 0

instance : DecidablePred Accepting := fun v =>
  inferInstanceAs (Decidable (v &&& inputBufferFull = 0))

/-- The controller has a byte. -/
def Answering (v : U8) : Prop := v &&& outputBufferFull ≠ 0

instance : DecidablePred Answering := fun v =>
  inferInstanceAs (Decidable (v &&& outputBufferFull ≠ 0))

/-- `keyboard_send_data` reads the clock twice, once to print it. -/
def clockTwice (d : δ) : U32 × δ := Bus.ticks (Bus.ticks d).2

/-- What a wait that starts at `d` sees last, and the devices after it: 100 ticks for a
byte to be taken. -/
def SendWait (d : δ) (vs : List (U8 × U32)) (v : U8 × U32) (d' : δ) : Prop :=
  Polled (look Accepting clockTwice)
    (LookStop Accepting fun now => now - (Bus.ticks d).1 > 100) (Bus.ticks d).2 vs v d'

/-- The same: 18 ticks for a byte to come. -/
def ReadWait (d : δ) (vs : List (U8 × U32)) (v : U8 × U32) (d' : δ) : Prop :=
  Polled (look Answering Bus.ticks)
    (LookStop Answering fun now => now > (Bus.ticks d).1 + 18) (Bus.ticks d).2 vs v d'

/-- The byte `x` is offered at `d`, and is taken or not. -/
inductive Offered (x : U8) (d : δ) : Bool → δ → Prop where
  | taken {vs : List (U8 × U32)} {v : U8 × U32} {d' : δ} (wait : SendWait d vs v d')
      (accepting : Accepting v.1) : Offered x d true (Bus.outb keyboardDataPort x d')
  | dropped {vs : List (U8 × U32)} {v : U8 × U32} {d' : δ} (wait : SendWait d vs v d')
      (refusing : ¬ Accepting v.1) : Offered x d false d'

/-- The answer to a call of `keyboard_read_data` at `d`. -/
inductive Answered (d : δ) : U8 → δ → Prop where
  | byte {vs : List (U8 × U32)} {v : U8 × U32} {d' : δ} (wait : ReadWait d vs v d')
      (answering : Answering v.1) :
      Answered d (Bus.inb keyboardDataPort d').1 (Bus.inb keyboardDataPort d').2
  | late {vs : List (U8 × U32)} {v : U8 × U32} {d' : δ} (wait : ReadWait d vs v d')
      (silent : ¬ Answering v.1) : Answered d 0 d'

/-- Whether a byte is taken, and what the devices are then, is determined. -/
theorem Offered.functional {x : U8} {d d₁ d₂ : δ} {ok ok' : Bool} (h : Offered x d ok d₁)
    (h' : Offered x d ok' d₂) : ok = ok' ∧ d₁ = d₂ := by
  cases h with
  | taken wait accepting =>
      cases h' with
      | taken wait' _ =>
          obtain ⟨-, -, rfl⟩ := Polled.functional wait wait'
          exact ⟨rfl, rfl⟩
      | dropped wait' refusing =>
          obtain ⟨-, rfl, -⟩ := Polled.functional wait wait'
          exact absurd accepting refusing
  | dropped wait refusing =>
      cases h' with
      | taken wait' accepting =>
          obtain ⟨-, rfl, -⟩ := Polled.functional wait wait'
          exact absurd accepting refusing
      | dropped wait' _ =>
          obtain ⟨-, -, rfl⟩ := Polled.functional wait wait'
          exact ⟨rfl, rfl⟩

variable {p q : Ports δ} {x y : U8}

theorem reads_clockTwice :
    Reads (timerGetTicks >>= fun _ => timerGetTicks) (clockTwice (δ := δ)) := by
  intro p t q
  have hticks : timerGetTicks.Returns p _ _ := returns_timerGetTicks.mpr ⟨rfl, rfl⟩
  rw [hticks.bind_iff, returns_timerGetTicks, eq_comm (a := t)]
  rfl

theorem reads_ticks : Reads timerGetTicks (Bus.ticks (δ := δ)) := by
  intro p t q
  rw [returns_timerGetTicks, eq_comm (a := t)]

/-- `keyboard_send_data` waits, and sends if the time was not up. -/
theorem keyboardSendData_eq :
    keyboardSendData (δ := δ) x = (do
      let startTicks ← timerGetTicks
      let timedOut ← loop (fun _ => waitPass Accepting (fun now => now - startTicks > 100)
        (timerGetTicks >>= fun _ => timerGetTicks)) ()
      when (!timedOut) (outb keyboardDataPort x)) := by
  simp only [waitPass, Prog.bind_assoc]
  rfl

/-- `keyboard_read_data` waits, and reads if the time was not up. -/
theorem keyboardReadData_eq :
    keyboardReadData (δ := δ) = (do
      let time ← timerGetTicks
      let timedOut ← loop (fun _ => waitPass Answering (fun now => now > time + 18)
        timerGetTicks) ()
      if timedOut then pure 0 else inb keyboardDataPort) := by
  have hbranch : ∀ (status : U8) (a b : Io δ (Pass Unit Bool)),
      (if status &&& outputBufferFull = 0 then a else b) = if Answering status then b else a := by
    intro status a b
    by_cases h : status &&& outputBufferFull = 0
    · rw [if_pos h]
      exact (if_neg (not_not_intro h)).symm
    · rw [if_neg h]
      exact (if_pos h).symm
  simp only [keyboardReadData, waitPass, hbranch]

/-- What `keyboard_send_data` does to the devices and to the log. -/
theorem sendData_offered (h : (keyboardSendData x).Returns p () q) :
    ∃ ok log, Offered x p.dev ok q.dev ∧ q.log = p.log ++ log ∧
      writesTo keyboardDataPort log = if ok then [x] else [] := by
  rw [keyboardSendData_eq, returns_waitThen reads_clockTwice] at h
  obtain ⟨vs, v, d, hpolled, hsend⟩ := h
  rw [returns_when, Bool.not_not] at hsend
  by_cases haccept : Accepting v.1
  · rw [decide_eq_true haccept, if_pos rfl] at hsend
    rw [returns_outb.mp hsend]
    refine ⟨true, _, .taken hpolled haccept, List.append_assoc _ _ _, ?_⟩
    rw [writesTo_append, writesTo_looks]
    rfl
  · rw [decide_eq_false haccept, if_neg (by decide)] at hsend
    rw [hsend]
    exact ⟨false, _, .dropped hpolled haccept, rfl, writesTo_looks⟩

/-- And it returns. -/
theorem sendData_returns {ok : Bool} {d : δ} (h : Offered x p.dev ok d) :
    ∃ q, (keyboardSendData x).Returns p () q ∧ q.dev = d := by
  simp only [keyboardSendData_eq, returns_waitThen reads_clockTwice, returns_when, Bool.not_not]
  cases h with
  | @taken vs v d' wait accepting =>
      refine ⟨⟨Bus.outb keyboardDataPort x d',
        (lookedAt p.log d' (vs ++ [v])).log ++ [.outb keyboardDataPort x]⟩,
        ⟨vs, v, d', wait, ?_⟩, rfl⟩
      rw [decide_eq_true accepting, if_pos rfl]
      exact returns_outb.mpr rfl
  | @dropped vs v _ wait refusing =>
      refine ⟨lookedAt p.log d (vs ++ [v]), ⟨vs, v, d, wait, ?_⟩, rfl⟩
      rw [decide_eq_false refusing, if_neg (by decide)]

/-- What `keyboard_read_data` does: it writes to no port. -/
theorem readData_answered (h : keyboardReadData.Returns p y q) :
    Answered p.dev y q.dev ∧ ∃ log, q.log = p.log ++ log ∧ writesTo keyboardDataPort log = [] := by
  rw [keyboardReadData_eq, returns_waitThen reads_ticks] at h
  obtain ⟨vs, v, d, hpolled, hread⟩ := h
  by_cases hanswer : Answering v.1
  · rw [decide_eq_true hanswer, if_neg (by decide)] at hread
    obtain ⟨rfl, rfl⟩ := returns_inb.mp hread
    refine ⟨.byte hpolled hanswer, _, List.append_assoc _ _ _, ?_⟩
    rw [writesTo_append, writesTo_looks]
    rfl
  · rw [decide_eq_false hanswer, if_pos (by decide)] at hread
    obtain ⟨rfl, rfl⟩ := returns_pure.mp hread
    exact ⟨.late hpolled hanswer, _, rfl, writesTo_looks⟩

theorem readData_returns {d : δ} (h : Answered p.dev y d) :
    ∃ q, keyboardReadData.Returns p y q ∧ q.dev = d := by
  simp only [keyboardReadData_eq, returns_waitThen reads_ticks]
  cases h with
  | @byte vs v d' wait answering =>
      refine ⟨⟨(Bus.inb keyboardDataPort d').2, (lookedAt p.log d' (vs ++ [v])).log ++
        [.inb keyboardDataPort (Bus.inb keyboardDataPort d').1]⟩, ⟨vs, v, d', wait, ?_⟩, rfl⟩
      rw [decide_eq_true answering, if_neg (by decide)]
      exact returns_inb.mpr ⟨rfl, rfl⟩
  | @late vs v _ wait silent =>
      refine ⟨lookedAt p.log d (vs ++ [v]), ⟨vs, v, d, wait, ?_⟩, rfl⟩
      rw [decide_eq_false silent, if_pos (by decide)]
      exact returns_pure.mpr ⟨rfl, rfl⟩

/-! ### The transaction -/

/-- One pass of `keyboard_transact`, which began at `timerTicks`. -/
def transactPass (timerTicks : U32) (data : U8) : Io δ (Pass U8 U8) := do
  keyboardSendData data
  let data ← keyboardReadData
  let now ← timerGetTicks
  if now - timerTicks > 18 then pure (.done 0)
  else if data = 0xFA then pure (.done data)
  else pure (.again data)

/-- `keyboard_transact` is a loop of these passes. -/
theorem keyboardTransact_eq :
    keyboardTransact (δ := δ) x = (do
      let timerTicks ← timerGetTicks
      loop (transactPass timerTicks) x) := rfl

/-- The byte `x` is the next to be offered, at `d`, in a transaction that began with the
command `c` at `d₀`: each answer was no acknowledgement, and came within 18 ticks. -/
inductive Retried (timerTicks : U32) (c : U8) (d₀ : δ) : U8 → δ → Prop where
  | first : Retried timerTicks c d₀ c d₀
  | retry {x y : U8} {d d₁ d₂ : δ} {ok : Bool} (before : Retried timerTicks c d₀ x d)
      (offered : Offered x d ok d₁) (answered : Answered d₁ y d₂)
      (early : ¬ (Bus.ticks d₂).1 - timerTicks > 18) (other : y ≠ 0xFA) :
      Retried timerTicks c d₀ y (Bus.ticks d₂).2

/-- Every byte that is offered and taken is the command: an answer that makes the driver
try again is the command itself, or finds the controller busy for 100 ticks. -/
def Echoes (c : U8) (d : δ) : Prop :=
  ∀ x d', Retried (Bus.ticks d).1 c (Bus.ticks d).2 x d' → (∃ d'', Offered x d' true d'') → x = c

/-- The bytes written to the data port between two states. -/
def dataWrites (p q : Ports δ) : List U8 := writesTo keyboardDataPort (q.log.drop p.log.length)

/-- The transaction sends the command only. -/
structure OnlyCommand (c : U8) (p : Ports δ) : Prop where
  /-- Up to the end of each send, also in a transaction that never ends. -/
  sends : ∀ x q q', Passes (transactPass (Bus.ticks p.dev).1) c ⟨(Bus.ticks p.dev).2, p.log⟩ x q →
    (keyboardSendData x).Returns q () q' → ∀ v ∈ dataWrites p q', v = c
  /-- Up to the end of one that returns. -/
  returned : ∀ r q, (keyboardTransact c).Returns p r q → ∀ v ∈ dataWrites p q, v = c

section Passes

variable {timerTicks : U32} {c : U8}

/-- What one pass does. -/
theorem transactPass_offered {pass : Pass U8 U8}
    (h : (transactPass timerTicks x).Returns p pass q) :
    ∃ ok y d₁ d₂ log, Offered x p.dev ok d₁ ∧ Answered d₁ y d₂ ∧ q.dev = (Bus.ticks d₂).2 ∧
      q.log = p.log ++ log ∧ writesTo keyboardDataPort log = (if ok then [x] else []) ∧
      pass = if (Bus.ticks d₂).1 - timerTicks > 18 then .done 0
        else if y = 0xFA then .done y else .again y := by
  obtain ⟨⟨⟩, p₁, hsend, h⟩ := returns_bind.mp h
  obtain ⟨y, p₂, hread, h⟩ := returns_bind.mp h
  obtain ⟨now, p₃, hticks, h⟩ := returns_bind.mp h
  obtain ⟨rfl, rfl⟩ := returns_timerGetTicks.mp hticks
  obtain ⟨ok, log, hoffered, hlog, hwrites⟩ := sendData_offered hsend
  obtain ⟨hanswered, log', hlog', hwrites'⟩ := readData_answered hread
  rw [← apply_ite pure, ← apply_ite pure] at h
  obtain ⟨hpass, rfl⟩ := returns_pure.mp h
  refine ⟨ok, y, p₁.dev, p₂.dev, log ++ log', hoffered, hanswered, rfl, ?_, ?_, hpass⟩
  · rw [hlog', hlog, List.append_assoc]
  · rw [writesTo_append, hwrites, hwrites', List.append_nil]

/-- A retry is one pass. -/
theorem transactPass_again {ok : Bool} {d₁ d₂ : δ} (offered : Offered x p.dev ok d₁)
    (answered : Answered d₁ y d₂) (early : ¬ (Bus.ticks d₂).1 - timerTicks > 18)
    (other : y ≠ 0xFA) :
    ∃ q, (transactPass timerTicks x).Returns p (.again y) q ∧ q.dev = (Bus.ticks d₂).2 := by
  obtain ⟨p₁, hsend, rfl⟩ := sendData_returns offered
  obtain ⟨p₂, hread, rfl⟩ := readData_returns answered
  have hticks : timerGetTicks.Returns p₂ _ _ := returns_timerGetTicks.mpr ⟨rfl, rfl⟩
  refine ⟨⟨(Bus.ticks p₂.dev).2, p₂.log⟩, hsend.bind (hread.bind (hticks.bind ?_)), rfl⟩
  rw [if_neg early, if_neg other]
  exact returns_pure.mpr ⟨rfl, rfl⟩

/-- The passes of the loop are retries, and what they wrote was offered and taken. -/
theorem passes_retried (h : Passes (transactPass timerTicks) c p x q) :
    Retried timerTicks c p.dev x q.dev ∧ ∃ log, q.log = p.log ++ log ∧
      ∀ v ∈ writesTo keyboardDataPort log,
        ∃ d, Retried timerTicks c p.dev v d ∧ ∃ d', Offered v d true d' := by
  induction h with
  | start => exact ⟨.first, [], (List.append_nil _).symm, fun v hv => absurd hv (List.not_mem_nil)⟩
  | @again x y q q' _ hpass ih =>
      obtain ⟨hretried, log, hlog, htaken⟩ := ih
      obtain ⟨ok, z, d₁, d₂, log', hoffered, hanswered, hdev, hlog', hwrites, hagain⟩ :=
        transactPass_offered hpass
      split at hagain
      · cases hagain
      · rename_i hearly
        split at hagain
        · cases hagain
        · rename_i hother
          cases hagain
          refine ⟨?_, log ++ log', ?_, ?_⟩
          · rw [hdev]
            exact hretried.retry hoffered hanswered hearly hother
          · rw [hlog', hlog, List.append_assoc]
          · intro v hv
            rw [writesTo_append, List.mem_append, hwrites] at hv
            rcases hv with hv | hv
            · exact htaken v hv
            · cases ok with
              | true =>
                  rw [List.mem_singleton.mp hv]
                  exact ⟨q.dev, hretried, d₁, hoffered⟩
              | false => exact absurd hv List.not_mem_nil

/-- Every retry is reached by passes of the loop. -/
theorem retried_passes {d : δ} (h : Retried timerTicks c p.dev x d) :
    ∃ q, Passes (transactPass timerTicks) c p x q ∧ q.dev = d := by
  induction h with
  | first => exact ⟨p, .start, rfl⟩
  | retry _ offered answered early other ih =>
      obtain ⟨q, hpasses, rfl⟩ := ih
      obtain ⟨q', hpass, hdev⟩ := transactPass_again offered answered early other
      exact ⟨q', hpasses.again hpass, hdev⟩

end Passes

omit [Bus δ] in
theorem dataWrites_eq (log : List PortEvent) (h : q.log = p.log ++ log) :
    dataWrites p q = writesTo keyboardDataPort log := by
  rw [dataWrites, h, List.drop_left]

/-- What was written up to an offer, and by it. -/
theorem only_of_echoes {c : U8} {q' : Ports δ} {ok : Bool} {d : δ} {log' : List PortEvent}
    (echoes : Echoes c p.dev)
    (hpasses : Passes (transactPass (Bus.ticks p.dev).1) c ⟨(Bus.ticks p.dev).2, p.log⟩ x q)
    (hoffered : Offered x q.dev ok d)
    (hwrites : writesTo keyboardDataPort log' = if ok then [x] else [])
    (hlog' : q'.log = q.log ++ log') : ∀ v ∈ dataWrites p q', v = c := by
  obtain ⟨hretried, log, hlog, htaken⟩ := passes_retried hpasses
  intro v hv
  rw [dataWrites_eq (log ++ log') (by rw [hlog', hlog, List.append_assoc]),
    writesTo_append, List.mem_append, hwrites] at hv
  rcases hv with hv | hv
  · obtain ⟨d, hd, htaken⟩ := htaken v hv
    exact echoes v d hd htaken
  · cases ok with
    | true =>
        rw [List.mem_singleton.mp hv]
        exact echoes x q.dev hretried ⟨d, hoffered⟩
    | false => exact absurd hv List.not_mem_nil

/-- The transaction sends the command only exactly if what it sends again is the
command. -/
theorem onlyCommand_iff (c : U8) (p : Ports δ) : OnlyCommand c p ↔ Echoes c p.dev := by
  constructor
  · rintro ⟨sends, -⟩ x d hretried ⟨d', htaken⟩
    obtain ⟨q, hpasses, rfl⟩ := retried_passes (p := ⟨(Bus.ticks p.dev).2, p.log⟩) hretried
    obtain ⟨q', hsend, -⟩ := sendData_returns htaken
    obtain ⟨ok, log', hoffered, hlog', hwrites⟩ := sendData_offered hsend
    obtain ⟨rfl, -⟩ := hoffered.functional htaken
    obtain ⟨-, log, hlog, -⟩ := passes_retried hpasses
    apply sends x q q' hpasses hsend
    rw [dataWrites_eq (log ++ log') (by rw [hlog', hlog, List.append_assoc]),
      writesTo_append, hwrites]
    exact List.mem_append_right _ (List.mem_singleton_self x)
  · intro echoes
    constructor
    · intro x q q' hpasses hsend
      obtain ⟨ok, log', hoffered, hlog', hwrites⟩ := sendData_offered hsend
      exact only_of_echoes echoes hpasses hoffered hwrites hlog'
    · intro r q h
      have hticks : timerGetTicks.Returns p _ _ := returns_timerGetTicks.mpr ⟨rfl, rfl⟩
      rw [keyboardTransact_eq, hticks.bind_iff] at h
      obtain ⟨x, q', hpasses, hlast⟩ := returns_loop_passes.mp h
      obtain ⟨ok, y, d₁, d₂, log', hoffered, -, -, hlog', hwrites, -⟩ :=
        transactPass_offered hlast
      exact only_of_echoes echoes hpasses hoffered hwrites hlog'

/-! ### A key pressed in the meantime -/

/-- A key went down before the command `0xED`: the driver takes its make code for the
answer, and sends it. -/
theorem keyPressed_writes :
    ((keyboardTransact 0xED).run 3 (Controller.holding [0x1E])).map
      (fun r => writesTo keyboardDataPort r.2.log) = some [0xED, 0x1E] := by
  decide

/-- So a command that was not asked for reaches the keyboard. -/
theorem onlyCommand_fails : ¬ ∀ (c : U8) (p : Ports Controller), OnlyCommand c p := by
  intro h
  have hrun := keyPressed_writes
  cases hresult : (keyboardTransact 0xED).run 3 (Controller.holding [0x1E]) with
  | none =>
      rw [hresult] at hrun
      cases hrun
  | some result =>
      obtain ⟨r, q⟩ := result
      rw [hresult] at hrun
      have hwrites : dataWrites (Controller.holding [0x1E]) q = [0xED, 0x1E] :=
        Option.some.inj hrun
      have hsent := (h 0xED (Controller.holding [0x1E])).returned r q ⟨3, hresult⟩ 0x1E
        (by rw [hwrites]; decide)
      exact absurd hsent (by decide)

end MyBios
