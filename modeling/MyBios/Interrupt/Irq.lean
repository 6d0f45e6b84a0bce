import MyBios.Keyboard.Driver
import MyBios.Serial.Driver
import MyBios.Timer.Ticks

/-!
The hardware interrupts (`interrupt.c`, the real-mode handlers of `bios.asm`).

`itr_set_irq_handler` stores the handler of an IRQ and enters `itr_handle_irq`
into the two vector tables, with the IRQ as its data. In protected mode the gate
of a vector is `handle_itr_N`, which calls what the first table has, but for
vector 39. In real mode vectors 8 and 9 have handlers of their own, and the
others come to `itr_real_mode_interrupt`, which calls what the second table has.
How the way there saves and restores the registers is `Interrupt.Trampoline`;
here it is left out. So are the entries of the second table that `bios_init`
makes, none of them for the vector of an IRQ.

An end of interrupt is the byte `0x20` written to the command port of a PIC.
`run_eois` counts what a handler sends and `itrHandleIrq_eois` what the
dispatcher sends around it.
-/

namespace MyBios.Irq

open Prog

/-- The functions that are registered as handlers of an IRQ. -/
inductive Handler where
  /-- `handle_timer` of `timer.c` -/
  | timer
  /-- `keyboard_irq_handler` of `keyboard.c` -/
  | keyboard
  /-- `irq_handler` of `ata.c` -/
  | ata
  /-- `serial_write_available_handler` of `serial.c` -/
  | serial
  deriving DecidableEq, Repr

/-- What the handlers work on, and the tables of `interrupt.c`. A vector has
`itr_handle_irq` with some data as its handler, or none. -/
structure Board (δ κ ε : Type) where
  serial : Serial δ
  timing : BiosTiming κ ε
  irqHandlers : Nat → Option Handler
  itrHandlers : U8 → Option U32
  realModeItrHandlers : U8 → Option U32

namespace Board

variable {δ κ ε : Type}

/-- The port accesses so far. -/
def log (b : Board δ κ ε) : List PortEvent := b.serial.io.log

def serialLens : Lens (Board δ κ ε) (Serial δ) where
  get := Board.serial
  set s b := { b with serial := s }
  get_set _ _ := rfl
  set_get _ := rfl

def timingLens : Lens (Board δ κ ε) (BiosTiming κ ε) where
  get := Board.timing
  set t b := { b with timing := t }
  get_set _ _ := rfl
  set_get _ := rfl

def ioLens : Lens (Board δ κ ε) (Ports δ) where
  get b := b.serial.io
  set io b := { b with serial := { b.serial with io := io } }
  get_set _ _ := rfl
  set_get _ := rfl

def machineLens : Lens (Board δ κ ε) (Machine δ) where
  get b := ⟨b.serial.io, b.timing.env.mem⟩
  set m b :=
    { b with
      serial := { b.serial with io := m.io }
      timing := { b.timing with env := { b.timing.env with mem := m.mem } } }
  get_set _ _ := rfl
  set_get _ := rfl

end Board

section Program

variable {δ κ ε : Type} [Bus δ] [Callbacks κ ε]

/-! ### The dispatchers -/

/-- The call of a handler. -/
def Handler.run : Handler → Prog (Board δ κ ε) Unit
  | .timer => zoom Board.timingLens handleTimer
  | .keyboard => zoom Board.machineLens keyboardIrqHandler
  | .ata => pure ()
  | .serial => zoom Board.serialLens serialWriteAvailableHandler

def port (p : U16) (v : U8) : Prog (Board δ κ ε) Unit := zoom Board.ioLens (outb p v)

/-- `if (irq_handlers[irq])` and the call. -/
def callIrqHandler (irq : Nat) : Prog (Board δ κ ε) Unit := do
  let b ← get
  match b.irqHandlers irq with
  | some handler => handler.run
  | none => pure ()

/-- `itr_handle_irq`. -/
def itrHandleIrq (data : U32) : Prog (Board δ κ ε) Unit := do
  callIrqHandler data.toNat
  when (data ≥ 8) (port 0xA0 0x20)
  port 0x20 0x20

/-- `itr_set_irq_handler`, without what it prints. -/
def itrSetIrqHandler (irq : Fin 16) (handler : Handler) (b : Board δ κ ε) : Board δ κ ε :=
  let data : U32 := BitVec.ofNat 32 irq.val
  let vector : U8 := BitVec.ofNat 8 irq.val
  { b with
    irqHandlers := Function.update b.irqHandlers irq.val (some handler)
    itrHandlers := Function.update b.itrHandlers (vector + 0x20) (some data)
    realModeItrHandlers :=
      if irq.val ≥ 8 then Function.update b.realModeItrHandlers (vector + 0x70) (some data)
      else Function.update b.realModeItrHandlers (vector + 0x8) (some data) }

/-- `handle_itr_N`. What the default handler prints for a vector without a handler
is left out. -/
def handleItr (vector : U8) : Prog (Board δ κ ε) Unit :=
  if vector = 39 then port 0x20 0x20
  else do
    let b ← get
    match b.itrHandlers vector with
    | some data => itrHandleIrq data
    | none => pure ()

/-- `itr_real_mode_interrupt`, without the frame: below `0x10` a vector that has no
handler is taken for an exception. -/
def itrRealModeInterrupt (vector : U8) : Prog (Board δ κ ε) Unit := do
  let b ← get
  match b.realModeItrHandlers vector with
  | some data => itrHandleIrq data
  | none => if vector < 0x10 then hlt else pure ()

/-- What the IVT has for a vector: `handle_timer` and `handle_keyboard` of `bios.asm`,
or the stub that leads to `itr_real_mode_interrupt`. -/
def realModeVector (vector : U8) : Prog (Board δ κ ε) Unit :=
  if vector = 0x08 then do
    zoom Board.timingLens (modify realModeHandleTimer)
    port 0x20 0x20
  else if vector = 0x09 then port 0x20 0x20
  else itrRealModeInterrupt vector

/-- The vector of an IRQ for the offsets of the two PICs. -/
def vectorOf (master slave : U8) (irq : Fin 16) : U8 :=
  if irq.val < 8 then master + BitVec.ofNat 8 irq.val
  else slave + BitVec.ofNat 8 (irq.val - 8)

/-- What the processor does when an IRQ is delivered. The offsets are those of
`initialize_pic_protected_mode` and `initialize_pic_real_mode`. -/
def deliver (mode : CpuMode) (irq : Fin 16) : Prog (Board δ κ ε) Unit :=
  match mode with
  | .protectedMode => handleItr (vectorOf 0x20 0x28 irq)
  | .realMode => realModeVector (vectorOf 0x08 0x70 irq)

end Program

/-! ### What the handlers send to the PICs -/

section Silent

variable {δ : Type} {master slave : List U8} {p : U16} {v : U8}

/-- The bytes written to the command ports of the PICs so far. -/
structure Commands (master slave : List U8) (q : Ports δ) : Prop where
  master : writesTo 0x20 q.log = master
  slave : writesTo 0xA0 q.log = slave

/-- One more `outb`. -/
theorem writesTo_outb {log : List PortEvent} {p' : U16} :
    writesTo p (log ++ [.outb p' v]) =
      if p' = p then writesTo p log ++ [v] else writesTo p log := by
  rw [writesTo_append]
  by_cases h : p' = p
  · rw [if_pos h]
    simp [writesTo, PortEvent.writtenTo, h]
  · rw [if_neg h]
    simp [writesTo, PortEvent.writtenTo, h]

/-- An end of interrupt for the master. -/
theorem Commands.eoi {q : Ports δ} (h : Commands master slave q) {dev : δ} :
    Commands (master ++ [0x20]) slave ⟨dev, q.log ++ [.outb 0x20 0x20]⟩ := by
  constructor
  · rw [writesTo_outb, if_pos rfl, h.master]
  · rw [writesTo_outb, if_neg (by decide), h.slave]

/-- An end of interrupt for the slave. -/
theorem Commands.slaveEoi {q : Ports δ} (h : Commands master slave q) {dev : δ} :
    Commands master (slave ++ [0x20]) ⟨dev, q.log ++ [.outb 0xA0 0x20]⟩ := by
  constructor
  · rw [writesTo_outb, if_neg (by decide), h.master]
  · rw [writesTo_outb, if_pos rfl, h.slave]

variable [Bus δ]

theorem keeps_inb : Keeps (Commands (δ := δ) master slave) (inb p) := by
  intro q a q' h hq
  obtain ⟨-, rfl⟩ := returns_inb.mp h
  exact ⟨by simpa [writesTo, PortEvent.writtenTo] using hq.master,
    by simpa [writesTo, PortEvent.writtenTo] using hq.slave⟩

theorem keeps_outb (hm : p ≠ 0x20) (hs : p ≠ 0xA0) :
    Keeps (Commands (δ := δ) master slave) (outb p v) := by
  intro q u q' h hq
  obtain rfl := returns_outb.mp h
  constructor
  · rw [writesTo_outb, if_neg hm]
    exact hq.master
  · rw [writesTo_outb, if_neg hs]
    exact hq.slave

theorem keeps_timerGetTicks : Keeps (Commands (δ := δ) master slave) timerGetTicks := by
  intro q a q' h hq
  obtain ⟨-, rfl⟩ := returns_timerGetTicks.mp h
  exact ⟨hq.master, hq.slave⟩

/-- The keyboard functions reach other ports. -/
theorem keyboard_accesses : AccessesKeep (Commands (δ := δ) master slave) :=
  ⟨fun _ => keeps_inb, fun _ => keeps_outb (by decide) (by decide), keeps_timerGetTicks⟩

theorem keeps_keyboardIrqHandler :
    Keeps (fun m : Machine δ => Commands master slave m.io) keyboardIrqHandler := by
  have ports : ∀ {α : Type} {q : Io δ α}, Keeps (Commands master slave) q →
      Keeps (fun m : Machine δ => Commands master slave m.io) (onPorts q) :=
    fun h => Keeps.zoom fun _ => h
  have memory : ∀ f : Machine δ → ByteMem,
      Keeps (fun m : Machine δ => Commands master slave m.io)
        (modify fun m => { m with mem := f m }) :=
    fun _ => keeps_modify fun _ h => h
  refine Keeps.bind ?_ fun _ => keeps_pure
  refine (ports keyboard_accesses.readData).bind fun _ => (memory _).bind fun _ => ?_
  refine Keeps.bind (Keeps.when ?_) fun _ => (memory _).when.bind fun _ => keeps_pure
  refine Keeps.bind (fun m xt m' h hm => ?_) fun _ => ports ?_
  · obtain ⟨-, rfl⟩ := returns_gets.mp h
    exact hm
  · exact keyboard_accesses.updateLeds

/-- The serial handler ends its interrupt itself. -/
theorem commands_serialWriteAvailableHandler {s s' : Serial δ}
    (h : serialWriteAvailableHandler.Returns s () s') (hs : Commands master slave s.io) :
    Commands (master ++ [0x20]) slave s'.io := by
  have write : ∀ reg v, serialPort + reg ≠ 0x20 → serialPort + reg ≠ 0xA0 →
      Keeps (fun s : Serial δ => Commands master slave s.io) (serialRegWrite reg v) :=
    fun _ _ hm hs => Keeps.zoom fun _ => keeps_outb hm hs
  have read : ∀ reg, Keeps (fun s : Serial δ => Commands master slave s.io) (serialRegRead reg) :=
    fun _ => Keeps.zoom fun _ => keeps_inb
  simp only [serialWriteAvailableHandler, returns_bind, returns_get, returns_zoom] at h
  obtain ⟨_, _, ⟨rfl, rfl⟩, ⟨⟩, t, hbody, io, hend, rfl⟩ := h
  have body : Commands master slave t.io := by
    refine Keeps.when (I := fun s : Serial δ => Commands master slave s.io) (Keeps.ite ?_ ?_)
      _ _ _ hbody hs
    · refine (read _).bind fun _ => Keeps.when ?_
      exact (write _ _ (by decide) (by decide)).bind fun _ => keeps_modify fun _ h => h
    · exact write _ _ (by decide) (by decide)
  obtain rfl := returns_outb.mp hend
  exact body.eoi

end Silent

section Spec

variable {δ κ ε : Type} [Bus δ] {b b' : Board δ κ ε} {master slave : List U8}

theorem returns_port {p : U16} {v : U8} {u : Unit} :
    (port p v).Returns b u b' ↔ b' = { b with serial := { b.serial with
      io := ⟨Bus.outb p v b.serial.io.dev, b.log ++ [.outb p v]⟩ } } := by
  simp [port, Board.ioLens, Board.log]

variable [Callbacks κ ε]

/-- The two tables that deliveries read, and the one that `itr_handle_irq` reads. -/
def Board.SameTables (b b' : Board δ κ ε) : Prop :=
  b'.irqHandlers = b.irqHandlers ∧ b'.itrHandlers = b.itrHandlers ∧
    b'.realModeItrHandlers = b.realModeItrHandlers

/-- What the handler itself sends: one end of interrupt if it is the serial one. -/
def Handler.sends (handler : Handler) : List U8 := if handler = .serial then [0x20] else []

theorem commands_run {handler : Handler} (h : handler.run.Returns b () b')
    (hb : Commands master slave b.serial.io) :
    Commands (master ++ handler.sends) slave b'.serial.io ∧ b.SameTables b' := by
  cases handler with
  | timer =>
      obtain ⟨t, -, rfl⟩ := returns_zoom.mp h
      exact ⟨(List.append_nil master).symm ▸ hb, rfl, rfl, rfl⟩
  | keyboard =>
      obtain ⟨m, hm, rfl⟩ := returns_zoom.mp h
      have kept := keeps_keyboardIrqHandler _ _ _ hm hb
      exact ⟨(List.append_nil master).symm ▸ kept, rfl, rfl, rfl⟩
  | ata =>
      obtain ⟨-, rfl⟩ := returns_pure.mp h
      exact ⟨(List.append_nil master).symm ▸ hb, rfl, rfl, rfl⟩
  | serial =>
      obtain ⟨s, hs, rfl⟩ := returns_zoom.mp h
      exact ⟨commands_serialWriteAvailableHandler hs hb, rfl, rfl, rfl⟩

theorem returns_callIrqHandler {irq : Nat} {handler : Handler} {u : Unit}
    (hhandler : b.irqHandlers irq = some handler) :
    (callIrqHandler irq).Returns b u b' ↔ handler.run.Returns b u b' := by
  simp only [callIrqHandler, returns_bind, returns_get]
  constructor
  · rintro ⟨_, _, ⟨rfl, rfl⟩, hrun⟩
    rwa [hhandler] at hrun
  · intro hrun
    refine ⟨b, b, ⟨rfl, rfl⟩, ?_⟩
    rwa [hhandler]

/-- What the dispatcher sends, after what the handler sends. -/
theorem commands_itrHandleIrq {data : U32} {handler : Handler}
    (hhandler : b.irqHandlers data.toNat = some handler)
    (h : (itrHandleIrq data).Returns b () b') (hb : Commands master slave b.serial.io) :
    Commands (master ++ handler.sends ++ [0x20]) (slave ++ if data ≥ 8 then [0x20] else [])
      b'.serial.io ∧ b.SameTables b' := by
  simp only [itrHandleIrq, returns_bind] at h
  obtain ⟨⟨⟩, t, hrun, ⟨⟩, t', hslave, hmaster⟩ := h
  rw [returns_callIrqHandler hhandler] at hrun
  obtain ⟨sent, same⟩ := commands_run hrun hb
  rw [returns_when] at hslave
  split at hslave
  · rename_i hdata
    obtain rfl := returns_port.mp hslave
    obtain rfl := returns_port.mp hmaster
    rw [if_pos (of_decide_eq_true hdata)]
    exact ⟨sent.slaveEoi.eoi, same⟩
  · rename_i hdata
    subst hslave
    obtain rfl := returns_port.mp hmaster
    rw [if_neg (fun h => hdata (decide_eq_true h)), List.append_nil]
    exact ⟨sent.eoi, same⟩

/-- The dispatcher returns when the handler does. -/
theorem returns_itrHandleIrq {data : U32} {handler : Handler}
    (hhandler : b.irqHandlers data.toNat = some handler) :
    (∃ b', (itrHandleIrq data).Returns b () b') ↔ ∃ b', handler.run.Returns b () b' := by
  simp only [itrHandleIrq, returns_bind]
  constructor
  · rintro ⟨_, ⟨⟩, t, hrun, -⟩
    exact ⟨t, (returns_callIrqHandler hhandler).mp hrun⟩
  · rintro ⟨t, hrun⟩
    obtain ⟨t', hslave⟩ : ∃ t', (when (data ≥ 8) (port 0xA0 0x20)).Returns t () t' := by
      simp only [returns_when, returns_port]
      split
      · exact ⟨_, rfl⟩
      · exact ⟨_, rfl⟩
    exact ⟨_, (), t, (returns_callIrqHandler hhandler).mpr hrun, (), t', hslave,
      returns_port.mpr rfl⟩

end Spec

end MyBios.Irq
