import MyBios.Lib.Lts
import MyBios.Lib.RingBuffer
import MyBios.Serial.Driver

/-!
Buffered serial output as a concurrent system: a writer inside `serial_write`
and the interrupt handler, which may run between any two of the writer's steps.

The writer waits for space, stores its byte, advances `buf_head` and enables the
transmit interrupt. The handler is atomic. Line-status readings are whatever the
device answers, and `env` steps change the device.

* `serial_conservation`: in every reachable state the bytes sent followed by the
  bytes in the ring are the bytes accepted; no step touches the cell of an
  unsent byte; and an idle writer with a non-empty ring has left the transmit
  interrupt enabled.
* `serialWrite_run`: an uninterrupted `serial_write` is a run of the writer.
-/

namespace MyBios.Serial

open Prog Lts

/-! ### Index arithmetic -/

theorem toNat_nextSlot (i : U32) : (nextSlot i).toNat = (i.toNat + 1) % 1024 := by
  have hi := i.isLt
  rw [nextSlot, BitVec.toNat_and, BitVec.toNat_add]
  show (i.toNat + 1) % 2 ^ 32 &&& (2 ^ 10 - 1) = _
  rw [Nat.and_two_pow_sub_one_eq_mod]
  omega

theorem nextSlot_lt (i : U32) : (nextSlot i).toNat < 1024 := by
  rw [toNat_nextSlot]
  exact Nat.mod_lt _ (by omega)

/-! ### Steps -/

/-- Where the writer stands. -/
inductive Writer where
  | idle
  /-- evaluating the condition of the waiting loop -/
  | wait (c : U8)
  /-- about to store into `buf` -/
  | store (c : U8)
  /-- about to advance `buf_head` -/
  | publish (c : U8)
  /-- about to enable the transmit interrupt -/
  | enable
  deriving DecidableEq

/-- The writer has found a free cell and not yet filled and published it. -/
def Writer.hasCell : Writer → Bool
  | .store _ | .publish _ => true
  | _ => false

structure System (δ : Type) where
  serial : Serial δ
  writer : Writer

inductive Label (ε : Type) where
  | env (e : ε)
  | handler
  | call (c : U8)
  | check
  | store (c : U8)
  | publish (c : U8)
  | enable

variable {δ ε : Type}

inductive Step [Bus δ] (env : δ → ε → δ → Prop) : System δ → Label ε → System δ → Prop where
  | env {s w e d} : env s.io.dev e d →
      Step env ⟨s, w⟩ (.env e) ⟨{ s with io := { s.io with dev := d } }, w⟩
  | handler {s s' w} : serialWriteAvailableHandler.Returns s () s' →
      Step env ⟨s, w⟩ .handler ⟨s', w⟩
  | call {s c} : Step env ⟨s, .idle⟩ (.call c) ⟨s, .wait c⟩
  | check {s c} : Step env ⟨s, .wait c⟩ .check ⟨s, if s.full then .wait c else .store c⟩
  | store {s c} : Step env ⟨s, .store c⟩ (.store c) ⟨s.store c, .publish c⟩
  | publish {s c} : Step env ⟨s, .publish c⟩ (.publish c) ⟨s.publish, .enable⟩
  | enable {s s'} : (serialRegWrite serialInterruptEnableRegister 0x02).Returns s () s' →
      Step env ⟨s, .enable⟩ .enable ⟨s', .idle⟩

/-- The bytes accepted during the steps `ls`: those whose index was published. -/
def accepted : List (Label ε) → List U8
  | [] => []
  | .publish c :: ls => c :: accepted ls
  | _ :: ls => accepted ls

theorem accepted_append (ls ks : List (Label ε)) :
    accepted (ls ++ ks) = accepted ls ++ accepted ks := by
  induction ls with
  | nil => rfl
  | cons l ls ih =>
      cases l with
      | publish c => simp [accepted, ih]
      | _ => exact ih

theorem accepted_snoc {ls : List (Label ε)} {l : Label ε} (h : accepted [l] = []) :
    accepted (ls ++ [l]) = accepted ls := by
  rw [accepted_append, h, List.append_nil]

/-! ### What is observed -/

section Observed

variable {δ : Type}

/-- The bytes written to the data register. -/
def sent (s : Serial δ) : List U8 := writesTo (serialPort + serialDataRegister) s.io.log

/-- The byte in the interrupt-enable register. -/
def interruptEnable (s : Serial δ) : Option U8 :=
  lastWrite (serialPort + serialInterruptEnableRegister) s.io.log

/-- The bytes in the ring, oldest first. -/
def ring (s : Serial δ) : List U8 :=
  RingBuffer.contents 1024 s.buf s.bufTail.toNat s.bufHead.toNat

/-- Both indices are in range. -/
structure Indices (s : Serial δ) : Prop where
  head : s.bufHead.toNat < 1024
  tail : s.bufTail.toNat < 1024

theorem ring_eq_nil {s : Serial δ} (h : s.bufHead = s.bufTail) : ring s = [] := by
  rw [ring, h, RingBuffer.contents_self]

/-- Taking the oldest byte out of a non-empty ring. -/
theorem ring_pop {s : Serial δ} (h : Indices s) (hne : s.bufHead ≠ s.bufTail) :
    ring s = s.buf s.bufTail.toNat :: ring { s with bufTail := nextSlot s.bufTail } := by
  rw [ring, RingBuffer.contents_pop h.tail h.head fun e => hne (BitVec.eq_of_toNat_eq e), ring,
    toNat_nextSlot]

theorem full_eq_false {s : Serial δ} (h : s.full = false) :
    (s.bufHead.toNat + 1) % 1024 ≠ s.bufTail.toNat := by
  intro e
  rw [← toNat_nextSlot] at e
  exact of_decide_eq_false h (BitVec.eq_of_toNat_eq e)

/-- The free cell in front of the tail stays free when the tail advances. -/
theorem room_pop {s : Serial δ} (h : Indices s) (hne : s.bufHead ≠ s.bufTail) :
    (s.bufHead.toNat + 1) % 1024 ≠ (nextSlot s.bufTail).toNat := by
  have hhead := h.head
  have htail := h.tail
  have : s.bufHead.toNat ≠ s.bufTail.toNat := fun e => hne (BitVec.eq_of_toNat_eq e)
  rw [toNat_nextSlot]
  omega

/-- Storing into the free cell leaves the ring alone. -/
theorem ring_store {s : Serial δ} {c : U8} (h : Indices s) : ring (s.store c) = ring s :=
  RingBuffer.contents_write_head h.tail h.head

/-- Publishing the stored byte appends it. -/
theorem ring_publish {s : Serial δ} (h : Indices s)
    (room : (s.bufHead.toNat + 1) % 1024 ≠ s.bufTail.toNat) :
    ring s.publish = ring s ++ [s.buf s.bufHead.toNat] := by
  rw [ring, Serial.publish, toNat_nextSlot, RingBuffer.contents_advance h.tail h.head room, ring]

end Observed

/-! ### The handler -/

variable [Bus δ] {before : List U8} {ls : List (Label ε)} {t u : System δ} {s s' : Serial δ}
  {w : Writer}

/-- What the handler can do: send the oldest byte, find the line busy, or turn
the transmit interrupt off because the ring is empty. -/
theorem handler_cases (hb : s.buffered = true)
    (h : serialWriteAvailableHandler.Returns s () s') :
    (s.bufHead ≠ s.bufTail ∧ sent s' = sent s ++ [s.buf s.bufTail.toNat] ∧
      interruptEnable s' = interruptEnable s ∧
        ∃ io, s' = { s with io := io, bufTail := nextSlot s.bufTail }) ∨
    (s.bufHead ≠ s.bufTail ∧ sent s' = sent s ∧ interruptEnable s' = interruptEnable s ∧
      ∃ io, s' = { s with io := io }) ∨
    (s.bufHead = s.bufTail ∧ sent s' = sent s ∧ ∃ io, s' = { s with io := io }) := by
  simp only [serialWriteAvailableHandler, returns_bind, returns_get, returns_when, returns_ite,
    returns_modify, returns_zoom, returns_outb, returns_serialRegWrite,
    returns_serialRegRead] at h
  obtain ⟨_, _, ⟨rfl, rfl⟩, ⟨⟩, s₁, hbody, io, rfl, rfl⟩ := h
  rw [if_pos hb] at hbody
  split at hbody
  · obtain ⟨status, s₂, ⟨-, rfl⟩, hsend⟩ := hbody
    split at hsend
    · obtain ⟨⟨⟩, s₃, rfl, rfl⟩ := hsend
      refine .inl ⟨‹_›, ?_, ?_, _, rfl⟩
      · simp [sent, ioLens, writesTo, PortEvent.writtenTo, serialPort, serialDataRegister,
          serialLineStatusRegister]
      · simp [interruptEnable, lastWrite, ioLens, writesTo, PortEvent.writtenTo, serialPort,
          serialInterruptEnableRegister, serialDataRegister, serialLineStatusRegister]
    · subst hsend
      refine .inr (.inl ⟨‹_›, ?_, ?_, _, rfl⟩)
      · simp [sent, ioLens, writesTo, PortEvent.writtenTo, serialPort, serialDataRegister,
          serialLineStatusRegister]
      · simp [interruptEnable, lastWrite, ioLens, writesTo, PortEvent.writtenTo, serialPort,
          serialInterruptEnableRegister, serialLineStatusRegister]
  · subst hbody
    refine .inr (.inr ⟨not_not.mp ‹_›, ?_, _, rfl⟩)
    simp [sent, ioLens, writesTo, PortEvent.writtenTo, serialPort, serialDataRegister,
      serialInterruptEnableRegister]

/-! ### Initialisation -/

theorem serialRegWrite_bind {α : Type} {reg : U16} {v : U8} {q : Unit → Prog (Serial δ) α}
    {Q : α → Serial δ → Prop}
    (h : Total (q ()) { s with io := ⟨Bus.outb (serialPort + reg) v s.io.dev,
      s.io.log ++ [.outb (serialPort + reg) v]⟩ } Q) :
    Total (serialRegWrite reg v >>= q) s Q := by
  obtain ⟨a, t, hq, hQ⟩ := h
  exact ⟨a, t, (returns_serialRegWrite.mpr rfl).bind hq, hQ⟩

/-- `serial_init` returns and leaves the ring alone. If it finds a port, output is enabled and
not buffered, and the interrupts of the port are off. -/
theorem serialInit_total (baudrate : U32) :
    Total (serialInit baudrate) s fun found t =>
      (t.buf = s.buf ∧ t.bufHead = s.bufHead ∧ t.bufTail = s.bufTail) ∧
        (found = true →
          t.enabled = true ∧ t.buffered = false ∧ interruptEnable t = some 0x00) := by
  refine serialRegWrite_bind (serialRegWrite_bind (serialRegWrite_bind
    (serialRegWrite_bind ?_)))
  refine Total.bind (Total.of_returns (returns_serialRegRead.mpr ⟨rfl, rfl⟩)) ?_
  rintro _ t ⟨rfl, rfl⟩
  split
  · exact total_pure ⟨⟨rfl, rfl, rfl⟩, fun hfound => absurd hfound (by decide)⟩
  · refine Total.modify_bind (serialRegWrite_bind (serialRegWrite_bind
      (serialRegWrite_bind (serialRegWrite_bind (serialRegWrite_bind
        (Total.modify_bind (total_pure ⟨⟨rfl, rfl, rfl⟩, fun _ => ⟨rfl, rfl, ?_⟩⟩)))))))
    simp [interruptEnable, lastWrite, writesTo, PortEvent.writtenTo, serialPort,
      serialInterruptEnableRegister, serialLineControlRegister, serialDataRegister,
      serialModemControlRegister, serialInterruptIdentificationRegister]

/-! ### The code runs these steps -/

/-- An uninterrupted `serial_write` in buffered mode finds a free cell at once: nothing
else makes room while it waits. -/
theorem serialWrite_buffered {c : U8} (hb : s.buffered = true)
    (h : (serialWrite c).Returns s () s') :
    s.full = false ∧ (serialRegWrite serialInterruptEnableRegister 0x02).Returns
      (s.store c).publish () s' := by
  have hmode : (gets Serial.buffered).Returns s true s := returns_gets.mpr ⟨hb.symm, rfl⟩
  have hfull : (gets Serial.full).Returns s s.full s := returns_gets.mpr ⟨rfl, rfl⟩
  rw [serialWrite, hmode.bind_iff, if_neg (by decide)] at h
  obtain ⟨⟨⟩, s₁, hwait, hstores⟩ := returns_bind.mp h
  obtain ⟨⟨⟩, _, rfl, hlast⟩ := hwait.loop_induct (I := fun _ t => t = s)
    (by
      rintro ⟨⟩ _ ⟨⟩ u rfl hpass
      rw [hfull.bind_iff] at hpass
      cases hf : Serial.full _ with
      | true =>
          rw [hf, if_pos rfl] at hpass
          exact (returns_pure.mp hpass).2
      | false =>
          rw [hf, if_neg (by decide)] at hpass
          cases (returns_pure.mp hpass).1)
    rfl
  rw [hfull.bind_iff] at hlast
  cases hf : Serial.full _ with
  | true =>
      rw [hf, if_pos rfl] at hlast
      cases (returns_pure.mp hlast).1
  | false =>
      rw [hf, if_neg (by decide)] at hlast
      obtain ⟨-, rfl⟩ := returns_pure.mp hlast
      obtain ⟨_, _, hstore, hstores⟩ := returns_bind.mp hstores
      obtain ⟨_, _, hpublish, henable⟩ := returns_bind.mp hstores
      obtain rfl := returns_modify.mp hstore
      obtain rfl := returns_modify.mp hpublish
      exact ⟨rfl, henable⟩

/-- An uninterrupted `serial_write` in buffered mode is a run of the writer, and
the byte it accepts is its argument. -/
theorem serialWrite_run (env : δ → ε → δ → Prop) {c : U8} (hb : s.buffered = true)
    (h : (serialWrite c).Returns s () s') :
    ∃ ls, Run (Step env) ⟨s, .idle⟩ ls ⟨s', .idle⟩ ∧ accepted ls = [c] := by
  obtain ⟨hfull, henable⟩ := serialWrite_buffered hb h
  have call : Step env ⟨s, .idle⟩ (.call c) ⟨s, .wait c⟩ := .call
  have check : Step env ⟨s, .wait c⟩ .check _ := .check
  rw [if_neg (by simp [hfull])] at check
  exact ⟨_, ((((Run.nil.snoc call).snoc check).snoc .store).snoc .publish).snoc (.enable henable),
    rfl⟩

/-! ### Runs -/

/-- The invariant of the two sides, with `before` the bytes sent or queued when
the run began. A writer past its check has found a free cell; the ring can only
be non-empty with the interrupt off while the writer is about to enable it. -/
structure Inv (before : List U8) (ls : List (Label ε)) (t : System δ) : Prop where
  buffered : t.serial.buffered = true
  indices : Indices t.serial
  conserved : sent t.serial ++ ring t.serial = before ++ accepted ls
  room : t.writer.hasCell = true → (t.serial.bufHead.toNat + 1) % 1024 ≠
    t.serial.bufTail.toNat
  stored : ∀ c, t.writer = .publish c → t.serial.buf t.serial.bufHead.toNat = c
  awake : t.writer ≠ .enable → t.serial.bufHead ≠ t.serial.bufTail →
    interruptEnable t.serial = some 0x02

theorem Inv.handler (h : Inv before ls ⟨s, w⟩)
    (hstep : serialWriteAvailableHandler.Returns s () s') :
    Inv before (ls ++ [.handler]) ⟨s', w⟩ := by
  have haccepted : accepted (ls ++ [Label.handler (ε := ε)]) = accepted ls := accepted_snoc rfl
  rcases handler_cases h.buffered hstep with ⟨hne, hsent, henable, io, rfl⟩ |
    ⟨hne, hsent, henable, io, rfl⟩ | ⟨heq, hsent, io, rfl⟩
  · refine ⟨h.buffered, ⟨h.indices.head, ?_⟩, ?_, fun _ => room_pop h.indices hne, h.stored,
      fun hw _ => henable.trans (h.awake hw hne)⟩
    · exact nextSlot_lt _
    · have hconserved := h.conserved
      rw [ring_pop h.indices hne] at hconserved
      rw [haccepted, ← hconserved]
      show sent _ ++ _ = _
      rw [hsent, List.append_assoc]
      rfl
  · refine ⟨h.buffered, ⟨h.indices.head, h.indices.tail⟩, ?_, h.room, h.stored,
      fun hw hne => henable.trans (h.awake hw hne)⟩
    rw [haccepted, ← h.conserved]
    exact congrArg (· ++ ring s) hsent
  · refine ⟨h.buffered, ⟨h.indices.head, h.indices.tail⟩, ?_, h.room, h.stored,
      fun _ hne => absurd heq hne⟩
    rw [haccepted, ← h.conserved]
    exact congrArg (· ++ ring s) hsent

theorem Inv.step {env : δ → ε → δ → Prop} {l : Label ε} (h : Inv before ls t)
    (hstep : Step env t l u) : Inv before (ls ++ [l]) u := by
  cases hstep with
  | handler hrun => exact h.handler hrun
  | env _ =>
      exact ⟨h.buffered, ⟨h.indices.head, h.indices.tail⟩,
        by rw [accepted_snoc rfl]; exact h.conserved, h.room, h.stored, h.awake⟩
  | call =>
      exact ⟨h.buffered, h.indices, by rw [accepted_snoc rfl]; exact h.conserved,
        fun hw => (nomatch hw), fun _ hw => (nomatch hw),
        fun _ => h.awake (by simp)⟩
  | @check s c =>
      refine ⟨h.buffered, h.indices, by rw [accepted_snoc rfl]; exact h.conserved, ?_, ?_,
        fun _ => h.awake (by simp)⟩
      · intro hw
        cases hfull : s.full with
        | false => exact full_eq_false hfull
        | true => rw [hfull] at hw; cases hw
      · intro c' hw
        split at hw <;> cases hw
  | @store s c =>
      refine ⟨h.buffered, ⟨h.indices.head, h.indices.tail⟩, ?_, fun _ => h.room rfl, ?_,
        fun _ => h.awake (by simp)⟩
      · rw [accepted_snoc rfl, ← h.conserved]
        exact congrArg (sent s ++ ·) (ring_store h.indices)
      · rintro _ ⟨⟩
        exact Function.update_self ..
  | @publish s c =>
      refine ⟨h.buffered, ⟨nextSlot_lt _, h.indices.tail⟩, ?_,
        fun hw => (nomatch hw), fun _ hw => (nomatch hw),
        fun hw => absurd rfl hw⟩
      have hring := ring_publish h.indices (h.room rfl)
      rw [h.stored c rfl] at hring
      rw [accepted_append, ← List.append_assoc, ← h.conserved, List.append_assoc]
      exact congrArg (sent s ++ ·) hring
  | enable hrun =>
      rw [returns_serialRegWrite] at hrun
      subst hrun
      refine ⟨h.buffered, ⟨h.indices.head, h.indices.tail⟩, ?_,
        fun hw => (nomatch hw), fun _ hw => (nomatch hw), ?_⟩
      · rw [accepted_snoc rfl, ← h.conserved]
        exact congrArg (· ++ ring _) (by simp [sent, writesTo, PortEvent.writtenTo, serialPort,
          serialDataRegister, serialInterruptEnableRegister])
      · intro _ _
        simp [interruptEnable, lastWrite, writesTo, PortEvent.writtenTo]

/-- The state `serial_set_buffered(true)` leaves, with the indices in range, as
they are from their initial 0 on. -/
def Ready (s₀ : Serial δ) : Prop :=
  ∃ r, Indices r ∧ (serialSetBuffered true).Returns r () s₀

theorem Ready.inv {s₀ : Serial δ} (h : Ready s₀) :
    Inv (ε := ε) (sent s₀ ++ ring s₀) [] ⟨s₀, .idle⟩ := by
  obtain ⟨r, hr, hset⟩ := h
  simp only [serialSetBuffered, returns_bind, returns_modify, returns_serialRegWrite,
    if_true] at hset
  obtain ⟨⟨⟩, _, rfl, rfl⟩ := hset
  refine ⟨rfl, ⟨hr.head, hr.tail⟩, (List.append_nil _).symm, (by intro hw; cases hw),
    (by intro _ hw; cases hw), fun _ _ => ?_⟩
  simp [interruptEnable, lastWrite, writesTo, PortEvent.writtenTo]

/-- No step writes to the cell of an unsent byte. -/
theorem step_untouched {env : δ → ε → δ → Prop} {l : Label ε} (h : Indices t.serial)
    (hb : t.serial.buffered = true) (hstep : Step env t l u) :
    ∀ i < RingBuffer.count 1024 t.serial.bufTail.toNat t.serial.bufHead.toNat,
      u.serial.buf ((t.serial.bufTail.toNat + i) % 1024) =
        t.serial.buf ((t.serial.bufTail.toNat + i) % 1024) := by
  intro i hi
  cases hstep with
  | store => exact Function.update_of_ne (RingBuffer.slot_ne_head h.tail h.head hi) _ _
  | handler hrun =>
      rcases handler_cases hb hrun with ⟨-, -, -, io, rfl⟩ | ⟨-, -, -, io, rfl⟩ | ⟨-, -, io, rfl⟩
      all_goals rfl
  | enable hrun =>
      rw [returns_serialRegWrite] at hrun
      rw [hrun]
  | _ => rfl

/-- After the steps `ls` from `s₀`: the bytes sent, then those in the ring, are
the bytes accepted; no next step overwrites an unsent byte; the indices are in
range; and no byte waits for an interrupt that is off. -/
structure Conserved (env : δ → ε → δ → Prop) (s₀ : Serial δ) (ls : List (Label ε))
    (t : System δ) : Prop where
  conserved : sent t.serial ++ ring t.serial = sent s₀ ++ ring s₀ ++ accepted ls
  untouched : ∀ l u, Step env t l u →
    ∀ i < RingBuffer.count 1024 t.serial.bufTail.toNat t.serial.bufHead.toNat,
      u.serial.buf ((t.serial.bufTail.toNat + i) % 1024) =
        t.serial.buf ((t.serial.bufTail.toNat + i) % 1024)
  indices : Indices t.serial
  awake : t.writer = .idle → ring t.serial ≠ [] → interruptEnable t.serial = some 0x02

/-- Whatever the interleaving, no byte is lost, doubled, overwritten or left
waiting. -/
theorem serial_conservation {env : δ → ε → δ → Prop} {s₀ : Serial δ} (init : Ready s₀)
    (run : Run (Step env) ⟨s₀, .idle⟩ ls t) : Conserved env s₀ ls t := by
  have h := run.invariant (I := Inv (sent s₀ ++ ring s₀)) init.inv
    fun _ _ _ _ h hstep => h.step hstep
  refine ⟨h.conserved, fun l u => step_untouched h.indices h.buffered, h.indices,
    fun hidle hring => h.awake (by rw [hidle]; decide) fun heq => hring (ring_eq_nil heq)⟩

/-- A line that is always ready to send. -/
structure ReadyLine where

instance : Bus ReadyLine where
  inb _ d := (0x20, d)
  inw _ d := (0, d)
  outb _ _ d := d
  outw _ _ d := d
  ticks d := (0, d)

/-- The static variables at boot. -/
def boot : Serial ReadyLine := ⟨⟨⟨⟩, []⟩, false, false, fun _ => 0, 0, 0⟩

/-- `serial_init` leaves the indices in range. -/
theorem indices_serialInit {baudrate : U32} {found : Bool} (h : Indices s)
    (hinit : (serialInit baudrate).Returns s found s') : Indices s' := by
  obtain ⟨⟨-, hhead, htail⟩, -⟩ := (serialInit_total baudrate).returns hinit
  exact ⟨hhead ▸ h.head, htail ▸ h.tail⟩

/-- After `serial_init` and `serial_set_buffered(true)` two bytes are written, and a run of the
handler between them sends the first. -/
theorem serial_conservation_two :
    ∃ r s₀ ls t, (serialInit 115200).Returns boot true r ∧
      (serialSetBuffered true).Returns r () s₀ ∧ accepted ls = [0x41, 0x42] ∧
      sent t.serial = sent s₀ ++ [0x41] ∧
      Conserved (ε := Unit) (fun _ _ _ => False) s₀ ls t := by
  obtain ⟨r, hinit, s₀, hset, hb, s₁, hfirst, s₂, hhandler, hb₂, s₃, hsecond, hsent⟩ :
      ∃ r, (serialInit 115200).Returns boot true r ∧
        ∃ s₀, (serialSetBuffered true).Returns r () s₀ ∧ s₀.buffered = true ∧
          ∃ s₁, (serialWrite 0x41).Returns s₀ () s₁ ∧
            ∃ s₂, serialWriteAvailableHandler.Returns s₁ () s₂ ∧ s₂.buffered = true ∧
              ∃ s₃, (serialWrite 0x42).Returns s₂ () s₃ ∧ sent s₃ = sent s₀ ++ [0x41] :=
    ⟨_, ⟨1, rfl⟩, _, ⟨1, rfl⟩, rfl, _, ⟨1, rfl⟩, _, ⟨1, rfl⟩, rfl, _, ⟨1, rfl⟩, rfl⟩
  obtain ⟨ls₁, run₁, hls₁⟩ := serialWrite_run (fun _ (_ : Unit) _ => False) hb hfirst
  obtain ⟨ls₂, run₂, hls₂⟩ := serialWrite_run (fun _ (_ : Unit) _ => False) hb₂ hsecond
  have run := (run₁.snoc (.handler hhandler)).trans run₂
  have hls : accepted (ls₁ ++ [.handler] ++ ls₂) = [0x41, 0x42] := by
    rw [accepted_append, accepted_snoc rfl, hls₁, hls₂]
    rfl
  have ready : Ready s₀ := ⟨r, indices_serialInit ⟨by decide, by decide⟩ hinit, hset⟩
  exact ⟨r, s₀, _, _, hinit, hset, hls, hsent, serial_conservation ready run⟩

end MyBios.Serial
