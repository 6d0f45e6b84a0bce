import MyBios.Serial.System
import MyBios.Video.Vga

/-!
`putc` (`output.c`) in a build with `ENABLE_SERIAL`, called by the main program
and by interrupt handlers.

`putc` asks for the interrupt flag and takes `serial_write` or
`serial_write_unbuffered`. The first puts a character in the ring in buffered
mode; the second, and the first in unbuffered mode, write to the line at once.
The main program may be interrupted between any two of its steps; a handler is
atomic and runs with the flag off, so what it prints goes to the line at once.

* `putc_run`: a call of `putc` that is not interrupted is a run of these steps.
* `putc_in_order`: while no character overtakes another (`NoOvertaking`), the
  bytes sent are a prefix of the characters put.
* `putc_in_order_fails`: a character put with the flag off goes out before the
  ones in the ring.
-/

namespace MyBios.Putc

open Prog Lts Serial

/-! ### The program -/

/-- The static variables of `output.c`, `vga.c` and `serial.c`, and memory. -/
structure Console (δ : Type) where
  serial : Serial δ
  vgaEnabled : Bool
  curLine : U8
  curCol : U8
  mem : ByteMem

namespace Console

variable {δ : Type}

def vgaLens : Lens (Console δ) (Vga δ) where
  get b := ⟨b.curLine, b.curCol, b.serial.io, b.mem⟩
  set v b :=
    { b with
      serial := { b.serial with io := v.io }
      curLine := v.curLine
      curCol := v.curCol
      mem := v.mem }
  get_set _ _ := rfl
  set_get _ := rfl

def serialLens : Lens (Console δ) (Serial δ) where
  get := Console.serial
  set s b := { b with serial := s }
  get_set _ _ := rfl
  set_get _ := rfl

end Console

section Program

variable {δ : Type} [Bus δ]

/-- The serial part of `putc` with `itr_enabled() = itr`. -/
def putcSerial (itr : Bool) (c : U8) : Prog (Serial δ) Unit := do
  let enabled ← gets Serial.enabled
  when enabled (if itr then serialWrite c else serialWriteUnbuffered c)

/-- `putc`. -/
def putc (itr : Bool) (c : U8) : Prog (Console δ) Unit := do
  let vgaEnabled ← gets Console.vgaEnabled
  when vgaEnabled (zoom Console.vgaLens (vgaPutChar c))
  zoom Console.serialLens (putcSerial itr c)

end Program

/-! ### Steps -/

/-- Where the main program stands. -/
inductive Caller where
  | idle
  /-- in the screen part of `putc` -/
  | screen (c : U8)
  /-- polling the line -/
  | direct (c : U8)
  /-- about to write to the free line -/
  | write (c : U8)
  /-- evaluating the condition of the waiting loop of `serial_write` -/
  | wait (c : U8)
  /-- about to store into `buf` -/
  | store (c : U8)
  /-- about to advance `buf_head` -/
  | publish (c : U8)
  /-- about to enable the transmit interrupt -/
  | enable
  deriving DecidableEq

/-- The character that is put but neither in the ring nor sent. -/
def Caller.pending : Caller → List U8
  | .screen c | .direct c | .write c | .wait c | .store c | .publish c => [c]
  | .idle | .enable => []

/-- The main program is in the direct path. -/
def Caller.isDirect : Caller → Bool
  | .direct _ | .write _ => true
  | _ => false

/-- The main program has found a free cell and not yet filled and published it. -/
def Caller.hasCell : Caller → Bool
  | .store _ | .publish _ => true
  | _ => false

/-- The main program has chosen a path. -/
def Caller.onLine : Caller → Bool
  | .idle | .screen _ => false
  | _ => true

structure System (δ : Type) where
  serial : Serial δ
  /-- the interrupt flag of the main program -/
  flag : Bool
  caller : Caller

/-- The path that `putc` takes. -/
def path (s : Serial δ) (flag : Bool) (c : U8) : Caller :=
  if s.enabled then if flag && s.buffered then .wait c else .direct c else .idle

inductive Label where
  | other
  | transmit
  | handlerPut (c : U8)
  | setFlag (flag : Bool)
  | setBuffered (b : Bool)
  | call (c : U8)
  | choose
  | poll
  | write
  | check
  | store
  | publish
  | enable

variable {δ : Type}

/-- `other` is anything that neither writes to the data register nor touches the static
variables of `serial.c`: the screen part of `putc`, another device, another handler.
The interrupts come while the flag is on. -/
inductive Step [Bus δ] : System δ → Label → System δ → Prop where
  | other {s f w io} : sent { s with io := io } = sent s →
      Step ⟨s, f, w⟩ .other ⟨{ s with io := io }, f, w⟩
  | transmit {s s' w} : serialWriteAvailableHandler.Returns s () s' →
      Step ⟨s, true, w⟩ .transmit ⟨s', true, w⟩
  | handlerPut {s s' w c} : (putcSerial false c).Returns s () s' →
      Step ⟨s, true, w⟩ (.handlerPut c) ⟨s', true, w⟩
  | setFlag {s f f'} : Step ⟨s, f, .idle⟩ (.setFlag f') ⟨s, f', .idle⟩
  | setBuffered {s s' f b} : (serialSetBuffered b).Returns s () s' →
      Step ⟨s, f, .idle⟩ (.setBuffered b) ⟨s', f, .idle⟩
  | call {s f c} : Step ⟨s, f, .idle⟩ (.call c) ⟨s, f, .screen c⟩
  | choose {s f c} : Step ⟨s, f, .screen c⟩ .choose ⟨s, f, path s f c⟩
  | poll {s s' f c status} : (serialRegRead serialLineStatusRegister).Returns s status s' →
      Step ⟨s, f, .direct c⟩ .poll ⟨s', f, if status &&& 0x20 = 0 then .direct c else .write c⟩
  | write {s s' f c} : (serialRegWrite serialDataRegister c).Returns s () s' →
      Step ⟨s, f, .write c⟩ .write ⟨s', f, .idle⟩
  | check {s f c} : Step ⟨s, f, .wait c⟩ .check ⟨s, f, if s.full then .wait c else .store c⟩
  | store {s f c} : Step ⟨s, f, .store c⟩ .store ⟨s.store c, f, .publish c⟩
  | publish {s f c} : Step ⟨s, f, .publish c⟩ .publish ⟨s.publish, f, .enable⟩
  | enable {s s' f} : (serialRegWrite serialInterruptEnableRegister 0x02).Returns s () s' →
      Step ⟨s, f, .enable⟩ .enable ⟨s', f, .idle⟩

/-- The characters put, in the order of the calls. -/
def put : List Label → List U8
  | [] => []
  | .call c :: ls | .handlerPut c :: ls => c :: put ls
  | _ :: ls => put ls

theorem put_append (ls ks : List Label) : put (ls ++ ks) = put ls ++ put ks := by
  induction ls with
  | nil => rfl
  | cons l ls ih =>
      cases l with
      | call c => simp [put, ih]
      | handlerPut c => simp [put, ih]
      | _ => exact ih

theorem put_snoc {ls : List Label} {l : Label} (h : put [l] = []) : put (ls ++ [l]) = put ls := by
  rw [put_append, h, List.append_nil]

/-- The bytes sent since the start are a prefix of the characters put. -/
def InOrder (s₀ : Serial δ) (ls : List Label) (t : System δ) : Prop :=
  ∃ out, sent t.serial = sent s₀ ++ out ∧ out <+: put ls

/-- No character overtakes another: a `putc` of the main program that takes the direct
path finds the ring empty, and so does one of a handler, which besides interrupts no
`putc` whose character is neither in the ring nor sent. -/
def NoOvertaking (t : System δ) : Label → Prop
  | .choose => t.serial.enabled = true → ¬ (t.flag = true ∧ t.serial.buffered = true) →
      t.serial.bufHead = t.serial.bufTail
  | .handlerPut _ => t.serial.enabled = true →
      t.serial.bufHead = t.serial.bufTail ∧ t.caller.pending = []
  | _ => True

/-- The ring is empty and its indices are in range. -/
structure Fresh (s : Serial δ) : Prop where
  empty : s.bufHead = s.bufTail
  tail : s.bufTail.toNat < 1024

/-! ### What the parts send -/

section Sends

variable [Bus δ] {s s' : Serial δ} {c : U8}

theorem sent_serialRegRead {reg : U16} {v : U8} (h : (serialRegRead reg).Returns s v s') :
    sent s' = sent s ∧ ∃ io, s' = { s with io := io } := by
  obtain ⟨-, rfl⟩ := returns_serialRegRead.mp h
  exact ⟨by simp [sent, writesTo, PortEvent.writtenTo], _, rfl⟩

/-- A write to another register sends nothing. -/
theorem sent_serialRegWrite {reg : U16} {v : U8}
    (hreg : serialPort + reg ≠ serialPort + serialDataRegister)
    (h : (serialRegWrite reg v).Returns s () s') :
    sent s' = sent s ∧ ∃ io, s' = { s with io := io } := by
  obtain rfl := returns_serialRegWrite.mp h
  exact ⟨by simp [sent, writesTo, PortEvent.writtenTo, hreg], _, rfl⟩

theorem sent_data (h : (serialRegWrite serialDataRegister c).Returns s () s') :
    sent s' = sent s ++ [c] ∧ ∃ io, s' = { s with io := io } := by
  obtain rfl := returns_serialRegWrite.mp h
  exact ⟨by simp [sent, writesTo, PortEvent.writtenTo], _, rfl⟩

theorem sent_serialSetBuffered {b : Bool} (h : (serialSetBuffered b).Returns s () s') :
    sent s' = sent s ∧ ∃ io, s' = { s with io := io, buffered := b } := by
  simp only [serialSetBuffered, returns_bind, returns_modify] at h
  obtain ⟨⟨⟩, _, rfl, h⟩ := h
  have hwrite : ∃ v, (serialRegWrite serialInterruptEnableRegister v).Returns
      { s with buffered := b } () s' := by
    split at h
    · exact ⟨_, h⟩
    · exact ⟨_, h⟩
  obtain ⟨v, hwrite⟩ := hwrite
  exact sent_serialRegWrite (by decide) hwrite

/-- Polled output sends its character and leaves the ring alone. -/
theorem sent_serialWriteUnbuffered (h : (serialWriteUnbuffered c).Returns s () s') :
    sent s' = sent s ++ [c] ∧ ∃ io, s' = { s with io := io } := by
  obtain ⟨⟨⟩, s₁, hwait, hdata⟩ := returns_bind.mp h
  obtain ⟨⟨⟩, s₂, ⟨hsent, io, rfl⟩, hlast⟩ := hwait.loop_induct
    (I := fun _ t => sent t = sent s ∧ ∃ io, t = { s with io := io })
    (by
      rintro ⟨⟩ t ⟨⟩ u ⟨hsent, io, rfl⟩ hpass
      obtain ⟨status, v, hread, hpass⟩ := returns_bind.mp hpass
      obtain ⟨hkept, io', rfl⟩ := sent_serialRegRead hread
      split at hpass
      · obtain ⟨-, rfl⟩ := returns_pure.mp hpass
        exact ⟨hkept.trans hsent, io', rfl⟩
      · obtain ⟨hagain, -⟩ := returns_pure.mp hpass
        cases hagain)
    ⟨rfl, s.io, rfl⟩
  obtain ⟨status, v, hread, hpass⟩ := returns_bind.mp hlast
  obtain ⟨hkept, io', rfl⟩ := sent_serialRegRead hread
  obtain rfl : s₁ = _ := by
    split at hpass
    · cases (returns_pure.mp hpass).1
    · exact (returns_pure.mp hpass).2
  obtain ⟨hdata, io'', rfl⟩ := sent_data hdata
  exact ⟨hdata.trans (congrArg (· ++ [c]) (hkept.trans hsent)), io'', rfl⟩

/-- What a handler prints goes to the line at once. -/
theorem sent_putcSerial (h : (putcSerial false c).Returns s () s') :
    if s.enabled then sent s' = sent s ++ [c] ∧ ∃ io, s' = { s with io := io } else s' = s := by
  simp only [putcSerial, returns_bind, returns_gets, returns_when] at h
  obtain ⟨_, _, ⟨rfl, rfl⟩, h⟩ := h
  split
  · rename_i henabled
    rw [if_pos henabled, if_neg Bool.false_ne_true] at h
    exact sent_serialWriteUnbuffered h
  · rename_i henabled
    rwa [if_neg henabled] at h

/-- In unbuffered mode the transmit handler does nothing but end its interrupt. -/
theorem handler_unbuffered (hb : s.buffered = false)
    (h : serialWriteAvailableHandler.Returns s () s') :
    sent s' = sent s ∧ ∃ io, s' = { s with io := io } := by
  simp only [serialWriteAvailableHandler, returns_bind, returns_get, returns_when,
    returns_zoom, returns_outb] at h
  obtain ⟨_, _, ⟨rfl, rfl⟩, ⟨⟩, s₁, hbody, io, rfl, rfl⟩ := h
  rw [if_neg (by simp [hb])] at hbody
  subst hbody
  exact ⟨by simp [sent, ioLens, writesTo, PortEvent.writtenTo, serialPort, serialDataRegister],
    _, rfl⟩

/-- The transmit handler sends the oldest byte of the ring, or nothing. -/
theorem transmit_cases (h : serialWriteAvailableHandler.Returns s () s') :
    (s.bufHead ≠ s.bufTail ∧ sent s' = sent s ++ [s.buf s.bufTail.toNat] ∧
      ∃ io, s' = { s with io := io, bufTail := nextSlot s.bufTail }) ∨
    (sent s' = sent s ∧ ∃ io, s' = { s with io := io }) := by
  by_cases hb : s.buffered = true
  · rcases handler_cases hb h with ⟨hne, hsent, -, hs'⟩ | ⟨-, hsent, -, hs'⟩ | ⟨-, hsent, hs'⟩
    · exact .inl ⟨hne, hsent, hs'⟩
    · exact .inr ⟨hsent, hs'⟩
    · exact .inr ⟨hsent, hs'⟩
  · exact .inr (handler_unbuffered (Bool.eq_false_iff.mpr hb) h)

end Sends

/-! ### The order is kept -/

/-- The bytes `out` are sent, then come those in the ring, then the one that the main
program still holds. Without a port nothing is sent at all. -/
structure Inv (before out : List U8) (ls : List Label) (t : System δ) : Prop where
  sent : sent t.serial = before ++ out
  indices : Indices t.serial
  conserved : t.serial.enabled = true → out ++ ring t.serial ++ t.caller.pending = put ls
  silent : t.serial.enabled = false →
    out = [] ∧ t.serial.bufHead = t.serial.bufTail ∧ t.caller.onLine = false
  direct : t.caller.isDirect = true → t.serial.bufHead = t.serial.bufTail
  room : t.caller.hasCell = true → (t.serial.bufHead.toNat + 1) % 1024 ≠ t.serial.bufTail.toNat
  stored : ∀ c, t.caller = .publish c → t.serial.buf t.serial.bufHead.toNat = c

section Steps

variable {before out : List U8} {ls : List Label} {l : Label} {s s' : Serial δ} {f f' : Bool}
  {w w' : Caller} {t u : System δ} {c : U8}

/-- A step that changes the device and its mode only, and moves no character. -/
theorem Inv.quiet (h : Inv before out ls ⟨s, f, w⟩) (io : Ports δ) (b : Bool)
    (hl : put [l] = []) (hsent : Serial.sent { s with io := io, buffered := b } = Serial.sent s)
    (hpending : w'.pending = w.pending) (honLine : s.enabled = false → w'.onLine = false)
    (hdirect : w'.isDirect = true → s.bufHead = s.bufTail)
    (hroom : w'.hasCell = true → (s.bufHead.toNat + 1) % 1024 ≠ s.bufTail.toNat)
    (hstored : ∀ c, w' = .publish c → s.buf s.bufHead.toNat = c) :
    Inv before out (ls ++ [l]) ⟨{ s with io := io, buffered := b }, f', w'⟩ where
  sent := hsent.trans h.sent
  indices := ⟨h.indices.head, h.indices.tail⟩
  conserved henabled := by
    rw [put_snoc hl, ← h.conserved henabled, hpending]
    rfl
  silent henabled :=
    ⟨(h.silent henabled).1, (h.silent henabled).2.1, honLine henabled⟩
  direct := hdirect
  room := hroom
  stored := hstored

/-- The same without moving. -/
theorem Inv.stay (h : Inv before out ls ⟨s, f, w⟩) (io : Ports δ) (hl : put [l] = [])
    (hsent : Serial.sent { s with io := io } = Serial.sent s) :
    Inv before out (ls ++ [l]) ⟨{ s with io := io }, f', w⟩ :=
  h.quiet io _ hl hsent rfl (fun hdisabled => (h.silent hdisabled).2.2) h.direct h.room h.stored

/-- A character goes out on the line while the ring is empty. -/
theorem Inv.sends (h : Inv before out ls ⟨s, f, w⟩) {io : Ports δ}
    (hsent : Serial.sent { s with io := io } = Serial.sent s ++ [c])
    (henabled : s.enabled = true) (hempty : s.bufHead = s.bufTail)
    (hput : put ls ++ put [l] = out ++ [c]) (hpending : w'.pending = [])
    (hcell : w'.hasCell = false) (hpublish : ∀ c, w' ≠ .publish c) :
    Inv before (out ++ [c]) (ls ++ [l]) ⟨{ s with io := io }, f', w'⟩ where
  sent := by rw [hsent, h.sent, List.append_assoc]
  indices := ⟨h.indices.head, h.indices.tail⟩
  conserved _ := by
    have hring : ring { s with io := io } = [] := ring_eq_nil hempty
    rw [put_append, hput, hpending, hring, List.append_nil, List.append_nil]
  silent hdisabled := absurd (henabled.symm.trans hdisabled) (by decide)
  direct _ := hempty
  room hw := absurd (hcell.symm.trans hw) (by decide)
  stored c hw := absurd hw (hpublish c)

theorem Inv.transmit [Bus δ] (h : Inv before out ls ⟨s, f, w⟩)
    (hrun : serialWriteAvailableHandler.Returns s () s') :
    ∃ out', Inv before out' (ls ++ [.transmit]) ⟨s', f, w⟩ := by
  rcases transmit_cases hrun with ⟨hne, hsent, io, rfl⟩ | ⟨hsent, io, rfl⟩
  · refine ⟨out ++ [s.buf s.bufTail.toNat], ?_, ⟨h.indices.head, nextSlot_lt _⟩, ?_, ?_, ?_,
      fun _ => room_pop h.indices hne, h.stored⟩
    · rw [hsent, h.sent, List.append_assoc]
    · intro henabled
      have conserved := h.conserved henabled
      rw [ring_pop h.indices hne] at conserved
      rw [put_snoc rfl, ← conserved]
      simp only [List.append_assoc, List.cons_append, List.nil_append]
      rfl
    · exact fun hdisabled => absurd (h.silent hdisabled).2.1 hne
    · exact fun hw => absurd (h.direct hw) hne
  · exact ⟨out, h.stay _ rfl hsent⟩

/-- A handler's character goes out at once; it must not overtake. -/
theorem Inv.handlerPut [Bus δ] (h : Inv before out ls ⟨s, true, w⟩)
    (hok : NoOvertaking ⟨s, true, w⟩ (.handlerPut c))
    (hrun : (putcSerial false c).Returns s () s') :
    ∃ out', Inv before out' (ls ++ [.handlerPut c]) ⟨s', true, w⟩ := by
  have hsends := sent_putcSerial hrun
  split at hsends
  · rename_i henabled
    obtain ⟨hsent, io, rfl⟩ := hsends
    obtain ⟨hempty, hpending⟩ := hok henabled
    have conserved := h.conserved henabled
    rw [ring_eq_nil hempty, hpending, List.append_nil, List.append_nil] at conserved
    refine ⟨out ++ [c], h.sends hsent henabled hempty (by rw [← conserved]; rfl) hpending ?_ ?_⟩
    · cases w <;> first | rfl | cases hpending
    · rintro c rfl
      cases hpending
  · rename_i hdisabled
    obtain rfl := hsends
    exact ⟨out, h.sent, h.indices, fun henabled => absurd henabled hdisabled, h.silent,
      h.direct, h.room, h.stored⟩

theorem Inv.call (h : Inv before out ls ⟨s, f, .idle⟩) :
    Inv before out (ls ++ [.call c]) ⟨s, f, .screen c⟩ := by
  refine ⟨h.sent, h.indices, ?_, ?_, (fun hw => nomatch hw), (fun hw => nomatch hw),
    (fun _ hw => nomatch hw)⟩
  · intro henabled
    have conserved := h.conserved henabled
    rw [put_append, ← conserved]
    simp only [List.append_assoc]
    rfl
  · exact fun hdisabled => ⟨(h.silent hdisabled).1, (h.silent hdisabled).2.1, rfl⟩

/-- The character goes to the line or to the ring, or is dropped without a port. -/
theorem Inv.choose (h : Inv before out ls ⟨s, f, .screen c⟩)
    (hok : NoOvertaking ⟨s, f, .screen c⟩ .choose) :
    Inv before out (ls ++ [.choose]) ⟨s, f, path s f c⟩ := by
  by_cases henabled : s.enabled = true
  · have hstays : s.enabled = false → False :=
      fun hdisabled => nomatch henabled.symm.trans hdisabled
    rw [path, if_pos henabled]
    split
    · exact h.quiet s.io s.buffered rfl rfl rfl (fun hdisabled => (hstays hdisabled).elim)
        (fun hw => nomatch hw) (fun hw => nomatch hw) (fun _ hw => nomatch hw)
    · rename_i hpath
      rw [Bool.and_eq_true] at hpath
      exact h.quiet s.io s.buffered rfl rfl rfl (fun hdisabled => (hstays hdisabled).elim)
        (fun _ => hok henabled hpath) (fun hw => nomatch hw) (fun _ hw => nomatch hw)
  · rw [path, if_neg henabled]
    refine ⟨h.sent, h.indices, fun henabled' => absurd henabled' henabled, ?_,
      (fun hw => nomatch hw), (fun hw => nomatch hw), (fun _ hw => nomatch hw)⟩
    exact fun hdisabled => ⟨(h.silent hdisabled).1, (h.silent hdisabled).2.1, rfl⟩

/-- A caller that is on the line or at the ring has a port. -/
theorem Inv.enabled (h : Inv before out ls ⟨s, f, w⟩) (hline : w.onLine = true) :
    s.enabled = true :=
  Bool.eq_true_of_not_eq_false fun hdisabled =>
    nomatch (h.silent hdisabled).2.2.symm.trans hline

theorem Inv.store (h : Inv before out ls ⟨s, f, .store c⟩) :
    Inv before out (ls ++ [.store]) ⟨s.store c, f, .publish c⟩ := by
  refine ⟨h.sent, ⟨h.indices.head, h.indices.tail⟩, ?_, ?_, (fun hw => nomatch hw),
    fun _ => h.room rfl, ?_⟩
  · intro henabled
    rw [put_snoc rfl, ← h.conserved henabled]
    exact congrArg (out ++ · ++ [c]) (ring_store h.indices)
  · exact fun hdisabled => nomatch (h.silent hdisabled).2.2
  · rintro _ ⟨⟩
    exact Function.update_self ..

theorem Inv.publish (h : Inv before out ls ⟨s, f, .publish c⟩) :
    Inv before out (ls ++ [.publish]) ⟨s.publish, f, .enable⟩ := by
  refine ⟨h.sent, ⟨nextSlot_lt _, h.indices.tail⟩, ?_, ?_, (fun hw => nomatch hw),
    (fun hw => nomatch hw), (fun _ hw => nomatch hw)⟩
  · intro henabled
    have hring := ring_publish h.indices (h.room rfl)
    rw [h.stored c rfl] at hring
    rw [put_snoc rfl, ← h.conserved henabled]
    show out ++ ring s.publish ++ [] = out ++ ring s ++ [c]
    rw [hring, List.append_nil, List.append_assoc]
  · exact fun hdisabled => nomatch (h.silent hdisabled).2.2

theorem Inv.step [Bus δ] (h : Inv before out ls t) (hok : NoOvertaking t l) (hstep : Step t l u) :
    ∃ out', Inv before out' (ls ++ [l]) u := by
  cases hstep with
  | other hsent => exact ⟨out, h.stay _ rfl hsent⟩
  | transmit hrun => exact h.transmit hrun
  | handlerPut hrun => exact h.handlerPut hok hrun
  | setFlag => exact ⟨out, h.stay _ rfl rfl⟩
  | @setBuffered s s' f b hrun =>
      obtain ⟨hsent, io, rfl⟩ := sent_serialSetBuffered hrun
      exact ⟨out, h.quiet io _ rfl hsent rfl (fun _ => rfl) h.direct h.room h.stored⟩
  | call => exact ⟨out, h.call⟩
  | choose => exact ⟨out, h.choose hok⟩
  | @poll s s' f c status hrun =>
      obtain ⟨hsent, io, rfl⟩ := sent_serialRegRead hrun
      split
      · exact ⟨out, h.stay _ rfl hsent⟩
      · exact ⟨out, h.quiet io _ rfl hsent rfl
            (fun hdisabled => nomatch (h.enabled rfl).symm.trans hdisabled)
          (fun _ => h.direct rfl) (fun hw => nomatch hw) (fun _ hw => nomatch hw)⟩
  | @write s s' f c hrun =>
      obtain ⟨hsent, io, rfl⟩ := sent_data hrun
      have henabled := h.enabled rfl
      have hempty := h.direct rfl
      have conserved := h.conserved henabled
      rw [ring_eq_nil hempty, List.append_nil] at conserved
      exact ⟨out ++ [c], h.sends hsent henabled hempty
        (by rw [← conserved]; exact List.append_nil _) rfl rfl (fun _ hw => nomatch hw)⟩
  | @check s f c =>
      cases hfull : s.full with
      | true => exact ⟨out, h.stay s.io rfl rfl⟩
      | false =>
          exact ⟨out, h.quiet s.io s.buffered rfl rfl rfl
            (fun hdisabled => nomatch (h.enabled rfl).symm.trans hdisabled)
            (fun hw => nomatch hw) (fun _ => full_eq_false hfull) (fun _ hw => nomatch hw)⟩
  | store => exact ⟨out, h.store⟩
  | publish => exact ⟨out, h.publish⟩
  | @enable s s' f hrun =>
      obtain ⟨hsent, io, rfl⟩ := sent_serialRegWrite (by decide) hrun
      exact ⟨out, h.quiet io _ rfl hsent rfl (fun _ => rfl) (fun hw => nomatch hw)
        (fun hw => nomatch hw) (fun _ hw => nomatch hw)⟩

/-- While no character overtakes another, the bytes sent are a prefix of the characters
put. -/
theorem putc_in_order [Bus δ] {s₀ : Serial δ} {flag : Bool} (init : Fresh s₀)
    (run : Run (Guarded NoOvertaking Step) ⟨s₀, flag, .idle⟩ ls t) : InOrder s₀ ls t := by
  have start : Inv (Serial.sent s₀) [] [] ⟨s₀, flag, .idle⟩ := by
    refine ⟨(List.append_nil _).symm, ⟨?_, init.tail⟩, fun _ => ?_, fun _ => ⟨rfl, init.empty, rfl⟩,
      (fun hw => nomatch hw), (fun hw => nomatch hw), (fun _ hw => nomatch hw)⟩
    · show s₀.bufHead.toNat < 1024
      rw [init.empty]
      exact init.tail
    · rw [ring_eq_nil init.empty]
      rfl
  obtain ⟨out, h⟩ := run.invariant (I := fun ls t => ∃ out, Inv (Serial.sent s₀) out ls t)
    ⟨[], start⟩ fun _ _ _ _ ⟨_, h⟩ ⟨hok, hstep⟩ => h.step hok hstep
  refine ⟨out, h.sent, ?_⟩
  by_cases henabled : t.serial.enabled = true
  · rw [← h.conserved henabled, List.append_assoc]
    exact List.prefix_append _ _
  · rw [(h.silent (Bool.eq_false_iff.mpr henabled)).1]
    exact List.nil_prefix

end Steps

/-! ### The code runs these steps -/

section Code

variable [Bus δ] {s s' : Serial δ} {flag : Bool} {c : U8} {b b' : Console δ}

/-- Polled output, not interrupted. -/
theorem serialWriteUnbuffered_run (h : (serialWriteUnbuffered c).Returns s () s') :
    ∃ ls, Run Step ⟨s, flag, .direct c⟩ ls ⟨s', flag, .idle⟩ ∧ put ls = [] := by
  obtain ⟨⟨⟩, s₁, hwait, hdata⟩ := returns_bind.mp h
  obtain ⟨⟨⟩, s₂, ⟨ls, run, hls⟩, hlast⟩ := hwait.loop_induct
    (I := fun _ t => ∃ ls, Run Step ⟨s, flag, .direct c⟩ ls ⟨t, flag, .direct c⟩ ∧ put ls = [])
    (by
      rintro ⟨⟩ t ⟨⟩ u ⟨ls, run, hls⟩ hpass
      obtain ⟨status, v, hread, hpass⟩ := returns_bind.mp hpass
      have poll := Step.poll (f := flag) (c := c) hread
      split at hpass
      · rename_i hbusy
        obtain ⟨-, rfl⟩ := returns_pure.mp hpass
        rw [if_pos hbusy] at poll
        exact ⟨_, run.snoc poll, by rw [put_snoc rfl, hls]⟩
      · cases (returns_pure.mp hpass).1)
    ⟨[], .nil, rfl⟩
  obtain ⟨status, v, hread, hpass⟩ := returns_bind.mp hlast
  have poll := Step.poll (f := flag) (c := c) hread
  split at hpass
  · cases (returns_pure.mp hpass).1
  · rename_i hfree
    obtain ⟨-, rfl⟩ := returns_pure.mp hpass
    rw [if_neg hfree] at poll
    exact ⟨_, (run.snoc poll).snoc (.write hdata), by rw [put_snoc rfl, put_snoc rfl, hls]⟩

/-- The steps of queued output, not interrupted. None of them overtakes. -/
theorem queued_run (hb : s.buffered = true) (h : (serialWrite c).Returns s () s') :
    Run (Guarded NoOvertaking Step) ⟨s, flag, .wait c⟩ [.check, .store, .publish, .enable]
      ⟨s', flag, .idle⟩ := by
  obtain ⟨hfull, henable⟩ := serialWrite_buffered hb h
  have check : Step ⟨s, flag, .wait c⟩ .check _ := .check
  rw [if_neg (by simp [hfull])] at check
  have checked : Guarded NoOvertaking Step ⟨s, flag, .wait c⟩ .check ⟨s, flag, .store c⟩ :=
    ⟨trivial, check⟩
  have store : Guarded NoOvertaking Step ⟨s, flag, .store c⟩ .store
    ⟨s.store c, flag, .publish c⟩ := ⟨trivial, .store⟩
  have publish : Guarded NoOvertaking Step ⟨s.store c, flag, .publish c⟩ .publish
    ⟨(s.store c).publish, flag, .enable⟩ := ⟨trivial, .publish⟩
  have enable : Guarded NoOvertaking Step ⟨(s.store c).publish, flag, .enable⟩ .enable
    ⟨s', flag, .idle⟩ := ⟨trivial, .enable henable⟩
  exact (((Run.nil.snoc checked).snoc store).snoc publish).snoc enable

/-- Queued output, not interrupted. -/
theorem serialWrite_buffered_run (hb : s.buffered = true) (h : (serialWrite c).Returns s () s') :
    ∃ ls, Run Step ⟨s, flag, .wait c⟩ ls ⟨s', flag, .idle⟩ ∧ put ls = [] := by
  exact ⟨_, (queued_run hb h).mono fun _ _ _ hstep => hstep.2, rfl⟩

/-- The serial part of `putc`, not interrupted. -/
theorem putcSerial_run (h : (putcSerial flag c).Returns s () s') :
    ∃ ls, Run Step ⟨s, flag, .screen c⟩ ls ⟨s', flag, .idle⟩ ∧ put ls = [] := by
  simp only [putcSerial, returns_bind, returns_gets, returns_when] at h
  obtain ⟨_, _, ⟨rfl, rfl⟩, h⟩ := h
  rename_i t
  have choose : Step ⟨t, flag, .screen c⟩ .choose _ := .choose
  rw [path] at choose
  split at h
  · rename_i henabled
    rw [if_pos henabled] at choose
    split at choose
    · rename_i hpath
      obtain ⟨hflag, hb⟩ := Bool.and_eq_true_iff.mp hpath
      rw [if_pos hflag] at h
      obtain ⟨ls, run, hls⟩ := serialWrite_buffered_run hb h
      exact ⟨_, run.cons choose, hls⟩
    · rename_i hpath
      have hdirect : (serialWriteUnbuffered c).Returns t () s' := by
        split at h
        · rename_i hflag
          have hb : t.buffered = false := by simpa [hflag] using hpath
          simpa [serialWrite, hb] using h
        · exact h
      obtain ⟨ls, run, hls⟩ := serialWriteUnbuffered_run hdirect
      exact ⟨_, run.cons choose, hls⟩
  · rename_i henabled
    rw [if_neg henabled] at choose
    subst h
    exact ⟨_, Run.nil.snoc choose, rfl⟩

/-- The screen part of `putc` sends nothing. -/
theorem writesTo_vgaPutChar {v v' : Vga δ} (h : (vgaPutChar c).Returns v () v') :
    writesTo (serialPort + serialDataRegister) v'.io.log =
      writesTo (serialPort + serialDataRegister) v.io.log := by
  simp only [vgaPutChar, vgaSetCursor, returns_bind, returns_modify, returns_get, returns_zoom,
    returns_outb] at h
  obtain ⟨_, _, rfl, _, _, rfl, _, _, rfl, _, _, ⟨rfl, rfl⟩, _, _, rfl, _,
    ⟨_, _, rfl, _, _, rfl, _, _, rfl, rfl⟩, rfl⟩ := h
  simp [Vga.ioLens, writesTo, PortEvent.writtenTo, serialPort, serialDataRegister]

/-- A call of `putc`, not interrupted. -/
theorem putc_run (h : (putc flag c).Returns b () b') :
    ∃ ls, Run Step ⟨b.serial, flag, .idle⟩ ls ⟨b'.serial, flag, .idle⟩ ∧ put ls = [c] := by
  simp only [putc, returns_bind, returns_gets, returns_when, returns_zoom] at h
  obtain ⟨_, _, ⟨rfl, rfl⟩, ⟨⟩, b₁, hscreen, s, hserial, rfl⟩ := h
  rename_i b₀
  obtain ⟨ls, run, hls⟩ := putcSerial_run hserial
  have hother : sent b₁.serial = sent b₀.serial ∧
      ∃ io, b₁.serial = { b₀.serial with io := io } := by
    split at hscreen
    · obtain ⟨v, hv, rfl⟩ := hscreen
      exact ⟨writesTo_vgaPutChar hv, v.io, rfl⟩
    · subst hscreen
      exact ⟨rfl, b₁.serial.io, rfl⟩
  obtain ⟨hsent, io, hio⟩ := hother
  rw [hio] at hsent
  have other : Step ⟨b₀.serial, flag, .screen c⟩ .other ⟨b₁.serial, flag, .screen c⟩ := by
    rw [hio]
    exact .other hsent
  refine ⟨_, (run.cons other).cons .call, ?_⟩
  exact congrArg (c :: ·) hls

end Code

/-! ### Two characters -/

/-- The static variables once the port is found, in buffered mode. -/
def buffering : Serial ReadyLine := ⟨⟨⟨⟩, []⟩, true, true, fun _ => 0, 0, 0⟩

theorem fresh_buffering : Fresh buffering := ⟨rfl, by decide⟩

/-- `serial_init` leaves an empty ring empty. -/
theorem fresh_serialInit {δ : Type} [Bus δ] {s s' : Serial δ} {baudrate : U32} {found : Bool}
    (h : Fresh s)
    (hinit : (serialInit baudrate).Returns s found s') : Fresh s' := by
  obtain ⟨⟨-, hhead, htail⟩, -⟩ := (serialInit_total baudrate).returns hinit
  exact ⟨hhead.trans (h.empty.trans htail.symm), htail ▸ h.tail⟩

/-- A `putc` with the flag on in buffered mode. -/
theorem putc_queued {δ : Type} [Bus δ] {s s' : Serial δ} {c : U8} (henabled : s.enabled = true)
    (hb : s.buffered = true) (h : (serialWrite c).Returns s () s') :
    Run (Guarded NoOvertaking Step) ⟨s, true, .idle⟩
      [.call c, .choose, .check, .store, .publish, .enable] ⟨s', true, .idle⟩ := by
  have call : Guarded NoOvertaking Step ⟨s, true, .idle⟩ (.call c) ⟨s, true, .screen c⟩ :=
    ⟨trivial, .call⟩
  have choose : Step ⟨s, true, .screen c⟩ .choose _ := .choose
  rw [path, if_pos henabled, if_pos (by simp [hb])] at choose
  have chosen : Guarded NoOvertaking Step ⟨s, true, .screen c⟩ .choose ⟨s, true, .wait c⟩ :=
    ⟨fun _ hdirect => absurd ⟨rfl, hb⟩ hdirect, choose⟩
  exact ((queued_run hb h).cons chosen).cons call

/-- Two characters are put after `serial_init`, and the handler sends the first of them while the
second is in the ring. -/
theorem putc_in_order_two :
    ∃ s₀ t, (serialInit 115200).Returns boot true s₀ ∧ sent t.serial = sent s₀ ++ [0x41] ∧
      InOrder s₀ [.setBuffered true, .call 0x41, .choose, .check, .store, .publish, .enable,
        .call 0x42, .choose, .check, .store, .publish, .enable, .transmit] t := by
  obtain ⟨s₀, hinit, s₁, hset, henabled₁, hb₁, s₂, hfirst, henabled₂, hb₂, s₃, hsecond, s₄,
      hhandler, hsent⟩ :
      ∃ s₀, (serialInit 115200).Returns boot true s₀ ∧
        ∃ s₁, (serialSetBuffered true).Returns s₀ () s₁ ∧ s₁.enabled = true ∧ s₁.buffered = true ∧
          ∃ s₂, (serialWrite 0x41).Returns s₁ () s₂ ∧ s₂.enabled = true ∧ s₂.buffered = true ∧
            ∃ s₃, (serialWrite 0x42).Returns s₂ () s₃ ∧
              ∃ s₄, serialWriteAvailableHandler.Returns s₃ () s₄ ∧ sent s₄ = sent s₀ ++ [0x41] :=
    ⟨_, ⟨1, rfl⟩, _, ⟨1, rfl⟩, rfl, rfl, _, ⟨1, rfl⟩, rfl, rfl, _, ⟨1, rfl⟩, _, ⟨1, rfl⟩, rfl⟩
  have buffered : Guarded NoOvertaking Step ⟨s₀, true, .idle⟩ (.setBuffered true)
      ⟨s₁, true, .idle⟩ := ⟨trivial, .setBuffered hset⟩
  have puts := (putc_queued henabled₁ hb₁ hfirst).trans (putc_queued henabled₂ hb₂ hsecond)
  have transmit : Guarded NoOvertaking Step ⟨s₃, true, .idle⟩ .transmit ⟨s₄, true, .idle⟩ :=
    ⟨trivial, .transmit hhandler⟩
  have fresh : Fresh boot := ⟨rfl, by decide⟩
  exact ⟨s₀, _, hinit, hsent, putc_in_order (fresh_serialInit fresh hinit)
    ((puts.snoc transmit).cons buffered)⟩

/-- A character is put with the flag on, then one with the flag off: the second goes
out first. -/
theorem putc_in_order_fails :
    ¬ ∀ (s₀ : Serial ReadyLine) (flag : Bool) (ls : List Label) (t : System ReadyLine),
      Fresh s₀ → Run Step ⟨s₀, flag, .idle⟩ ls t → InOrder s₀ ls t := by
  intro h
  obtain ⟨s₁, hfirst, s₂, hsecond, hsent⟩ : ∃ s₁, (putcSerial true 0x41).Returns buffering () s₁ ∧
      ∃ s₂, (putcSerial false 0x42).Returns s₁ () s₂ ∧ sent s₂ = [0x42] :=
    ⟨_, ⟨1, rfl⟩, _, ⟨1, rfl⟩, rfl⟩
  obtain ⟨ls₁, run₁, hls₁⟩ := putcSerial_run hfirst
  obtain ⟨ls₂, run₂, hls₂⟩ := putcSerial_run hsecond
  have switched : Step ⟨s₁, true, .idle⟩ (.setFlag false) ⟨s₁, false, .idle⟩ := .setFlag
  have run := (run₁.cons .call).trans ((run₂.cons .call).cons switched)
  obtain ⟨out, hout, hprefix⟩ := h _ _ _ _ fresh_buffering run
  have hput : put (.call 0x41 :: ls₁ ++ .setFlag false :: .call 0x42 :: ls₂) = [0x41, 0x42] := by
    rw [put_append]
    simp [put, hls₁, hls₂]
  rw [hput] at hprefix
  obtain rfl : out = [0x42] := (hout.symm.trans hsent)
  exact absurd hprefix (by decide)

end MyBios.Putc
