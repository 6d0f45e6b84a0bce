import Mathlib.Logic.Function.Basic
import MyBios.Machine

/-!
The serial driver (`serial.c`): polled output, and output through a ring of
1024 bytes that an interrupt handler empties.

The static variables of the file are the fields of `Serial`. `buf` is indexed
by any number, because C checks no bound; `Indices` of the system module keeps
the indices inside.
-/

namespace MyBios

open Prog

def serialPort : U16 := 0x3F8

def serialDataRegister : U16 := 0
def serialInterruptEnableRegister : U16 := 1
def serialInterruptIdentificationRegister : U16 := 2
def serialLineControlRegister : U16 := 3
def serialModemControlRegister : U16 := 4
def serialLineStatusRegister : U16 := 5

/-- The ports and the static variables of `serial.c`. -/
structure Serial (δ : Type) where
  io : Ports δ
  buffered : Bool
  enabled : Bool
  buf : Nat → U8
  bufHead : U32
  bufTail : U32

def Serial.ioLens (δ : Type) : Lens (Serial δ) (Ports δ) where
  get := Serial.io
  set io s := { s with io := io }
  get_set _ _ := rfl
  set_get _ := rfl

variable {δ : Type} [Bus δ]

def serialRegWrite (reg : U16) (val : U8) : Prog (Serial δ) Unit :=
  zoom (Serial.ioLens δ) (outb (serialPort + reg) val)

def serialRegRead (reg : U16) : Prog (Serial δ) U8 :=
  zoom (Serial.ioLens δ) (inb (serialPort + reg))

@[simp] theorem returns_serialRegWrite {s t : Serial δ} {reg : U16} {val : U8} {u : Unit} :
    (serialRegWrite reg val).Returns s u t ↔
      t = { s with io := ⟨Bus.outb (serialPort + reg) val s.io.dev,
        s.io.log ++ [.outb (serialPort + reg) val]⟩ } := by
  simp [serialRegWrite, Serial.ioLens]

@[simp] theorem returns_serialRegRead {s t : Serial δ} {reg : U16} {v : U8} :
    (serialRegRead reg).Returns s v t ↔
      (Bus.inb (serialPort + reg) s.io.dev).1 = v ∧
        t = { s with io := ⟨(Bus.inb (serialPort + reg) s.io.dev).2,
          s.io.log ++ [.inb (serialPort + reg) v]⟩ } := by
  simp only [serialRegRead, returns_zoom, returns_inb, Serial.ioLens]
  constructor
  · rintro ⟨io, ⟨hv, rfl⟩, rfl⟩; exact ⟨hv, rfl⟩
  · rintro ⟨hv, rfl⟩; exact ⟨_, ⟨hv, rfl⟩, rfl⟩

/-- `serial_init`: whether there is a port. -/
def serialInit (baudrate : U32) : Prog (Serial δ) Bool := do
  serialRegWrite serialInterruptEnableRegister 0x00
  serialRegWrite serialLineControlRegister 0x80
  serialRegWrite serialLineControlRegister 0x00
  serialRegWrite serialInterruptEnableRegister 0x01
  let identification ← serialRegRead serialInterruptIdentificationRegister
  if identification = 0xFF then pure false
  else do
    modify fun s => { s with buffered := false }
    serialRegWrite serialLineControlRegister 0x80
    serialRegWrite serialDataRegister ((BitVec.sdiv 115200 baudrate).setWidth 8)
    serialRegWrite serialInterruptEnableRegister 0x00
    serialRegWrite serialLineControlRegister 0x03
    serialRegWrite serialModemControlRegister 0x0B
    modify fun s => { s with enabled := true }
    pure true

/-- `serial_write_unbuffered`. -/
def serialWriteUnbuffered (c : U8) : Prog (Serial δ) Unit := do
  loop (fun _ => do
    let status ← serialRegRead serialLineStatusRegister
    if status &&& 0x20 = 0 then pure (Pass.again ()) else pure (Pass.done ())) ()
  serialRegWrite serialDataRegister c

/-- `(i + 1) & (1024 - 1)`. -/
def nextSlot (i : U32) : U32 := (i + 1) &&& (1024 - 1)

/-- `serial_write_available_handler`; the last write ends the interrupt. -/
def serialWriteAvailableHandler : Prog (Serial δ) Unit := do
  let s ← get
  when s.buffered do
    if s.bufHead ≠ s.bufTail then do
      let status ← serialRegRead serialLineStatusRegister
      when (status &&& 0x20 ≠ 0) do
        serialRegWrite serialDataRegister (s.buf s.bufTail.toNat)
        modify fun s => { s with bufTail := nextSlot s.bufTail }
    else serialRegWrite serialInterruptEnableRegister 0x00
  zoom (Serial.ioLens δ) (outb 0x20 0x20)

/-- `serial_set_buffered`, but for the registration of the handler. -/
def serialSetBuffered (b : Bool) : Prog (Serial δ) Unit := do
  modify fun s => { s with buffered := b }
  if b then serialRegWrite serialInterruptEnableRegister 0x02
  else serialRegWrite serialInterruptEnableRegister 0x00

/-- `((buf_head + 1) & (1024 - 1)) == buf_tail`. -/
def Serial.full (s : Serial δ) : Bool := nextSlot s.bufHead = s.bufTail

/-- `buf[buf_head] = c`. -/
def Serial.store (c : U8) (s : Serial δ) : Serial δ :=
  { s with buf := Function.update s.buf s.bufHead.toNat c }

/-- `buf_head = (buf_head + 1) & (1024 - 1)`. -/
def Serial.publish (s : Serial δ) : Serial δ := { s with bufHead := nextSlot s.bufHead }

/-- `serial_write`. -/
def serialWrite (c : U8) : Prog (Serial δ) Unit := do
  let buffered ← gets Serial.buffered
  if !buffered then serialWriteUnbuffered c
  else do
    loop (fun _ => do
      let full ← gets Serial.full
      if full then pure (Pass.again ()) else pure (Pass.done ())) ()
    modify (Serial.store c)
    modify Serial.publish
    serialRegWrite serialInterruptEnableRegister 0x02

end MyBios
