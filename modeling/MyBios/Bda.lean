import MyBios.Machine

/-!
The BIOS data area (`bda.h`): a packed struct that the linker puts at `0x400`.

`BdaField` lists its members in declaration order, with their sizes; offsets
are computed from the sizes as the packed layout does, and `check_offsets` is
the table of `CHECK_OFFSET` assertions of the source. The accessors below read
and write single members in memory. `storeKeyboardBuffer` has no bound check,
because a C array store has none: an index past the 32 bytes of the array
lands on the members behind it.
-/

namespace MyBios

/-- The members of `struct bda`, in declaration order. -/
inductive BdaField where
  | com1Io | com2Io | com3Io | com4Io | lpt1Io | lpt2Io | lpt3Io
  | ebdaBase | equipment | pad1 | memoryKb | pad2
  | keyboardFlagsXt | keyboardFlagsAt | pad3
  | keyboardBufferHeadOffset | keyboardBufferTailOffset | keyboardBuffer | pad4
  | displayMode | displayColumns | pad5 | displayIo | pad6
  | irq0Counter | flag24hr | biosBreakKeyFlag | softResetFlag | lastHddOp | numHdd | pad7
  | keyboardBufferHead | keyboardBufferTail | pad8 | lastKeyboard
  deriving DecidableEq, Repr

namespace BdaField

def all : List BdaField :=
  [com1Io, com2Io, com3Io, com4Io, lpt1Io, lpt2Io, lpt3Io, ebdaBase, equipment, pad1, memoryKb,
    pad2, keyboardFlagsXt, keyboardFlagsAt, pad3, keyboardBufferHeadOffset,
    keyboardBufferTailOffset, keyboardBuffer, pad4, displayMode, displayColumns, pad5, displayIo,
    pad6, irq0Counter, flag24hr, biosBreakKeyFlag, softResetFlag, lastHddOp, numHdd, pad7,
    keyboardBufferHead, keyboardBufferTail, pad8, lastKeyboard]

/-- Sizes in bytes; members not listed are `u16`. -/
def size : BdaField → Nat
  | keyboardFlagsXt | keyboardFlagsAt | displayMode | flag24hr | biosBreakKeyFlag | lastHddOp
  | numHdd | lastKeyboard | pad1 | pad3 => 1
  | irq0Counter => 4
  | keyboardBuffer => 32
  | pad2 => 2
  | pad4 => 11
  | pad5 => 23
  | pad6 => 7
  | pad7 => 10
  | pad8 => 19
  | _ => 2

def offset (f : BdaField) : Nat := ((all.takeWhile (· ≠ f)).map size).sum

def addr (f : BdaField) : Nat := 0x400 + f.offset

theorem mem_all (f : BdaField) : f ∈ all := by
  cases f <;> decide

/-- The `CHECK_OFFSET` table. -/
def checkedOffsets : List (BdaField × Nat) :=
  [(com1Io, 0x400), (com2Io, 0x402), (com3Io, 0x404), (com4Io, 0x406), (lpt1Io, 0x408),
    (lpt2Io, 0x40a), (lpt3Io, 0x40c), (ebdaBase, 0x40e), (equipment, 0x410), (memoryKb, 0x413),
    (keyboardFlagsXt, 0x417), (keyboardFlagsAt, 0x418), (keyboardBufferHeadOffset, 0x41a),
    (keyboardBufferTailOffset, 0x41c), (keyboardBuffer, 0x41e), (displayMode, 0x449),
    (displayColumns, 0x44a), (displayIo, 0x463), (irq0Counter, 0x46c), (flag24hr, 0x470),
    (biosBreakKeyFlag, 0x471), (softResetFlag, 0x472), (lastHddOp, 0x474), (numHdd, 0x475),
    (keyboardBufferHead, 0x480), (keyboardBufferTail, 0x482), (lastKeyboard, 0x497)]

/-- Every member the source checks sits at the address the source gives. -/
theorem check_offsets : ∀ c ∈ checkedOffsets, c.1.addr = c.2 := by
  decide

end BdaField

namespace Bda

open BdaField

/-! ### The keyboard members -/

def flagsXt (m : ByteMem) : U8 := m keyboardFlagsXt.addr

def flagsAt (m : ByteMem) : U8 := m keyboardFlagsAt.addr

def head (m : ByteMem) : U16 := m.read16 keyboardBufferHead.addr

def tail (m : ByteMem) : U16 := m.read16 keyboardBufferTail.addr

/-- `bda.keyboard_buffer[i]`, wherever that is. -/
def keyboardBufferAt (m : ByteMem) (i : U16) : U8 := m (keyboardBuffer.addr + i.toNat)

def setFlags (xt at_ : U8) (m : ByteMem) : ByteMem :=
  (m.write8 keyboardFlagsXt.addr xt).write8 keyboardFlagsAt.addr at_

def setHead (v : U16) (m : ByteMem) : ByteMem := m.write16 keyboardBufferHead.addr v

def setTail (v : U16) (m : ByteMem) : ByteMem := m.write16 keyboardBufferTail.addr v

def storeKeyboardBuffer (i : U16) (v : U8) (m : ByteMem) : ByteMem :=
  m.write8 (keyboardBuffer.addr + i.toNat) v

/-! ### The tick counter -/

def irq0Counter (m : ByteMem) : U32 := m.read32 BdaField.irq0Counter.addr

def setIrq0Counter (v : U32) (m : ByteMem) : ByteMem := m.write32 BdaField.irq0Counter.addr v

/-- `initRuntime` clears `0x100` bytes. -/
def clear (m : ByteMem) : ByteMem := fun a => if 0x400 ≤ a ∧ a < 0x500 then 0 else m a

@[simp] theorem irq0Counter_setIrq0Counter {m : ByteMem} {v : U32} :
    irq0Counter (setIrq0Counter v m) = v := ByteMem.read32_write32_same

@[simp] theorem irq0Counter_clear {m : ByteMem} : irq0Counter (clear m) = 0 := by
  have haddr : BdaField.irq0Counter.addr = 0x46c := rfl
  have hzeros : ∀ x, BdaField.irq0Counter.addr ≤ x → x < BdaField.irq0Counter.addr + 4 →
      clear m x = ByteMem.zeros x := by
    intro x hlow hhigh
    exact if_pos (by omega)
  exact (ByteMem.read32_congr hzeros).trans rfl

section Addresses

/-! The addresses as numerals, for `omega`. -/

theorem addr_flagsXt : keyboardFlagsXt.addr = 0x417 := rfl
theorem addr_flagsAt : keyboardFlagsAt.addr = 0x418 := rfl
theorem addr_buffer : keyboardBuffer.addr = 0x41e := rfl
theorem addr_head : keyboardBufferHead.addr = 0x480 := rfl
theorem addr_tail : keyboardBufferTail.addr = 0x482 := rfl

end Addresses

variable {m : ByteMem} {xt at_ v : U8} {i w : U16}

@[simp] theorem head_setFlags : head (setFlags xt at_ m) = head m := by
  rw [head, setFlags, ByteMem.read16_write8_disjoint (.inl (by decide)),
    ByteMem.read16_write8_disjoint (.inl (by decide)), head]

@[simp] theorem tail_setFlags : tail (setFlags xt at_ m) = tail m := by
  rw [tail, setFlags, ByteMem.read16_write8_disjoint (.inl (by decide)),
    ByteMem.read16_write8_disjoint (.inl (by decide)), tail]

@[simp] theorem head_setHead : head (setHead w m) = w := ByteMem.read16_write16_same

@[simp] theorem tail_setTail : tail (setTail w m) = w := ByteMem.read16_write16_same

@[simp] theorem tail_setHead : tail (setHead w m) = tail m :=
  ByteMem.read16_write16_disjoint (.inl (by decide))

@[simp] theorem head_setTail : head (setTail w m) = head m :=
  ByteMem.read16_write16_disjoint (.inr (by decide))

/-- The members between the array and the ring indices are `0x480 - 0x41e = 98`
bytes: up to there a store through the array leaves the indices alone. -/
theorem head_storeKeyboardBuffer (h : i.toNat < 98) :
    head (storeKeyboardBuffer i v m) = head m :=
  ByteMem.read16_write8_disjoint (.inl (by rw [addr_buffer, addr_head]; omega))

theorem tail_storeKeyboardBuffer (h : i.toNat < 98) :
    tail (storeKeyboardBuffer i v m) = tail m :=
  ByteMem.read16_write8_disjoint (.inl (by rw [addr_buffer, addr_tail]; omega))

end Bda

end MyBios
