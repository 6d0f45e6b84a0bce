import MyBios.X86.Cpu

/-!
Real-mode interrupts in 32-bit code: `interrupt.asm` and
`itr_real_mode_interrupt`.

A stub pushes its vector and goes to `trampoline_to_32`, which leaves `gs` and
`ebp` on the caller's stack, saves `SS:ESP` at the bottom of the interrupt
stack, pushes the other registers at its top and enters 32-bit code. The C
function completes the frame, with a second copy of six values taken from the
caller's stack, calls the handler, and writes the copy back. The way out pops the
registers and ends with `iret`.

* `enter_spec`: what is on the two stacks when the C function is called.
* `itrRealModeInterrupt_spec`: what is there when it returns.
* `restoreRegisters_spec`, `restoreCaller_spec`: the registers after `iret` are
  those values.
-/

namespace MyBios

open Slots

/-! ### The way in -/

/-- INT, as far as the stack is concerned. -/
def interrupt (c : Cpu) : Cpu := c.pushAll [.half c.flags, .half c.cs, .half c.ip]

/-- The stub of a vector. -/
def interruptHandler (vector : U16) (c : Cpu) : Cpu := c.push (.half vector)

/-- The part of `trampoline_to_32` that leaves the caller's stack. The segment
`0x9C00` is the interrupt stack, with `SS:ESP` and a sentinel at its bottom and
room for 18 bytes at its top. -/
def switchStack (c : Cpu) : Cpu :=
  let c := { c with ebp := 0x9C00 }
  let c := { c with gs := lo16 c.ebp }
  let c := { c with mem := c.mem.write32 (linear c.gs 0) c.esp }
  let c := { c with mem := c.mem.write16 (linear c.gs 4) c.ss }
  let c := { c with mem := c.mem.write32 (linear c.gs 8) 0x12345678 }
  let c := { c with ss := lo16 c.ebp }
  let c := c.setSp 0x1000
  c.setSp (c.sp - 18)

/-- The registers that go on the interrupt stack, in the order of the pushes. -/
def savedRegisters (c : Cpu) : List Slot :=
  [.word c.eax, .word c.ebx, .word c.ecx, .word c.edx, .word c.esi, .word c.edi, .half c.ds,
    .half c.es, .half c.fs]

/-- `trampoline_to_32`, to the jump that enters 32-bit code at `ret`. -/
def trampolineTo32 (ret : U32) (c : Cpu) : Cpu :=
  let c := c.pushAll [.half c.gs, .word c.ebp]
  let c := switchStack c
  let c := c.pushAll (savedRegisters c)
  protect { c with eax := ret }

/-! ### The C function -/

namespace ItrFrameRealMode

/-- The packed layout of the struct. -/
def slots (f : ItrFrameRealMode) : List Slot :=
  [.half f.fs, .half f.es, .half f.ds, .word f.edi, .word f.esi, .word f.edx, .word f.ecx,
    .word f.ebx, .word f.eax, .word f.esp, .word f.ebp, .half f.ss, .half f.gs, .half f.ip,
    .half f.cs, .half f.flags]

/-- The struct at `a`. -/
def load (m : ByteMem) (a : Nat) : ItrFrameRealMode where
  fs := m.read16 a
  es := m.read16 (a + 2)
  ds := m.read16 (a + 4)
  edi := m.read32 (a + 6)
  esi := m.read32 (a + 10)
  edx := m.read32 (a + 14)
  ecx := m.read32 (a + 18)
  ebx := m.read32 (a + 22)
  eax := m.read32 (a + 26)
  esp := m.read32 (a + 30)
  ebp := m.read32 (a + 34)
  ss := m.read16 (a + 38)
  gs := m.read16 (a + 40)
  ip := m.read16 (a + 42)
  cs := m.read16 (a + 44)
  flags := m.read16 (a + 46)

def store (f : ItrFrameRealMode) (m : ByteMem) (a : Nat) : ByteMem := writeSlots m a f.slots

end ItrFrameRealMode

/-- A handler changes the frame and memory. The frame is passed by value: the
memory it returns matters outside the frame only. -/
abbrev ItrHandlerRealMode := U8 → ItrFrameRealMode → ByteMem → ItrFrameRealMode × ByteMem

/-- Run the handler of a vector. Without one, an exception (below `0x10`) halts
and another vector is reported. -/
def dispatch (handlers : U16 → Option ItrHandlerRealMode) (vector : U16) (f : ItrFrameRealMode)
    (m : ByteMem) : Option (ItrFrameRealMode × ByteMem) :=
  match handlers vector with
  | some handler => some (handler (vector.setWidth 8) f m)
  | none => if vector < 0x10 then none else some (f, m)

/-- `(ss << 4) + (esp & 0xFFFF)`. -/
def prevStack (m : ByteMem) : Nat :=
  (((m.read16 0x9C004).setWidth 32 <<< 4) + (m.read32 0x9C000 &&& 0xFFFF) : U32).toNat

/-- The frame that the handler gets: the pushed registers at `frame`, and the
values on the caller's stack. Of `ebp` the low half is kept. -/
def completeFrame (m : ByteMem) (frame : Nat) : ItrFrameRealMode :=
  let f := ItrFrameRealMode.load m frame
  let f := { f with esp := m.read32 0x9C000 }
  let f := { f with ss := m.read16 0x9C004 }
  let f := { f with ebp := m.read32 (prevStack m) }
  let f := { f with gs := m.read16 (prevStack m + 4) }
  let f := { f with ip := m.read16 (prevStack m + 8) }
  let f := { f with cs := m.read16 (prevStack m + 10) }
  let f := { f with flags := m.read16 (prevStack m + 12) }
  if f.ebp &&& 0xFFFF0000 ≠ 0 then { f with ebp := f.ebp &&& 0xFFFF } else f

/-- Copy the registers back to the caller's stack. -/
def writeBack (prev : Nat) (f : ItrFrameRealMode) (m : ByteMem) : ByteMem :=
  let m := m.write32 prev f.ebp
  let m := m.write16 (prev + 4) f.gs
  let m := m.write16 (prev + 8) f.ip
  let m := m.write16 (prev + 10) f.cs
  m.write16 (prev + 12) f.flags

/-- `itr_real_mode_interrupt`. Its `_frame` is its caller's ESP: CALL pushes 4
bytes and the function saves EBP. Its own stack below that is not modelled. -/
def itrRealModeInterrupt (handlers : U16 → Option ItrHandlerRealMode) (frame : Nat)
    (m : ByteMem) : Option ByteMem :=
  let prev := prevStack m
  let f := completeFrame m frame
  match dispatch handlers (m.read16 (prev + 6)) f (f.store m frame) with
  | none => none
  | some (f, m) => some (writeBack prev f (f.store m frame))

/-! ### The way out -/

/-- `._16_prot`: back to real mode. -/
def leave32 (c : Cpu) : Cpu :=
  let c := { c with eax := c.cr0 }
  let c := { c with eax := c.eax &&& 0xFFFFFFFE }
  let c := { c with cr0 := c.eax }
  let c := { c with eax := setLo16 c.eax 0 }
  { c with
    ds := lo16 c.eax
    es := lo16 c.eax
    fs := lo16 c.eax
    gs := lo16 c.eax
    ss := lo16 c.eax }

/-- The registers on the interrupt stack. -/
def restoreRegisters (c : Cpu) : Cpu :=
  let c := { c with eax := setLo16 c.eax 0x9C00 }
  let c := { c with gs := lo16 c.eax }
  let c := { c with ss := lo16 c.eax }
  let c := { c with eax := c.eax <<< 4 }
  let c := { c with esp := c.esp - c.eax }
  let c := c.pop16 fun c v => { c with fs := v }
  let c := c.pop16 fun c v => { c with es := v }
  let c := c.pop16 fun c v => { c with ds := v }
  let c := c.pop32 fun c v => { c with edi := v }
  let c := c.pop32 fun c v => { c with esi := v }
  let c := c.pop32 fun c v => { c with edx := v }
  let c := c.pop32 fun c v => { c with ecx := v }
  let c := c.pop32 fun c v => { c with ebx := v }
  c.pop32 fun c v => { c with eax := v }

/-- The caller's stack: `ebp`, `gs`, the vector, and what INT pushed. -/
def restoreCaller (c : Cpu) : Cpu :=
  let c := { c with esp := c.mem.read32 (linear c.gs 0) }
  let c := { c with ss := c.mem.read16 (linear c.gs 4) }
  let c := c.pop32 fun c v => { c with ebp := v }
  let c := c.pop16 fun c v => { c with gs := v }
  let c := c.setSp (c.sp + 2)
  -- `iret`
  let c := c.pop16 fun c v => { c with ip := v }
  let c := c.pop16 fun c v => { c with cs := v }
  c.pop16 fun c v => { c with flags := v }

/-- INT through the stub of `vector`, to the `iret`. It halts if the handler does,
or if the sentinel is gone. -/
def realModeInterrupt (handlers : U16 → Option ItrHandlerRealMode) (ret : U32) (vector : U16)
    (c : Cpu) : Option Cpu :=
  let c := trampolineTo32 ret (interruptHandler vector (interrupt c))
  match itrRealModeInterrupt handlers c.esp.toNat c.mem with
  | none => none
  | some m =>
    if m.read32 0x9C008 = 0x12345678 then
      some (restoreCaller (restoreRegisters (leave32 { c with mem := m })))
    else none

/-! ### What is on the two stacks -/

/-- The registers that are pushed on the interrupt stack. -/
def registerSlots (f : ItrFrameRealMode) : List Slot :=
  [.half f.fs, .half f.es, .half f.ds, .word f.edi, .word f.esi, .word f.edx, .word f.ecx,
    .word f.ebx, .word f.eax]

/-- The 14 bytes on the caller's stack. -/
def callerSlots (vector : U16) (f : ItrFrameRealMode) : List Slot :=
  [.word f.ebp, .half f.gs, .half vector, .half f.ip, .half f.cs, .half f.flags]

/-- The caller's stack is at `ss:esp`, and the two stacks have the registers of
`f` in their places. -/
structure Stacks (esp : U32) (ss vector : U16) (f : ItrFrameRealMode) (m : ByteMem) : Prop where
  saved : Holds m 0x9C000 [.word esp, .half ss]
  sentinel : Holds m 0x9C008 [.word 0x12345678]
  caller : Holds m (linear ss (lo16 esp)) (callerSlots vector f)
  registers : Holds m 0x9CFD0 (registerSlots f)

/-- The caller has 14 bytes of stack left, outside the interrupt stack. -/
structure CallerStack (c : Cpu) : Prop where
  room : 14 ≤ c.sp.toNat
  apart : c.stackTop ≤ 0x9C000 ∨ 0x9D000 ≤ c.stackTop - 14

/-- The registers of `c` as the trampoline saves them, with 14 bytes on the
caller's stack. -/
def Cpu.frame (c : Cpu) : ItrFrameRealMode where
  fs := c.fs
  es := c.es
  ds := c.ds
  edi := c.edi
  esi := c.esi
  edx := c.edx
  ecx := c.ecx
  ebx := c.ebx
  eax := c.eax
  esp := setLo16 c.esp (c.sp - 14)
  ebp := c.ebp
  ss := c.ss
  gs := c.gs
  ip := c.ip
  cs := c.cs
  flags := c.flags

section Enter

variable {c : Cpu}

/-- The caller's stack when it is left. -/
theorem callerStack_spec (vector : U16) (h : CallerStack c) :
    ∃ m, (interruptHandler vector (interrupt c)).pushAll [.half c.gs, .word c.ebp] =
        { c with esp := c.frame.esp, mem := m } ∧
      Holds m (c.stackTop - 14) (callerSlots vector c.frame) := by
  have hchain : (interruptHandler vector (interrupt c)).pushAll [.half c.gs, .word c.ebp] =
      c.pushAll [.half c.flags, .half c.cs, .half c.ip, .half vector, .half c.gs, .word c.ebp] := by
    simp only [interruptHandler, interrupt, Cpu.pushAll, List.foldl_cons, List.foldl_nil]
  have hsize : size [.half c.flags, .half c.cs, .half c.ip, .half vector, .half c.gs,
      .word c.ebp] = 14 := by simp only [size, Slot.size]
  have hfits : c.sp.toNat ≤ c.stackTop := Nat.le_add_left _ _
  have hroom := h.room
  refine ⟨_, by rw [hchain, Cpu.pushAll_spec _ (by omega), hsize]; rfl, ?_⟩
  rw [← hsize]
  exact holds_pushSlots _ (by omega) trivial

theorem switchStack_spec (d : Cpu) :
    switchStack d = { d with
      ebp := 0x9C00, gs := 0x9C00, ss := 0x9C00, esp := setLo16 d.esp 0xFEE
      mem := ((d.mem.write32 0x9C000 d.esp).write16 0x9C004 d.ss).write32 0x9C008 0x12345678 } := by
  have hsp : (0x1000 : U16) - 18 = 0xFEE := rfl
  simp only [switchStack, Cpu.setSp, Cpu.sp, lo16_setLo16, setLo16_setLo16, hsp]
  rfl

/-- `SS:ESP` and the sentinel, after the stores of `switchStack`. -/
theorem saved_stores (m : ByteMem) (esp : U32) (ss : U16) :
    Holds (((m.write32 0x9C000 esp).write16 0x9C004 ss).write32 0x9C008 0x12345678) 0x9C000
        [.word esp, .half ss] ∧
      Holds (((m.write32 0x9C000 esp).write16 0x9C004 ss).write32 0x9C008 0x12345678) 0x9C008
        [.word 0x12345678] := by
  simp (disch := omega) only [holds_word, holds_half, holds_nil, Nat.reduceAdd,
    ByteMem.read32_write32_disjoint, ByteMem.read32_write16_disjoint,
    ByteMem.read16_write32_disjoint, ByteMem.read32_write32_same, ByteMem.read16_write16_same,
    and_self]

/-- The pushes at `0x9C00:0x0FEE`. -/
theorem pushRegisters_spec {d : Cpu} (hss : d.ss = 0x9C00) (hsp : d.sp = 0xFEE) :
    ∃ m, d.pushAll (savedRegisters d) = { d with esp := setLo16 d.esp 0xFD0, mem := m } ∧
      Holds m 0x9CFD0 (savedRegisters d).reverse ∧
      ∀ x, x < 0x9CFD0 ∨ 0x9CFEE ≤ x → m x = d.mem x := by
  have htop : d.stackTop = 0x9CFEE := by rw [Cpu.stackTop, hss, hsp]; rfl
  have hsize : size (savedRegisters d) = 30 := by simp only [savedRegisters, size, Slot.size]
  have hsub : d.sp - BitVec.ofNat 16 30 = 0xFD0 := by rw [hsp]; rfl
  have hroom : size (savedRegisters d) ≤ d.sp.toNat := by rw [hsp, hsize]; decide
  have hholds := holds_pushSlots (m := d.mem) (a := d.stackTop) (savedRegisters d) (by omega)
    (holds_nil.mpr trivial)
  rw [htop, hsize, List.append_nil] at hholds
  refine ⟨_, by rw [Cpu.pushAll_spec _ hroom, hsize, hsub, htop], hholds, ?_⟩
  intro x hx
  exact pushSlots_other (by omega) (by omega)

/-- The stores of `switchStack` are below the registers, and apart from the
caller's stack. -/
theorem stacks_of_stores {esp : U32} {vector : U16} {m₁ m₃ : ByteMem}
    (hcaller : Holds m₁ (linear c.ss (lo16 esp)) (callerSlots vector c.frame))
    (hregisters : Holds m₃ 0x9CFD0 (savedRegisters c).reverse)
    (hother : ∀ x, x < 0x9CFD0 ∨ 0x9CFEE ≤ x → m₃ x =
      ((m₁.write32 0x9C000 esp).write16 0x9C004 c.ss).write32 0x9C008 0x12345678 x)
    (hapart : linear c.ss (lo16 esp) + 14 ≤ 0x9C000 ∨ 0x9D000 ≤ linear c.ss (lo16 esp)) :
    Stacks esp c.ss vector c.frame m₃ := by
  obtain ⟨hsaved, hsentinel⟩ := saved_stores m₁ esp c.ss
  refine
    { saved := hsaved.congr fun x _ hx => hother x (.inl ?_)
      sentinel := hsentinel.congr fun x _ hx => hother x (.inl ?_)
      caller := hcaller.congr fun x hlo hhi => ?_
      registers := hregisters }
  · have hx : x < 0x9C000 + 6 := hx
    omega
  · have hx : x < 0x9C008 + 4 := hx
    omega
  · have hhi : x < linear c.ss (lo16 esp) + 14 := hhi
    rw [hother x (by omega), ByteMem.write32_other (by omega), ByteMem.write16_other (by omega),
      ByteMem.write32_other (by omega)]

/-- When 32-bit code is entered, the stack is at `0x9C00:0x0FD0`, and the
registers at the INT are on the two stacks. -/
theorem trampolineTo32_spec (ret : U32) (vector : U16) (h : CallerStack c) :
    ∃ m, trampolineTo32 ret (interruptHandler vector (interrupt c)) = protect { c with
        eax := ret, ebp := 0x9C00, gs := 0x9C00, ss := 0x9C00
        esp := setLo16 c.frame.esp 0xFD0, mem := m } ∧
      Stacks c.frame.esp c.ss vector c.frame m := by
  have hroom := h.room
  have hbase : linear c.ss (lo16 c.frame.esp) = c.stackTop - 14 := by
    rw [Cpu.frame, lo16_setLo16]
    exact (linear_sub _ h.room).1
  have hfits : c.sp.toNat ≤ c.stackTop := Nat.le_add_left _ _
  have hgs : (interruptHandler vector (interrupt c)).gs = c.gs := by
    simp [interruptHandler, interrupt, Cpu.pushAll]
  have hebp : (interruptHandler vector (interrupt c)).ebp = c.ebp := by
    simp [interruptHandler, interrupt, Cpu.pushAll]
  obtain ⟨m₁, hcall, hcaller⟩ := callerStack_spec vector h
  rw [← hbase] at hcaller
  obtain ⟨m₃, hpush, hregisters, hother⟩ := pushRegisters_spec (d := { c with
    ebp := 0x9C00, gs := 0x9C00, ss := 0x9C00, esp := setLo16 c.frame.esp 0xFEE
    mem := ((m₁.write32 0x9C000 c.frame.esp).write16 0x9C004 c.ss).write32 0x9C008 0x12345678 })
    rfl (lo16_setLo16 _ _)
  refine ⟨m₃, ?_, stacks_of_stores hcaller hregisters hother ?_⟩
  · simp only [trampolineTo32, hgs, hebp, hcall, switchStack_spec, hpush, setLo16_setLo16]
  · rw [hbase]
    have := h.apart
    omega

/-- When the C function is called, its caller's ESP is `0x9CFD0`. -/
theorem enter_spec (ret : U32) (vector : U16) (h : CallerStack c) :
    ∃ d, trampolineTo32 ret (interruptHandler vector (interrupt c)) = d ∧
      d.esp.toNat = 0x9CFD0 ∧ d.ebx = ret ∧ Stacks c.frame.esp c.ss vector c.frame d.mem := by
  obtain ⟨m, henter, hs⟩ := trampolineTo32_spec ret vector h
  obtain ⟨hesp, hebx, -, -, -, -, hmem⟩ := protect_spec { c with
    eax := ret, ebp := 0x9C00, gs := 0x9C00, ss := 0x9C00
    esp := setLo16 c.frame.esp 0xFD0, mem := m }
  refine ⟨_, henter, ?_, hebx, by rw [hmem]; exact hs⟩
  rw [hesp, Cpu.stackTop, Cpu.sp, lo16_setLo16]
  rfl

end Enter

/-! ### What the C function does -/

section Handle

variable {esp : U32} {ss vector : U16} {f : ItrFrameRealMode} {m : ByteMem}

theorem prevStack_eq (hs : Stacks esp ss vector f m) : prevStack m = linear ss (lo16 esp) := by
  have hss := ss.isLt
  have hmask : (0xFFFF : U32).toNat = 2 ^ 16 - 1 := rfl
  have hesp : m.read32 0x9C000 = esp := hs.saved.1
  have hseg : m.read16 0x9C004 = ss := hs.saved.2.1
  rw [prevStack, hesp, hseg, BitVec.toNat_add, BitVec.toNat_and, hmask,
    Nat.and_two_pow_sub_one_eq_mod, BitVec.toNat_shiftLeft, BitVec.toNat_setWidth,
    Nat.shiftLeft_eq, linear, lo16, BitVec.extractLsb'_toNat, Nat.shiftRight_zero]
  omega

/-- Where the high half of `ebp` is 0, clearing it changes nothing. -/
theorem ebp_low {ebp : U32} (h : ebp &&& 0xFFFF0000 = 0) : ebp &&& 0xFFFF = ebp := by
  have hsplit : ebp = (ebp &&& 0xFFFF0000) ||| (ebp &&& 0xFFFF) := by
    rw [← BitVec.and_or_distrib_left]
    exact BitVec.and_allOnes.symm
  rw [h] at hsplit
  exact (hsplit.trans BitVec.zero_or).symm

/-- The frame that the handler gets. -/
def handlerFrame (esp : U32) (ss : U16) (f : ItrFrameRealMode) : ItrFrameRealMode :=
  { f with esp := esp, ss := ss, ebp := f.ebp &&& 0xFFFF }

theorem completeFrame_eq (hs : Stacks esp ss vector f m) :
    completeFrame m 0x9CFD0 = handlerFrame esp ss f := by
  have hregisters := hs.registers
  have hcaller := hs.caller
  have hsaved := hs.saved
  simp only [registerSlots, callerSlots, holds_half, holds_word, Nat.add_assoc, Nat.reduceAdd]
    at hregisters hcaller hsaved
  simp only [completeFrame, ItrFrameRealMode.load, prevStack_eq hs, hregisters, hcaller, hsaved,
    Nat.reduceAdd]
  split
  · rfl
  · rename_i hzero
    rw [handlerFrame, ebp_low (not_ne_iff.mp hzero)]

/-- The bytes that a handler has to leave alone: the bottom of the interrupt
stack, and the caller's 14 bytes. -/
def Kept (base : Nat) (m m' : ByteMem) : Prop :=
  ∀ x, (0x9C000 ≤ x ∧ x < 0x9C00C) ∨ (base ≤ x ∧ x < base + 14) → m' x = m x

theorem writeBack_other {prev x : Nat} (h : x < prev ∨ prev + 14 ≤ x) :
    writeBack prev f m x = m x := by
  rw [writeBack, ByteMem.write16_other (by omega), ByteMem.write16_other (by omega),
    ByteMem.write16_other (by omega), ByteMem.write16_other (by omega),
    ByteMem.write32_other (by omega)]

/-- The copy on the caller's stack; the vector is not written. -/
theorem holds_writeBack {prev : Nat} (h : m.read16 (prev + 6) = vector) :
    Holds (writeBack prev f m) prev (callerSlots vector f) := by
  simp only [callerSlots, holds_half, holds_word, holds_nil, Nat.add_assoc, Nat.reduceAdd]
  simp (disch := omega) only [writeBack, ByteMem.read32_write16_disjoint,
    ByteMem.read16_write16_disjoint, ByteMem.read16_write32_disjoint, ByteMem.read32_write32_same,
    ByteMem.read16_write16_same, h, and_self]

theorem slots_eq : f.slots = registerSlots f ++
    [.word f.esp, .word f.ebp, .half f.ss, .half f.gs, .half f.ip, .half f.cs, .half f.flags] := rfl

theorem store_other {x : Nat} (h : x < 0x9CFD0 ∨ 0x9D000 ≤ x) : f.store m 0x9CFD0 x = m x := by
  have hsize : size f.slots = 48 := by simp only [ItrFrameRealMode.slots, size, Slot.size]
  rw [ItrFrameRealMode.store, writeSlots_other (by omega)]

/-- When the C function returns, what the handler made of the frame is on the two
stacks. -/
theorem itrRealModeInterrupt_spec {handlers : U16 → Option ItrHandlerRealMode}
    {handler : ItrHandlerRealMode} (hs : Stacks esp ss vector f m)
    (hhandler : handlers vector = some handler)
    (hapart : linear ss (lo16 esp) + 14 ≤ 0x9C000 ∨ 0x9D000 ≤ linear ss (lo16 esp))
    {g : ItrFrameRealMode} {m' : ByteMem}
    (hrun : handler (vector.setWidth 8) (handlerFrame esp ss f)
      ((handlerFrame esp ss f).store m 0x9CFD0) = (g, m'))
    (hkept : Kept (linear ss (lo16 esp)) ((handlerFrame esp ss f).store m 0x9CFD0) m') :
    ∃ m'', itrRealModeInterrupt handlers 0x9CFD0 m = some m'' ∧ Stacks esp ss vector g m'' := by
  have hvector : m.read16 (linear ss (lo16 esp) + 6) = vector := hs.caller.2.2.1
  refine ⟨writeBack (linear ss (lo16 esp)) g (g.store m' 0x9CFD0), ?_, ?_⟩
  · rw [itrRealModeInterrupt, completeFrame_eq hs, prevStack_eq hs, hvector, dispatch, hhandler]
    simp only [hrun]
  -- outside the frame, memory is as the handler left it
  have hstored : ∀ x, (x < 0x9CFD0 ∨ 0x9D000 ≤ x) →
      (0x9C000 ≤ x ∧ x < 0x9C00C) ∨
        (linear ss (lo16 esp) ≤ x ∧ x < linear ss (lo16 esp) + 14) →
      g.store m' 0x9CFD0 x = m x := fun x hx hin => by
    rw [store_other hx, hkept x hin, store_other hx]
  have hlow : ∀ x, 0x9C000 ≤ x → x < 0x9C00C →
      writeBack (linear ss (lo16 esp)) g (g.store m' 0x9CFD0) x = m x := fun x hlo hhi => by
    rw [writeBack_other (by omega), hstored x (by omega) (by omega)]
  have hframe : Holds (g.store m' 0x9CFD0) 0x9CFD0 g.slots := holds_writeSlots
  rw [slots_eq, holds_append] at hframe
  have hsize : size (registerSlots g) = 30 := by simp only [registerSlots, size, Slot.size]
  exact
    { saved := hs.saved.congr fun x hlo (hhi : x < 0x9C000 + 6) => hlow x hlo (by omega)
      sentinel := hs.sentinel.congr fun x hlo (hhi : x < 0x9C008 + 4) =>
        hlow x (by omega) (by omega)
      caller := holds_writeBack (by
        rw [← hvector]
        exact ByteMem.read16_congr fun x _ _ => hstored x (by omega) (by omega))
      registers := hframe.1.congr fun x hlo hhi => writeBack_other (by omega) }

end Handle

/-! ### The registers on the way out -/

section Restore

variable {c : Cpu} {esp : U32} {ss vector : U16} {f : ItrFrameRealMode}

/-- `sub esp, eax` takes the base of the interrupt stack off, whatever the high
half of `eax` is. -/
theorem lo16_sub_base {r : U32} (hesp : esp.toNat = 0x9CFD0) :
    lo16 (esp - setLo16 r 0x9C00 <<< 4) = 0xFD0 := by
  have hlow : (setLo16 r 0x9C00).toNat % 2 ^ 16 = 0x9C00 := by
    have h := congrArg BitVec.toNat (lo16_setLo16 r 0x9C00)
    rwa [lo16, BitVec.extractLsb'_toNat, Nat.shiftRight_zero] at h
  apply BitVec.eq_of_toNat_eq
  rw [lo16, BitVec.extractLsb'_toNat, Nat.shiftRight_zero, BitVec.toNat_sub, BitVec.toNat_shiftLeft,
    Nat.shiftLeft_eq, hesp]
  show _ = 0xFD0
  omega

theorem restoreRegisters_spec (hesp : c.esp.toNat = 0x9CFD0)
    (hregisters : Holds c.mem 0x9CFD0 (registerSlots f)) :
    ∃ esp, restoreRegisters c = { c with
      fs := f.fs, es := f.es, ds := f.ds, edi := f.edi, esi := f.esi, edx := f.edx, ecx := f.ecx
      ebx := f.ebx, eax := f.eax, gs := 0x9C00, ss := 0x9C00, esp := esp } := by
  have hsp := lo16_sub_base (r := c.eax) hesp
  simp only [registerSlots, holds_half, holds_word, Nat.reduceAdd] at hregisters
  simp only [restoreRegisters, Cpu.pop16, Cpu.pop32, Cpu.setSp, Cpu.sp, Cpu.stackTop, lo16_setLo16,
    setLo16_setLo16, hsp, BitVec.reduceAdd, linear, BitVec.reduceToNat, Nat.reduceMul,
    Nat.reduceAdd, hregisters]
  exact ⟨_, rfl⟩

theorem restoreCaller_spec (hgs : c.gs = 0x9C00) (hs : Stacks esp ss vector f c.mem)
    (hroom : (lo16 esp).toNat + 14 < 2 ^ 16) :
    restoreCaller c = { c with
      ebp := f.ebp, gs := f.gs, ip := f.ip, cs := f.cs, flags := f.flags, ss := ss
      esp := setLo16 esp (lo16 esp + 14) } := by
  have htop : ∀ n ≤ 14, linear ss (lo16 esp + BitVec.ofNat 16 n) = linear ss (lo16 esp) + n :=
    fun n hn => (linear_add _ (by omega)).1
  have htop4 : linear ss (lo16 esp + 4) = linear ss (lo16 esp) + 4 := htop 4 (by omega)
  have hsaved := hs.saved
  have hcaller := hs.caller
  simp only [callerSlots, holds_half, holds_word, Nat.add_assoc, Nat.reduceAdd] at hcaller hsaved
  have hbase : linear 0x9C00 0 = 638976 ∧ linear 0x9C00 4 = 638980 := ⟨rfl, rfl⟩
  simp only [restoreCaller, Cpu.pop16, Cpu.pop32, Cpu.setSp, Cpu.sp, Cpu.stackTop, hgs, hbase,
    hsaved, lo16_setLo16, setLo16_setLo16, BitVec.add_assoc, BitVec.reduceAdd, hcaller,
    htop4, htop 8 (by omega), htop 10 (by omega), htop 12 (by omega)]
  rfl

end Restore

end MyBios
