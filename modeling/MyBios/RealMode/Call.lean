import MyBios.X86.Cpu

/-!
Calling real-mode code from 32-bit code: `call_real_mode_asm` (`util.c`) and
`call_real_mode.S`.

The inline assembly loads `params` into registers and onto the stack and calls
`call_real_mode`, which goes to real mode, makes a far call through the two
half-words on the stack, comes back through `protect`, and returns; the inline
assembly then stores the registers to `params`. Between the two halves runs the
routine, which can do anything but leave its caller's stack changed.

* `enterRoutine_spec`: the routine is entered with the registers of `params`.
* `return_address`: it comes back to behind the call.
* `realModeCall_spec`: what the fields are after the call. `protect` uses `ebx`
  for its jump, and the pushes are not in the order of the stores.
* `real_mode_call_iff`: so they are the registers that the routine left exactly
  if it left `bx = ret` (the low half) and `cx = dx`.
-/

namespace MyBios

open Slots

/-! ### The parameters -/

structure RealModeCallParams where
  segment : U16
  offset : U16
  ax : U16
  bx : U16
  cx : U16
  dx : U16
  si : U16
  di : U16
  deriving DecidableEq

/-- The struct at `a`. -/
def RealModeCallParams.load (m : ByteMem) (a : Nat) : RealModeCallParams where
  segment := m.read16 a
  offset := m.read16 (a + 2)
  ax := m.read16 (a + 4)
  bx := m.read16 (a + 6)
  cx := m.read16 (a + 8)
  dx := m.read16 (a + 10)
  si := m.read16 (a + 12)
  di := m.read16 (a + 14)

/-- The six registers that go in and come back. -/
structure CallRegisters where
  ax : U16
  bx : U16
  cx : U16
  dx : U16
  si : U16
  di : U16
  deriving DecidableEq

def RealModeCallParams.registers (p : RealModeCallParams) : CallRegisters :=
  ⟨p.ax, p.bx, p.cx, p.dx, p.si, p.di⟩

def Cpu.registers (c : Cpu) : CallRegisters :=
  ⟨lo16 c.eax, lo16 c.ebx, lo16 c.ecx, lo16 c.edx, lo16 c.esi, lo16 c.edi⟩

/-! ### Up to the routine -/

/-- The operands: `eax` points to `params`, since the other registers are
clobbered. -/
def callParams (c : Cpu) : RealModeCallParams := .load c.mem c.eax.toNat

/-- The inline assembly up to its call, which returns to `back`. -/
def callRealModeAsm (back : U32) (c : Cpu) : Cpu :=
  let c := { c with ebx := setLo16 c.ebx (callParams c).bx }
  let c := { c with ecx := setLo16 c.ecx (callParams c).cx }
  let c := { c with edx := setLo16 c.edx (callParams c).dx }
  let c := { c with esi := setLo16 c.esi (callParams c).si }
  let c := { c with edi := setLo16 c.edi (callParams c).di }
  let c := c.pushFlat (.word c.eax)
  let c := c.pushFlat (.half (callParams c).segment)
  let c := c.pushFlat (.half (callParams c).offset)
  let c := { c with eax := setLo16 c.eax (callParams c).ax }
  c.pushFlat (.word back)

/-- `call_real_mode` up to the far call: `16prot`, then `16call`. -/
def callRealMode (c : Cpu) : Cpu :=
  let c := c.pushFlat (.word c.eax)
  let c := { c with eax := c.cr0 }
  let c := { c with eax := c.eax &&& 0xFFFFFFFE }
  let c := { c with cr0 := c.eax }
  let c := { c with eax := setLo16 c.eax 0 }
  let c := { c with ds := lo16 c.eax, es := lo16 c.eax, ss := lo16 c.eax }
  let c := { c with cs := 0xF000 }
  let c := c.push (.half c.ds)
  let c := { c with eax := setLo16 c.eax 0xF000 }
  let c := { c with ds := lo16 c.eax }
  let c := c.pop16 fun c v => { c with ds := v }
  let c := c.pop32 fun c v => { c with eax := v }
  let c := c.push (.half (lo16 c.ebp))
  { c with ebp := setLo16 c.ebp c.sp }

/-- `call far [ss:bp+6]`, with `ip` the offset of the instruction behind it. -/
def callFar (ip : U16) (c : Cpu) : Cpu :=
  let offset := c.mem.read16 (linear c.ss (lo16 c.ebp + 6))
  let segment := c.mem.read16 (linear c.ss (lo16 c.ebp + 8))
  let c := c.pushAll [.half c.cs, .half ip]
  { c with cs := segment, ip := offset }

/-! ### After the routine -/

/-- From the routine's return to the `ret` of `call_real_mode`; the label in
front of that `ret` is at `ret`. -/
def returnToProtected (ret : U32) (c : Cpu) : Cpu :=
  let c := c.pop16 fun c v => { c with ebp := setLo16 c.ebp v }
  let c := c.push (.word c.eax)
  let c := { c with eax := ret }
  let c := protect c
  let c := { c with eax := c.mem.read32 c.esp.toNat, esp := c.esp + 4 }
  -- `ret`
  { c with esp := c.esp + 4 }

/-- `mov offset(%esp), %bx` and the store of `%bx` to the field of `params`. -/
def storeResult (offset field : Nat) (c : Cpu) : Cpu :=
  let c := { c with ebx := setLo16 c.ebx (c.mem.read16 (c.esp.toNat + offset)) }
  { c with mem := c.mem.write16 (c.eax.toNat + field) (lo16 c.ebx) }

/-- The inline assembly after its call: the registers go on the stack, and `eax`
gets `params` back. -/
def pushResults (c : Cpu) : Cpu :=
  let c := { c with esp := c.esp + 4 }
  let c := c.pushFlat (.half (lo16 c.eax))
  let c := { c with eax := c.mem.read32 (c.esp.toNat + 2) }
  c.pushAllFlat [.half (lo16 c.ebx), .half (lo16 c.edx), .half (lo16 c.ecx),
    .half (lo16 c.esi), .half (lo16 c.edi)]

/-- The fields are in the order `ax`, `bx`, `cx`, `dx`, `si`, `di`. -/
def storeResults (c : Cpu) : Cpu :=
  let c := storeResult 10 4 c
  let c := storeResult 8 6 c
  let c := storeResult 6 8 c
  let c := storeResult 4 10 c
  let c := storeResult 2 12 c
  let c := storeResult 0 14 c
  { c with esp := c.esp + 16 }

/-- `real_mode_call` up to the first instruction of the routine. -/
def enterRoutine (back : U32) (ip : U16) (c : Cpu) : Cpu :=
  callFar ip (callRealMode (callRealModeAsm back c))

/-- `real_mode_call` from the return of the routine on. -/
def leaveRoutine (ret : U32) (c : Cpu) : Cpu :=
  storeResults (pushResults (returnToProtected ret c))

/-- `real_mode_call`, with the routine between its two halves. -/
def realModeCall (back ret : U32) (ip : U16) (routine : Cpu → Cpu) (c : Cpu) : Cpu :=
  leaveRoutine ret (routine (enterRoutine back ip c))

/-! ### The stack of the call -/

/-- The main stack, which starts at `0x7C00`, is in the first 64 KiB, where `SS = 0`
reaches it, and has 18 bytes left; `params` is not among them. -/
structure CallSite (c : Cpu) : Prop where
  room : 18 ≤ c.esp.toNat
  low : c.esp.toNat < 2 ^ 16
  apart : c.eax.toNat + 16 ≤ c.esp.toNat - 18 ∨ c.esp.toNat ≤ c.eax.toNat

theorem load_congr {m m' : ByteMem} {a : Nat} (h : ∀ x, a ≤ x → x < a + 16 → m' x = m x) :
    RealModeCallParams.load m' a = RealModeCallParams.load m a := by
  have hread : ∀ i ≤ 14, m'.read16 (a + i) = m.read16 (a + i) := fun i hi =>
    ByteMem.read16_congr fun x _ _ => h x (by omega) (by omega)
  have hzero : m'.read16 a = m.read16 a := hread 0 (by omega)
  simp only [RealModeCallParams.load, hzero, hread 2 (by omega), hread 4 (by omega),
    hread 6 (by omega), hread 8 (by omega), hread 10 (by omega), hread 12 (by omega),
    hread 14 (by omega)]

theorem load_write {m : ByteMem} {s : Slot} {a x : Nat} (h : a + 16 ≤ x ∨ x + s.size ≤ a) :
    RealModeCallParams.load (s.write m x) a = RealModeCallParams.load m a :=
  load_congr fun y _ _ => Slot.write_other (by omega)

section Call

variable {c : Cpu}

theorem callRealModeAsm_spec (back : U32) (hc : CallSite c) :
    callRealModeAsm back c = { c with
      eax := setLo16 c.eax (callParams c).ax, ebx := setLo16 c.ebx (callParams c).bx
      ecx := setLo16 c.ecx (callParams c).cx, edx := setLo16 c.edx (callParams c).dx
      esi := setLo16 c.esi (callParams c).si, edi := setLo16 c.edi (callParams c).di
      esp := c.esp - 12
      mem := pushSlots c.mem c.esp.toNat [.word c.eax, .half (callParams c).segment,
        .half (callParams c).offset, .word back] } := by
  have hroom := hc.room
  have hapart := hc.apart
  have h4 := Cpu.toNat_sub_ofNat (show 4 ≤ c.esp.toNat by omega)
  have h6 := Cpu.toNat_sub_ofNat (show 6 ≤ c.esp.toNat by omega)
  have h8 := Cpu.toNat_sub_ofNat (show 8 ≤ c.esp.toNat by omega)
  have hsub : c.esp - 4#32 - 2#32 = c.esp - 6#32 ∧ c.esp - 6#32 - 2#32 = c.esp - 8#32 ∧
      c.esp - 8#32 - 4#32 = c.esp - 12 := by
    refine ⟨?_, ?_, ?_⟩ <;> rw [BitVec.sub_sub] <;> rfl
  obtain ⟨hsub6, hsub8, hsub12⟩ := hsub
  simp (disch := ((try simp only [Slot.size, hsub6, hsub8]); omega)) only [callRealModeAsm,
    Cpu.pushFlat_spec, callParams, Slot.size, hsub6, hsub8, hsub12, h4, h6, h8, load_write,
    Nat.sub_sub, Nat.reduceAdd]
  rfl

/-- With `SS = 0`, the top of the stack is SP. -/
theorem linear_zero (off : U16) : linear 0 off = off.toNat := Nat.zero_add _

theorem callRealMode_spec (hroom : 6 ≤ c.esp.toNat) (hlow : c.esp.toNat < 2 ^ 16)
    {rest : List Slot} (hrest : Holds c.mem c.esp.toNat rest) :
    ∃ esp ebp cr0 m, callRealMode c = { c with
        ds := 0, es := 0, ss := 0, cs := 0xF000, cr0 := cr0, esp := esp, ebp := ebp, mem := m } ∧
      (lo16 esp).toNat = c.esp.toNat - 2 ∧ lo16 ebp = lo16 esp ∧
      Holds m (c.esp.toNat - 2) (.half (lo16 c.ebp) :: rest) := by
  have hrun := Cpu.pushFlat_spec (c := c) (s := .word c.eax) (by show 4 ≤ _; omega)
  have hx : (lo16 (c.esp - 4#32)).toNat = c.esp.toNat - 4 := by
    rw [lo16, BitVec.extractLsb'_toNat, Nat.shiftRight_zero, Cpu.toNat_sub_ofNat (by omega)]
    omega
  simp only [callRealMode, hrun, Slot.size, Slot.write, Cpu.push, Cpu.pop16, Cpu.pop32, Cpu.setSp,
    Cpu.sp, Cpu.stackTop, lo16_setLo16, setLo16_setLo16, linear_zero]
  generalize lo16 (c.esp - 4#32) = x at hx
  have hback : x - 2#16 + 2 = x := BitVec.sub_add_cancel _ _
  have hx2 : (x - 2#16).toNat = c.esp.toNat - 6 := by
    rw [(linear_sub 0 (show 2 ≤ x.toNat by omega)).2]
    omega
  have hx4 : (x + 4 - 2#16).toNat = c.esp.toNat - 2 := by
    rw [BitVec.toNat_sub, BitVec.toNat_add, hx]
    show (2 ^ 16 - 2 + (c.esp.toNat - 4 + 4) % 2 ^ 16) % 2 ^ 16 = _
    omega
  have heax : ((c.mem.write32 (c.esp.toNat - 4) c.eax).write16 (c.esp.toNat - 6) 0).read32
      (c.esp.toNat - 4) = c.eax := by
    rw [ByteMem.read32_write16_disjoint (by omega), ByteMem.read32_write32_same]
  simp only [hback, hx, hx2, hx4, heax, ByteMem.read16_write16_same]
  refine ⟨_, _, _, _, rfl, ?_, ?_, ?_⟩
  · rw [lo16_setLo16, hx4]
  · rw [lo16_setLo16, lo16_setLo16]
  · refine Holds.push (s := .half (lo16 c.ebp)) ?_
    have htop : c.esp.toNat - 2 + Slot.size (.half (lo16 c.ebp)) = c.esp.toNat :=
      Nat.sub_add_cancel (by omega)
    rw [htop]
    exact hrest.congr fun y _ _ => by
      rw [ByteMem.write16_other (by omega), ByteMem.write32_other (by omega)]

/-- The far call takes its target from behind `bp` and the return address. -/
theorem callFar_spec (ip : U16) {bp offset segment : U16} {back : U32} {top : Nat}
    {rest : List Slot} (hss : c.ss = 0) (hsp : c.sp.toNat = top) (hbp : lo16 c.ebp = c.sp)
    (hroom : 4 ≤ top) (hlow : top + 8 < 2 ^ 16)
    (hstack : Holds c.mem top ([.half bp, .word back, .half offset, .half segment] ++ rest)) :
    ∃ esp m, callFar ip c = { c with cs := segment, ip := offset, esp := esp, mem := m } ∧
      (lo16 esp).toNat = top - 4 ∧
      Holds m (top - 4) ([.half ip, .half c.cs] ++
        ([.half bp, .word back, .half offset, .half segment] ++ rest)) := by
  have htop : c.stackTop = top := by rw [Cpu.stackTop, hss, linear_zero, hsp]
  have hbp6 : linear c.ss (lo16 c.ebp + 6) = top + 6 := by
    rw [hbp, ← htop]
    exact (linear_add c.ss (show c.sp.toNat + 6 < 2 ^ 16 by omega)).1
  have hbp8 : linear c.ss (lo16 c.ebp + 8) = top + 8 := by
    rw [hbp, ← htop]
    exact (linear_add c.ss (show c.sp.toNat + 8 < 2 ^ 16 by omega)).1
  have hsize : size [.half c.cs, .half ip] = 4 := by simp only [size, Slot.size]
  have hpush := holds_pushSlots [.half c.cs, .half ip] (by omega) hstack
  have hrun := Cpu.pushAll_spec (c := c) [.half c.cs, .half ip] (by omega)
  rw [hsize] at hpush hrun
  simp only [List.cons_append, List.nil_append, holds_half, holds_word, Nat.add_assoc,
    Nat.reduceAdd] at hstack
  obtain ⟨-, -, hoffset, hsegment, -⟩ := hstack
  simp only [callFar, hbp6, hbp8, hoffset, hsegment, hrun, htop]
  refine ⟨_, _, rfl, ?_, hpush⟩
  rw [lo16_setLo16, (linear_sub 0 (show 4 ≤ c.sp.toNat by omega)).2, hsp]

/-- What the routine finds on the stack. -/
def callSlots (back : U32) (ip : U16) (c : Cpu) : List Slot :=
  [.half ip, .half 0xF000, .half (lo16 c.ebp), .word back, .half (callParams c).offset,
    .half (callParams c).segment, .word c.eax]

/-- The registers of the routine are those of `params`. -/
structure Entered (p : RealModeCallParams) (e : Cpu) : Prop where
  segment : e.cs = p.segment
  offset : e.ip = p.offset
  registers : e.registers = p.registers

theorem enterRoutine_spec (back : U32) (ip : U16) (hc : CallSite c) :
    Entered (callParams c) (enterRoutine back ip c) ∧ (enterRoutine back ip c).ss = 0 ∧
      (enterRoutine back ip c).sp.toNat = c.esp.toNat - 18 ∧
      Holds (enterRoutine back ip c).mem (c.esp.toNat - 18) (callSlots back ip c) := by
  have hroom := hc.room
  have hlow := hc.low
  have hasm := callRealModeAsm_spec back hc
  have hesp : (callRealModeAsm back c).esp.toNat = c.esp.toNat - 12 := by
    rw [hasm]
    exact Cpu.toNat_sub_ofNat (show 12 ≤ _ by omega)
  have hstack : Holds (callRealModeAsm back c).mem (callRealModeAsm back c).esp.toNat [.word back,
      .half (callParams c).offset, .half (callParams c).segment, .word c.eax] := by
    have hsize : size [.word c.eax, .half (callParams c).segment, .half (callParams c).offset,
        .word back] = 12 := by simp only [size, Slot.size]
    rw [hesp, hasm, ← hsize]
    exact holds_pushSlots _ (by omega) (holds_nil.mpr trivial)
  obtain ⟨esp, ebp, cr0, m, hreal, hsp, hbp, hm⟩ := callRealMode_spec (by omega) (by omega) hstack
  simp only [hesp, Nat.sub_sub, Nat.reduceAdd] at hsp hm
  generalize hd : callRealMode (callRealModeAsm back c) = d at hreal
  have hss : d.ss = 0 := by rw [hreal]
  have hdsp : d.sp.toNat = c.esp.toNat - 14 := by rw [hreal]; exact hsp
  have hdbp : lo16 d.ebp = d.sp := by rw [hreal]; exact hbp
  have hdm : Holds d.mem (c.esp.toNat - 14) ([.half (lo16 c.ebp), .word back,
      .half (callParams c).offset, .half (callParams c).segment] ++ [.word c.eax]) := by
    rw [hreal]
    rw [hasm] at hm
    exact hm
  obtain ⟨esp', m', hfar, hsp', hm'⟩ := callFar_spec ip hss hdsp hdbp (by omega) (by omega) hdm
  simp only [Nat.sub_sub, Nat.reduceAdd] at hsp' hm'
  have hcs : d.cs = 0xF000 := by rw [hreal]
  rw [hcs] at hm'
  rw [enterRoutine, hd, hfar]
  refine ⟨⟨rfl, rfl, ?_⟩, hss, hsp', hm'⟩
  rw [hreal, hasm]
  simp only [Cpu.registers, lo16_setLo16, RealModeCallParams.registers]

/-- `pop bp` and the way through `protect`: the stack is where it was, and of the
registers `bx` is lost. -/
theorem returnToProtected_spec (ret : U32) (hroom : 2 ≤ c.sp.toNat)
    (hlow : c.sp.toNat + 2 < 2 ^ 16) :
    (returnToProtected ret c).esp.toNat = c.stackTop + 6 ∧
      (returnToProtected ret c).registers = { c.registers with bx := lo16 ret } ∧
      ∀ x, c.stackTop + 2 ≤ x → (returnToProtected ret c).mem x = c.mem x := by
  have hfits : c.sp.toNat ≤ c.stackTop := Nat.le_add_left _ _
  have hbound : c.stackTop < 2 ^ 32 - 6 := by
    have hss := c.ss.isLt
    have hsp := c.sp.isLt
    rw [Cpu.stackTop, linear]
    omega
  -- the state that pushes `eax`
  obtain ⟨b, hb⟩ : ∃ b, b = { c.setSp (c.sp + 2#16) with
    ebp := setLo16 c.ebp (c.mem.read16 c.stackTop) } := ⟨_, rfl⟩
  have hregs : b.eax = c.eax ∧ b.ecx = c.ecx ∧ b.edx = c.edx ∧ b.esi = c.esi ∧ b.edi = c.edi ∧
      b.mem = c.mem := by rw [hb]; exact ⟨rfl, rfl, rfl, rfl, rfl, rfl⟩
  have hpop := Cpu.stackTop_pop (c := c) (n := 2) hlow
  obtain ⟨htop, hsp⟩ : b.stackTop = c.stackTop + 2 ∧ b.sp.toNat = c.sp.toNat + 2 := by
    rw [hb]; exact hpop
  have hsize : Slot.size (.word b.eax) = 4 := rfl
  obtain ⟨hpushTop, -⟩ := Cpu.stackTop_push (c := b) (s := .word b.eax) (by omega)
  have hpush := Cpu.push_spec (c := b) (s := .word b.eax) (by omega)
  have hbase : b.stackTop - Slot.size (.word b.eax) = c.stackTop - 2 := by omega
  rw [hbase] at hpushTop hpush
  have hprot := protect_spec { b.push (.word b.eax) with eax := ret }
  have hrun : returnToProtected ret c =
      { protect { b.push (.word b.eax) with eax := ret } with
        eax := (protect { b.push (.word b.eax) with eax := ret }).mem.read32
          (protect { b.push (.word b.eax) with eax := ret }).esp.toNat
        esp := (protect { b.push (.word b.eax) with eax := ret }).esp + 4 + 4 } := by
    rw [hb]
    rfl
  generalize protect { b.push (.word b.eax) with eax := ret } = q at hprot hrun
  obtain ⟨hesp, hebx, hecx, hedx, hesi, hedi, hmem⟩ := hprot
  have hqesp : q.esp.toNat = c.stackTop - 2 := hesp.trans hpushTop
  rw [hpush] at hecx hedx hesi hedi hmem
  have heax : q.mem.read32 q.esp.toNat = c.eax := by
    rw [hqesp, hmem]
    exact ByteMem.read32_write32_same.trans hregs.1
  rw [hrun]
  refine ⟨?_, ?_, ?_⟩
  · show (q.esp + 4 + 4).toNat = _
    rw [BitVec.add_assoc, BitVec.toNat_add, hqesp]
    show (c.stackTop - 2 + 8) % 2 ^ 32 = _
    omega
  · simp only [Cpu.registers, heax, hebx, hecx, hedx, hesi, hedi, hregs]
  · intro x hx
    have hother : Slot.write b.mem (c.stackTop - 2) (.word b.eax) x = b.mem x :=
      Slot.write_other (.inr (by omega))
    show q.mem x = c.mem x
    rw [hmem]
    exact hother.trans (by rw [hb]; rfl)

/-- What is on the stack before the stores. -/
theorem pushResults_spec {params : U32} {top : Nat} {rest : List Slot} (hesp : c.esp.toNat = top)
    (hroom : 8 ≤ top) (hlow : top + 4 < 2 ^ 32)
    (hparams : Holds c.mem (top + 4) (.word params :: rest)) :
    (pushResults c).esp.toNat = top - 8 ∧ (pushResults c).eax = params ∧
      Holds (pushResults c).mem (top - 8) [.half (lo16 c.edi), .half (lo16 c.esi),
        .half (lo16 c.ecx), .half (lo16 c.edx), .half (lo16 c.ebx), .half (lo16 c.eax)] := by
  have hadd : (c.esp + 4).toNat = top + 4 := by
    rw [BitVec.toNat_add, hesp]
    exact Nat.mod_eq_of_lt hlow
  have hax := Cpu.pushFlat_spec (c := { c with esp := c.esp + 4 }) (s := .half (lo16 c.eax))
    (show 2 ≤ (c.esp + 4).toNat by omega)
  have hbesp : (c.esp + 4 - 2#32).toNat = top + 2 := by
    rw [Cpu.toNat_sub_ofNat (by omega), hadd]
    rfl
  have hreload : (c.mem.write16 (top + 2) (lo16 c.eax)).read32 (top + 2 + 2) = params := by
    rw [ByteMem.read32_write16_disjoint (by omega)]
    exact hparams.1
  have hrest : Holds (c.mem.write16 (top + 2) (lo16 c.eax)) (top + 2) [.half (lo16 c.eax)] :=
    Holds.push (s := .half (lo16 c.eax)) trivial
  -- the state that pushes `bx`
  obtain ⟨b, hb⟩ : ∃ b, b = { c with
      eax := params, esp := c.esp + 4 - 2#32
      mem := c.mem.write16 (top + 2) (lo16 c.eax) } := ⟨_, rfl⟩
  have hrun : pushResults c = b.pushAllFlat [.half (lo16 c.ebx), .half (lo16 c.edx),
      .half (lo16 c.ecx), .half (lo16 c.esi), .half (lo16 c.edi)] := by
    rw [hb]
    have hsub : top + 4 - 2 = top + 2 := rfl
    simp only [pushResults, hax, Slot.size, Slot.write, hadd, hbesp, hsub, hreload]
  have hsize : size [.half (lo16 c.ebx), .half (lo16 c.edx), .half (lo16 c.ecx),
    .half (lo16 c.esi), .half (lo16 c.edi)] = 10 := by simp only [size, Slot.size]
  have hstack := holds_pushSlots [.half (lo16 c.ebx), .half (lo16 c.edx), .half (lo16 c.ecx),
    .half (lo16 c.esi), .half (lo16 c.edi)] (by omega) hrest
  have htop : top + 2 - 10 = top - 8 := Nat.add_sub_add_right top 2 8
  rw [hsize, htop] at hstack
  have hbtop : b.esp.toNat = top + 2 := by rw [hb]; exact hbesp
  rw [hrun, Cpu.pushAllFlat_spec _ (by omega), hsize, hbtop, hb]
  refine ⟨?_, rfl, hstack⟩
  show (c.esp + 4 - 2#32 - 10#32).toNat = _
  rw [Cpu.toNat_sub_ofNat (by omega), hbesp, htop]

/-- The stores, from the half-words on the stack. -/
theorem storeResults_spec {params : U32} {top : Nat} {ax bx cx dx si di : U16}
    (hesp : c.esp.toNat = top) (heax : c.eax = params)
    (hstack : Holds c.mem top [.half di, .half si, .half dx, .half cx, .half bx, .half ax])
    (hapart : params.toNat + 16 ≤ top ∨ top + 12 ≤ params.toNat) :
    (RealModeCallParams.load (storeResults c).mem params.toNat).registers =
      ⟨ax, bx, cx, dx, si, di⟩ := by
  simp only [holds_half, holds_nil, Nat.add_assoc, Nat.reduceAdd, and_true] at hstack
  simp (disch := omega) only [storeResults, storeResult, hesp, heax, Nat.add_zero, lo16_setLo16,
    hstack, ByteMem.read16_write16_disjoint, ByteMem.read16_write16_same, RealModeCallParams.load,
    RealModeCallParams.registers]

/-- `RETF`, with the caller's part of the stack as it was. -/
structure FarReturn (base : Nat) (e r : Cpu) : Prop where
  ss : r.ss = e.ss
  sp : r.sp = e.sp + 4
  memory : ∀ x, e.stackTop + 4 ≤ x → x < base → r.mem x = e.mem x

/-- What `call_real_mode` returns with: the registers of the routine but for `bx`,
and the stack of its call. -/
theorem returned_spec (back ret : U32) (ip : U16) {r : Cpu} (hc : CallSite c)
    (hreturn : FarReturn c.esp.toNat (enterRoutine back ip c) r) :
    (returnToProtected ret r).esp.toNat = c.esp.toNat - 8 ∧
      (returnToProtected ret r).registers = { r.registers with bx := lo16 ret } ∧
      Holds (returnToProtected ret r).mem (c.esp.toNat - 12) [.word back,
        .half (callParams c).offset, .half (callParams c).segment, .word c.eax] := by
  have hroom := hc.room
  have hlow := hc.low
  obtain ⟨-, hss, hsp, hstack⟩ := enterRoutine_spec back ip hc
  generalize enterRoutine back ip c = e at *
  have htop : e.stackTop = c.esp.toNat - 18 := by rw [Cpu.stackTop, hss, linear_zero, hsp]
  have hrss : r.ss = 0 := hreturn.ss.trans hss
  have hrsp : r.sp.toNat = c.esp.toNat - 14 := by
    have hadd := (linear_add 0 (show e.sp.toNat + 4 < 2 ^ 16 by omega)).2
    rw [hreturn.sp]
    exact hadd.trans (by omega)
  have hrtop : r.stackTop = c.esp.toNat - 14 := by rw [Cpu.stackTop, hrss, linear_zero, hrsp]
  obtain ⟨hesp, hregs, hmem⟩ := returnToProtected_spec ret (c := r) (by omega) (by omega)
  refine ⟨hesp.trans (by omega), hregs, ?_⟩
  -- the far call and `push bp` took the 6 bytes in front
  have hfront : c.esp.toNat - 18 + size [.half ip, .half 0xF000, .half (lo16 c.ebp)] =
      c.esp.toNat - 12 := by
    simp only [size, Slot.size]
    omega
  have hsplit : Holds e.mem (c.esp.toNat - 18) ([.half ip, .half 0xF000, .half (lo16 c.ebp)] ++
    [.word back, .half (callParams c).offset, .half (callParams c).segment,
      .word c.eax]) := hstack
  obtain ⟨-, hrest⟩ := holds_append.mp hsplit
  rw [hfront] at hrest
  refine hrest.congr ?_
  intro x hlo hhi
  simp only [size, Slot.size] at hhi
  rw [hmem x (by omega), hreturn.memory x (by omega) (by omega)]

/-- Its `ret` goes back to behind the call. -/
theorem return_address (back ret : U32) (ip : U16) {r : Cpu} (hc : CallSite c)
    (hreturn : FarReturn c.esp.toNat (enterRoutine back ip c) r) :
    (returnToProtected ret r).mem.read32 ((returnToProtected ret r).esp.toNat - 4) = back := by
  obtain ⟨hesp, -, hback, -⟩ := returned_spec back ret ip hc hreturn
  rw [hesp, Nat.sub_sub]
  exact hback

/-- The fields after the call: `bx` is the low half of `ret`, and `cx` and `dx`
are exchanged. -/
theorem realModeCall_spec (back ret : U32) (ip : U16) {routine : Cpu → Cpu} (hc : CallSite c)
    (hreturn : FarReturn c.esp.toNat (enterRoutine back ip c) (routine (enterRoutine back ip c))) :
    (RealModeCallParams.load (realModeCall back ret ip routine c).mem c.eax.toNat).registers =
      { (routine (enterRoutine back ip c)).registers with
        bx := lo16 ret
        cx := (routine (enterRoutine back ip c)).registers.dx
        dx := (routine (enterRoutine back ip c)).registers.cx } := by
  have hroom := hc.room
  have hlow := hc.low
  have hapart := hc.apart
  obtain ⟨hesp, hregs, hstack⟩ := returned_spec back ret ip hc hreturn
  rw [realModeCall]
  generalize routine (enterRoutine back ip c) = r at *
  -- `params`, which the inline assembly pushed first
  have hfront : c.esp.toNat - 12 + size [.word back, .half (callParams c).offset,
      .half (callParams c).segment] = c.esp.toNat - 8 + 4 := by
    simp only [size, Slot.size]
    omega
  have hsplit : Holds (returnToProtected ret r).mem (c.esp.toNat - 12)
    ([.word back, .half (callParams c).offset, .half (callParams c).segment] ++
      [.word c.eax]) := hstack
  obtain ⟨-, hparams⟩ := holds_append.mp hsplit
  rw [hfront] at hparams
  obtain ⟨hdesp, hdeax, hresults⟩ := pushResults_spec hesp (by omega) (by omega) hparams
  rw [leaveRoutine, storeResults_spec hdesp hdeax hresults (by omega)]
  generalize returnToProtected ret r = d at hregs
  show { d.registers with cx := d.registers.dx, dx := d.registers.cx : CallRegisters } = _
  rw [hregs]

end Call

/-! ### What the caller gets -/

/-- The routine is entered with the registers of `p`, and what it leaves in them is
in the fields afterwards. -/
structure Carried (p : RealModeCallParams) (e r : Cpu) (q : RealModeCallParams) : Prop where
  entered : Entered p e
  returned : q.registers = r.registers

/-- The call carries the registers exactly if the routine leaves in `bx` what the
way back leaves there, and the same in `cx` as in `dx`. -/
theorem real_mode_call_iff (back ret : U32) (ip : U16) {routine : Cpu → Cpu} {c : Cpu}
    (hc : CallSite c)
    (hreturn : FarReturn c.esp.toNat (enterRoutine back ip c) (routine (enterRoutine back ip c))) :
    Carried (callParams c) (enterRoutine back ip c) (routine (enterRoutine back ip c))
        (.load (realModeCall back ret ip routine c).mem c.eax.toNat) ↔
      lo16 (routine (enterRoutine back ip c)).ebx = lo16 ret ∧
        lo16 (routine (enterRoutine back ip c)).ecx =
          lo16 (routine (enterRoutine back ip c)).edx := by
  have hfields := realModeCall_spec back ret ip hc hreturn
  obtain ⟨hentered, -⟩ := enterRoutine_spec back ip hc
  constructor
  · rintro ⟨-, hreturned⟩
    rw [hfields] at hreturned
    simp only [Cpu.registers, CallRegisters.mk.injEq] at hreturned
    obtain ⟨-, hbx, -, hcx, -⟩ := hreturned
    exact ⟨hbx.symm, hcx⟩
  · rintro ⟨hbx, hcx⟩
    refine ⟨hentered, hfields.trans ?_⟩
    simp only [Cpu.registers, hbx, hcx]

/-! ### A routine that sets three registers -/

/-- It sets `bx`, `cx` and `dx` and returns. -/
def setThree (bx cx dx : U16) (e : Cpu) : Cpu :=
  { e.setSp (e.sp + 4) with
    ebx := setLo16 e.ebx bx
    ecx := setLo16 e.ecx cx
    edx := setLo16 e.edx dx }

theorem farReturn_setThree {bx cx dx : U16} {base : Nat} {e : Cpu} :
    FarReturn base e (setThree bx cx dx e) :=
  ⟨rfl, lo16_setLo16 _ _, fun _ _ _ => rfl⟩

/-- A call on the main stack, with `params` at `0x7B00`. -/
def atCall : Cpu where
  eax := 0x7B00
  ebx := 0
  ecx := 0
  edx := 0
  esi := 0
  edi := 0
  ebp := 0x7A80
  esp := 0x7A00
  cs := 0x8
  ds := 0x10
  es := 0x10
  fs := 0x10
  gs := 0x10
  ss := 0x10
  ip := 0
  flags := 0x202
  cr0 := 1
  mem := .zeros

theorem callSite_atCall : CallSite atCall :=
  ⟨by show 18 ≤ 0x7A00; omega, by show 0x7A00 < 2 ^ 16; omega,
    .inr (by show 0x7A00 ≤ 0x7B00; omega)⟩

/-- With `bx` the low half of `ret`, and `cx = dx`, the fields are right. -/
theorem real_mode_call_iff_same :
    Carried (callParams atCall) (enterRoutine 0xF2000 0xFF3A atCall)
      (setThree 0xFF49 7 7 (enterRoutine 0xF2000 0xFF3A atCall))
      (.load (realModeCall 0xF2000 0xFFF49 0xFF3A (setThree 0xFF49 7 7) atCall).mem
        atCall.eax.toNat) :=
  (real_mode_call_iff 0xF2000 0xFFF49 0xFF3A callSite_atCall farReturn_setThree).mpr
    ⟨lo16_setLo16 _ _, (lo16_setLo16 _ _).trans (lo16_setLo16 _ _).symm⟩

/-- `bx = 2`, `cx = 3` and `dx = 4` come back as `0xFF49`, 4 and 3. -/
theorem real_mode_call_fails :
    ¬ ∀ (back ret : U32) (ip : U16) (routine : Cpu → Cpu) (c : Cpu), CallSite c →
      FarReturn c.esp.toNat (enterRoutine back ip c) (routine (enterRoutine back ip c)) →
      Carried (callParams c) (enterRoutine back ip c) (routine (enterRoutine back ip c))
        (.load (realModeCall back ret ip routine c).mem c.eax.toNat) := by
  intro h
  obtain ⟨-, hreturned⟩ := h 0xF2000 0xFFF49 0xFF3A (setThree 2 3 4) atCall callSite_atCall
    farReturn_setThree
  rw [realModeCall_spec _ _ _ callSite_atCall farReturn_setThree] at hreturned
  simp only [Cpu.registers, setThree, lo16_setLo16, CallRegisters.mk.injEq] at hreturned
  obtain ⟨-, -, hcx, -⟩ := hreturned
  exact absurd hcx (by decide)

end MyBios
