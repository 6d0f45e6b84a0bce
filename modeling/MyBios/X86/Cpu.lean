import MyBios.Interrupt.Frame
import MyBios.Lib.Slots

/-!
The processor, as far as the assembly files use it.

An instruction is a function `Cpu → Cpu`, and a piece of assembly is a chain of
them, one `let` a line. Control flow is the order of the lines: `cs` and `ip` are
set by far calls and `iret` only. Of `flags` the instructions below change
nothing: the value that the code returns with is popped from the stack.

In real mode the stack is at `SS:SP`. In 32-bit code the segments are flat and
it is at `ESP`.

* `pushAll_spec`, `pushAllFlat_spec`: pushes leave their slots on the stack and
  change nothing else.
* `protect_spec`: the way into 32-bit code (`enter_protected_mode.S`) keeps the
  stack where it was, and uses up `eax` and `ebx`.
-/

namespace MyBios

open Slots

/-- `seg:off` as an address. -/
def linear (seg off : U16) : Nat := 16 * seg.toNat + off.toNat

/-- `n` bytes below the top of the stack, which does not wrap. -/
theorem linear_sub (seg : U16) {off : U16} {n : Nat} (h : n ≤ off.toNat) :
    linear seg (off - BitVec.ofNat 16 n) = linear seg off - n ∧
      (off - BitVec.ofNat 16 n).toNat = off.toNat - n := by
  have hoff := off.isLt
  have hsub : (off - BitVec.ofNat 16 n).toNat = off.toNat - n := by
    rw [BitVec.toNat_sub, BitVec.toNat_ofNat]
    omega
  rw [linear, linear, hsub]
  omega

/-- `n` bytes above it. -/
theorem linear_add (seg : U16) {off : U16} {n : Nat} (h : off.toNat + n < 2 ^ 16) :
    linear seg (off + BitVec.ofNat 16 n) = linear seg off + n ∧
      (off + BitVec.ofNat 16 n).toNat = off.toNat + n := by
  have hadd : (off + BitVec.ofNat 16 n).toNat = off.toNat + n := by
    rw [BitVec.toNat_add, BitVec.toNat_ofNat]
    omega
  rw [linear, linear, hadd]
  omega

structure Cpu where
  eax : U32
  ebx : U32
  ecx : U32
  edx : U32
  esi : U32
  edi : U32
  ebp : U32
  esp : U32
  cs : U16
  ds : U16
  es : U16
  fs : U16
  gs : U16
  ss : U16
  ip : U16
  flags : U16
  cr0 : U32
  mem : ByteMem

namespace Cpu

variable {c : Cpu} {s : Slot}

def sp (c : Cpu) : U16 := lo16 c.esp

def setSp (v : U16) (c : Cpu) : Cpu := { c with esp := setLo16 c.esp v }

/-! ### The real-mode stack -/

/-- The address of `SS:SP`. -/
def stackTop (c : Cpu) : Nat := linear c.ss c.sp

def push (s : Slot) (c : Cpu) : Cpu :=
  let c := c.setSp (c.sp - BitVec.ofNat 16 s.size)
  { c with mem := s.write c.mem c.stackTop }

/-- `pop` of a half-word, which `set` puts in its register. -/
def pop16 (set : Cpu → U16 → Cpu) (c : Cpu) : Cpu :=
  set (c.setSp (c.sp + 2)) (c.mem.read16 c.stackTop)

def pop32 (set : Cpu → U32 → Cpu) (c : Cpu) : Cpu :=
  set (c.setSp (c.sp + 4)) (c.mem.read32 c.stackTop)

/-- Pushes, one after the other. -/
def pushAll (slots : List Slot) (c : Cpu) : Cpu := slots.foldl (fun c s => c.push s) c

@[simp] theorem sp_setSp {v : U16} : (c.setSp v).sp = v := lo16_setLo16 _ _

@[simp] theorem gs_push : (c.push s).gs = c.gs := rfl

@[simp] theorem ebp_push : (c.push s).ebp = c.ebp := rfl

/-- Where the stack is after a push, and after a pop that does not wrap. -/
theorem stackTop_push (hroom : s.size ≤ c.sp.toNat) :
    (c.push s).stackTop = c.stackTop - s.size ∧ (c.push s).sp.toNat = c.sp.toNat - s.size := by
  have hsp : (c.push s).sp = c.sp - BitVec.ofNat 16 s.size := lo16_setLo16 _ _
  rw [stackTop, hsp]
  exact linear_sub c.ss hroom

theorem stackTop_pop {n : Nat} (h : c.sp.toNat + n < 2 ^ 16) :
    (c.setSp (c.sp + BitVec.ofNat 16 n)).stackTop = c.stackTop + n ∧
      (c.setSp (c.sp + BitVec.ofNat 16 n)).sp.toNat = c.sp.toNat + n := by
  rw [stackTop, sp_setSp]
  exact linear_add c.ss h

/-- A push stores its slot below the others. -/
theorem push_spec (hroom : s.size ≤ c.sp.toNat) :
    c.push s = { c with
      esp := setLo16 c.esp (c.sp - BitVec.ofNat 16 s.size)
      mem := s.write c.mem (c.stackTop - s.size) } := by
  rw [← (stackTop_push hroom).1]
  rfl

/-- Pushes leave their slots on the stack and change `esp` and memory only. -/
theorem pushAll_spec (slots : List Slot) (hroom : size slots ≤ c.sp.toNat) :
    c.pushAll slots = { c with
      esp := setLo16 c.esp (c.sp - BitVec.ofNat 16 (size slots))
      mem := pushSlots c.mem c.stackTop slots } := by
  induction slots generalizing c with
  | nil =>
      show c = { c with esp := hi16 c.esp ++ (lo16 c.esp - 0#16) }
      rw [BitVec.sub_zero, hi16_append_lo16]
  | cons s slots ih =>
      have hsize : size (s :: slots) = s.size + size slots := rfl
      rw [hsize] at hroom ⊢
      have hstep : c.pushAll (s :: slots) = (c.push s).pushAll slots := rfl
      obtain ⟨htop, hsp⟩ := stackTop_push (c := c) (s := s) (by omega)
      have hpush := push_spec (c := c) (s := s) (by omega)
      generalize c.push s = d at hpush hstep htop hsp
      have hdsp : d.sp = c.sp - BitVec.ofNat 16 s.size := by
        rw [hpush]; exact lo16_setLo16 _ _
      rw [hstep, ih (by omega), hdsp, htop, BitVec.sub_sub, ← BitVec.ofNat_add, hpush, pushSlots]
      simp only [setLo16_setLo16]

/-! ### The stack of 32-bit code -/

/-- `push` in 32-bit code. -/
def pushFlat (s : Slot) (c : Cpu) : Cpu :=
  let c := { c with esp := c.esp - BitVec.ofNat 32 s.size }
  { c with mem := s.write c.mem c.esp.toNat }

/-- Pushes in 32-bit code, one after the other. -/
def pushAllFlat (slots : List Slot) (c : Cpu) : Cpu := slots.foldl (fun c s => c.pushFlat s) c

theorem toNat_sub_ofNat {esp : U32} {n : Nat} (h : n ≤ esp.toNat) :
    (esp - BitVec.ofNat 32 n).toNat = esp.toNat - n := by
  have hlt := esp.isLt
  rw [BitVec.toNat_sub, BitVec.toNat_ofNat]
  omega

theorem pushFlat_spec (hroom : s.size ≤ c.esp.toNat) :
    c.pushFlat s = { c with
      esp := c.esp - BitVec.ofNat 32 s.size
      mem := s.write c.mem (c.esp.toNat - s.size) } := by
  rw [← toNat_sub_ofNat hroom]
  rfl

theorem pushAllFlat_spec (slots : List Slot) (hroom : size slots ≤ c.esp.toNat) :
    c.pushAllFlat slots = { c with
      esp := c.esp - BitVec.ofNat 32 (size slots)
      mem := pushSlots c.mem c.esp.toNat slots } := by
  induction slots generalizing c with
  | nil =>
      show c = { c with esp := c.esp - 0#32 }
      rw [BitVec.sub_zero]
  | cons s slots ih =>
      have hsize : size (s :: slots) = s.size + size slots := rfl
      rw [hsize] at hroom ⊢
      have hsub := toNat_sub_ofNat (show s.size ≤ c.esp.toNat by omega)
      have hstep : c.pushAllFlat (s :: slots) = (c.pushFlat s).pushAllFlat slots := rfl
      rw [hstep, pushFlat_spec (by omega), ih (by simp only [hsub]; omega), pushSlots]
      simp only [hsub, BitVec.sub_sub, ← BitVec.ofNat_add]

end Cpu

/-! ### Into 32-bit code -/

/-- `protect`: `ebx` is where it jumps to at its end. -/
def protect (c : Cpu) : Cpu :=
  let c := { c with eax := c.ebx, ebx := c.eax }
  let c := { c with eax := setLo16 c.eax 0xF000 }
  let c := { c with ds := lo16 c.eax }
  let c := { c with eax := c.cr0 }
  let c := { c with eax := setLo8 c.eax (lo8 c.eax ||| 1) }
  let c := { c with cr0 := c.eax }
  -- `._32main`: the stack moves to the flat address of `SS:SP`
  let c := { c with eax := setLo16 c.eax c.ss }
  let c := { c with eax := c.eax &&& 0x0000FFFF }
  let c := { c with eax := c.eax <<< 4 }
  let c := { c with esp := (lo16 c.esp).setWidth 32 }
  let c := { c with ebp := (lo16 c.ebp).setWidth 32 }
  let c := { c with esp := c.esp + c.eax }
  let c := { c with ebp := c.ebp + c.eax }
  let c := { c with eax := setLo16 c.eax 0x10 }
  { c with
    ds := lo16 c.eax
    es := lo16 c.eax
    fs := lo16 c.eax
    gs := lo16 c.eax
    ss := lo16 c.eax }

/-- `._32main` takes the 16 bits of a segment register and shifts them by 4. -/
theorem toNat_segmentBase (r : U32) (seg : U16) :
    ((setLo16 r seg &&& 0x0000FFFF) <<< 4).toNat = 16 * seg.toNat := by
  have hseg := seg.isLt
  have hmask : (0x0000FFFF : U32).toNat = 2 ^ 16 - 1 := rfl
  have hlow : (setLo16 r seg).toNat % 2 ^ 16 = seg.toNat := by
    have h := congrArg BitVec.toNat (lo16_setLo16 r seg)
    rwa [lo16, BitVec.extractLsb'_toNat, Nat.shiftRight_zero] at h
  rw [BitVec.toNat_shiftLeft, BitVec.toNat_and, hmask, Nat.and_two_pow_sub_one_eq_mod, hlow,
    Nat.shiftLeft_eq]
  omega

/-- The stack is where it was, `ebx` is the jump target, and `ecx`, `edx`, `esi`
and `edi` are kept. -/
theorem protect_spec (c : Cpu) : (protect c).esp.toNat = c.stackTop ∧
    (protect c).ebx = c.eax ∧ (protect c).ecx = c.ecx ∧ (protect c).edx = c.edx ∧
    (protect c).esi = c.esi ∧ (protect c).edi = c.edi ∧ (protect c).mem = c.mem := by
  refine ⟨?_, rfl, rfl, rfl, rfl, rfl, rfl⟩
  have hss := c.ss.isLt
  have hsp := c.sp.isLt
  have hesp : (protect c).esp = c.sp.setWidth 32 +
      (setLo16 (setLo8 c.cr0 (lo8 c.cr0 ||| 1)) c.ss &&& 0x0000FFFF) <<< 4 := rfl
  rw [hesp, BitVec.toNat_add, toNat_segmentBase, BitVec.toNat_setWidth, Cpu.stackTop, linear]
  omega

end MyBios
