import MyBios.Machine

/-!
The register frame of a real-mode interrupt (`itr_frame_real_mode`).

The C struct overlays `eax` with `ax`, `al` and `ah`, and likewise for the
other general registers. Here a frame stores the 32-bit registers; the narrow
names are read and written through `lo16`, `lo8` and `hi8` and their setters,
and the lemmas of this file say that a setter changes its own bits only.
-/

namespace MyBios

/-! ### Narrow views of a 32-bit register -/

def lo16 (r : U32) : U16 := r.extractLsb' 0 16
def hi16 (r : U32) : U16 := r.extractLsb' 16 16
def lo8 (r : U32) : U8 := r.extractLsb' 0 8
def hi8 (r : U32) : U8 := r.extractLsb' 8 8

def setLo16 (r : U32) (v : U16) : U32 := hi16 r ++ v
def setLo8 (r : U32) (v : U8) : U32 := hi16 r ++ (hi8 r ++ v)
def setHi8 (r : U32) (v : U8) : U32 := hi16 r ++ (v ++ lo8 r)

section Views

variable (r : U32) (v : U8) (w : U16)

@[simp] theorem lo16_append (h l : U16) : lo16 (h ++ l) = l :=
  BitVec.extractLsb'_append_eq_right

@[simp] theorem hi16_append (h l : U16) : hi16 (h ++ l) = h :=
  BitVec.extractLsb'_append_eq_left

@[simp] theorem hi16_append_lo16 : hi16 r ++ lo16 r = r := ByteMem.words_append r

@[simp] theorem lo16_setLo16 : lo16 (setLo16 r w) = w := lo16_append _ _

@[simp] theorem hi16_setLo16 : hi16 (setLo16 r w) = hi16 r := hi16_append _ _

@[simp] theorem setLo16_setLo16 (x : U16) : setLo16 (setLo16 r x) w = setLo16 r w := by
  rw [setLo16, hi16_setLo16, setLo16]

theorem lo8_eq_lo16 : lo8 r = (lo16 r).extractLsb' 0 8 := by
  rw [lo8, lo16, BitVec.extractLsb'_extractLsb'_of_le (by omega)]

theorem hi8_eq_lo16 : hi8 r = (lo16 r).extractLsb' 8 8 := by
  rw [hi8, lo16, BitVec.extractLsb'_extractLsb'_of_le (by omega)]

@[simp] theorem lo8_setLo8 : lo8 (setLo8 r v) = v := by
  rw [lo8_eq_lo16, setLo8, lo16_append]
  exact BitVec.extractLsb'_append_eq_right

@[simp] theorem hi8_setLo8 : hi8 (setLo8 r v) = hi8 r := by
  rw [hi8_eq_lo16, setLo8, lo16_append]
  exact BitVec.extractLsb'_append_eq_left

@[simp] theorem hi8_setHi8 : hi8 (setHi8 r v) = v := by
  rw [hi8_eq_lo16, setHi8, lo16_append]
  exact BitVec.extractLsb'_append_eq_left

end Views

/-! ### The frame -/

structure ItrFrameRealMode where
  fs : U16
  es : U16
  ds : U16
  edi : U32
  esi : U32
  edx : U32
  ecx : U32
  ebx : U32
  eax : U32
  esp : U32
  ebp : U32
  ss : U16
  gs : U16
  ip : U16
  cs : U16
  flags : U16
  deriving DecidableEq, Repr

namespace ItrFrameRealMode

/-- All registers 0. -/
def zeros : ItrFrameRealMode := ⟨0, 0, 0, 0, 0, 0, 0, 0, 0, 0, 0, 0, 0, 0, 0, 0⟩

variable (f : ItrFrameRealMode)

def ax : U16 := lo16 f.eax
def al : U8 := lo8 f.eax
def ah : U8 := hi8 f.eax
def bx : U16 := lo16 f.ebx
def cx : U16 := lo16 f.ecx
def si : U16 := lo16 f.esi
def cl : U8 := lo8 f.ecx
def ch : U8 := hi8 f.ecx
def dl : U8 := lo8 f.edx
def dh : U8 := hi8 f.edx

def setAx (v : U16) : ItrFrameRealMode := { f with eax := setLo16 f.eax v }
def setAl (v : U8) : ItrFrameRealMode := { f with eax := setLo8 f.eax v }
def setAh (v : U8) : ItrFrameRealMode := { f with eax := setHi8 f.eax v }
def setBx (v : U16) : ItrFrameRealMode := { f with ebx := setLo16 f.ebx v }
def setCl (v : U8) : ItrFrameRealMode := { f with ecx := setLo8 f.ecx v }
def setCh (v : U8) : ItrFrameRealMode := { f with ecx := setHi8 f.ecx v }
def setDl (v : U8) : ItrFrameRealMode := { f with edx := setLo8 f.edx v }
def setDh (v : U8) : ItrFrameRealMode := { f with edx := setHi8 f.edx v }

/-- The carry flag, bit 0. -/
def carry : Bool := f.flags.getLsbD 0

/-- `frame->flags &= 0xFFFE`. -/
def clearCarry : ItrFrameRealMode := { f with flags := f.flags &&& 0xFFFE }

/-- `frame->flags |= 0x1`. -/
def setCarry : ItrFrameRealMode := { f with flags := f.flags ||| 0x1 }

@[simp] theorem carry_clearCarry : f.clearCarry.carry = false := by
  simp [carry, clearCarry]

@[simp] theorem carry_setCarry : f.setCarry.carry = true := by
  simp [carry, setCarry]

@[simp] theorem carry_setAl (v : U8) : (f.setAl v).carry = f.carry := rfl

@[simp] theorem carry_setAh (v : U8) : (f.setAh v).carry = f.carry := rfl

@[simp] theorem ah_setAh (v : U8) : (f.setAh v).ah = v := hi8_setHi8 _ _

@[simp] theorem ah_setAl (v : U8) : (f.setAl v).ah = f.ah := hi8_setLo8 _ _

end ItrFrameRealMode

end MyBios
