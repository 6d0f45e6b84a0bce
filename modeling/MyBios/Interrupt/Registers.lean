import MyBios.Interrupt.Trampoline

/-!
The registers across a real-mode interrupt.

A handler changes some fields of the frame. After the final `iret` those registers
should have what it stored, and all others what they had at the INT.

* `realModeInterrupt_spec`: after the `iret` every register has what the handler
  left in its field, and `SS:ESP` is as before.
* `registers_returned_iff`: but the handler got `ebp` without its high half, so
  the other registers are kept exactly if it sets `ebp` or that half was 0.
-/

namespace MyBios

/-- The fields of the frame that are copied back. -/
inductive FrameField where
  | eax | ebx | ecx | edx | esi | edi | ebp | ds | es | fs | gs | ip | cs | flags
  deriving DecidableEq

/-- A field; a half-word is extended by zeros. -/
def FrameField.get (f : ItrFrameRealMode) : FrameField → U32
  | eax => f.eax
  | ebx => f.ebx
  | ecx => f.ecx
  | edx => f.edx
  | esi => f.esi
  | edi => f.edi
  | ebp => f.ebp
  | ds => f.ds.setWidth 32
  | es => f.es.setWidth 32
  | fs => f.fs.setWidth 32
  | gs => f.gs.setWidth 32
  | ip => f.ip.setWidth 32
  | cs => f.cs.setWidth 32
  | flags => f.flags.setWidth 32

/-- The register of a field. -/
def Cpu.reg (c : Cpu) (r : FrameField) : U32 := r.get c.frame

/-- The handler changes only the fields in `F`, and leaves the bytes alone that
the way out needs. -/
structure ChangesOnly (F : FrameField → Prop) (base : Nat) (handler : ItrHandlerRealMode) :
    Prop where
  fields : ∀ v f m r, ¬ F r → r.get (handler v f m).1 = r.get f
  memory : ∀ v f m, Kept base m (handler v f m).2

/-- What the handler makes of the frame that it gets for the INT. -/
def handlerResult (handler : ItrHandlerRealMode) (ret : U32) (vector : U16) (c : Cpu) :
    ItrFrameRealMode :=
  let d := trampolineTo32 ret (interruptHandler vector (interrupt c))
  let f := completeFrame d.mem d.esp.toNat
  (handler (vector.setWidth 8) f (f.store d.mem d.esp.toNat)).1

variable {F : FrameField → Prop} {handlers : U16 → Option ItrHandlerRealMode}
  {handler : ItrHandlerRealMode} {c : Cpu}

/-- The frame that the handler gets is the registers at the INT, but for the high
half of `ebp`. -/
theorem get_handlerFrame (r : FrameField) :
    r.get (handlerFrame c.frame.esp c.ss c.frame) =
      if r = .ebp then c.ebp &&& 0xFFFF else c.reg r := by
  cases r <;> rfl

/-- What the handler is called with. -/
theorem handlerResult_spec (handler : ItrHandlerRealMode) (ret : U32) (vector : U16)
    (hc : CallerStack c) :
    ∃ m, handlerResult handler ret vector c =
      (handler (vector.setWidth 8) (handlerFrame c.frame.esp c.ss c.frame) m).1 := by
  obtain ⟨d, henter, hesp, -, hs⟩ := enter_spec ret vector hc
  refine ⟨(handlerFrame c.frame.esp c.ss c.frame).store d.mem 0x9CFD0, ?_⟩
  simp only [handlerResult, henter, hesp, completeFrame_eq hs]

/-- After the `iret` the registers are the fields of what the handler made. -/
theorem realModeInterrupt_spec (ret : U32) {vector : U16} (hc : CallerStack c)
    (hhandler : handlers vector = some handler)
    (hkept : ∀ v f m, Kept (c.stackTop - 14) m (handler v f m).2) :
    ∃ d, realModeInterrupt handlers ret vector c = some d ∧
      (∀ r, d.reg r = r.get (handlerResult handler ret vector c)) ∧
      d.ss = c.ss ∧ d.esp = c.esp := by
  have hroom := hc.room
  have hsp := c.sp.isLt
  have hbase : linear c.ss (lo16 c.frame.esp) = c.stackTop - 14 := by
    rw [Cpu.frame, lo16_setLo16]
    exact (linear_sub _ hroom).1
  have hlow : (lo16 c.frame.esp).toNat = c.sp.toNat - 14 := by
    rw [Cpu.frame, lo16_setLo16]
    exact (linear_sub c.ss hroom).2
  have hfits : c.sp.toNat ≤ c.stackTop := Nat.le_add_left _ _
  have hapart := hc.apart
  obtain ⟨d, henter, hesp, -, hs⟩ := enter_spec ret vector hc
  have hresult : handlerResult handler ret vector c = (handler (vector.setWidth 8)
      (handlerFrame c.frame.esp c.ss c.frame)
      ((handlerFrame c.frame.esp c.ss c.frame).store d.mem 0x9CFD0)).1 := by
    simp only [handlerResult, henter, hesp, completeFrame_eq hs]
  obtain ⟨m, hrun, hs'⟩ := itrRealModeInterrupt_spec hs hhandler (by rw [hbase]; omega) rfl
    (by rw [hbase]; exact hkept _ _ _)
  rw [← hresult] at hs'
  generalize handlerResult handler ret vector c = g at hs'
  have hsentinel : m.read32 0x9C008 = 0x12345678 := hs'.sentinel.1
  obtain ⟨esp, hregisters⟩ := restoreRegisters_spec (c := leave32 { d with mem := m })
    (f := g) hesp hs'.registers
  have hcaller := restoreCaller_spec (c := restoreRegisters (leave32 { d with mem := m }))
    (f := g) (by rw [hregisters]) (by rw [hregisters]; exact hs') (by omega)
  refine ⟨restoreCaller (restoreRegisters (leave32 { d with mem := m })), ?_, ?_, ?_, ?_⟩
  · simp only [realModeInterrupt, henter, hesp, hrun, hsentinel, if_true]
  · intro r
    rw [hcaller, hregisters]
    cases r <;> rfl
  · rw [hcaller]
  · rw [hcaller]
    show setLo16 (setLo16 c.esp (c.sp - 14)) (lo16 (setLo16 c.esp (c.sp - 14)) + 14) = c.esp
    rw [lo16_setLo16, setLo16_setLo16, BitVec.sub_add_cancel]
    exact hi16_append_lo16 _

/-- After the `iret` of an INT that the handler answered with `g`: the registers
in `F` have what it stored, all others and `SS:ESP` what they had. -/
structure RegistersReturned (F : FrameField → Prop) (c : Cpu) (g : ItrFrameRealMode) (d : Cpu) :
    Prop where
  changed : ∀ r, F r → d.reg r = r.get g
  kept : ∀ r, ¬ F r → d.reg r = c.reg r
  ss : d.ss = c.ss
  esp : d.esp = c.esp

theorem ebp_low_iff {ebp : U32} : ebp &&& 0xFFFF = ebp ↔ ebp.toNat < 2 ^ 16 := by
  have hmask : (0xFFFF : U32).toNat = 2 ^ 16 - 1 := rfl
  rw [← BitVec.toNat_inj, BitVec.toNat_and, hmask, Nat.and_two_pow_sub_one_eq_mod]
  omega

/-- The INT returns, and the registers are returned exactly if the handler sets
`ebp` or its high half was 0. -/
theorem registers_returned_iff (ret : U32) {vector : U16} (hc : CallerStack c)
    (hhandler : handlers vector = some handler)
    (hF : ChangesOnly F (c.stackTop - 14) handler) :
    ∃ d, realModeInterrupt handlers ret vector c = some d ∧
      (RegistersReturned F c (handlerResult handler ret vector c) d ↔
        F .ebp ∨ c.ebp.toNat < 2 ^ 16) := by
  obtain ⟨d, hrun, hregs, hss, hesp⟩ := realModeInterrupt_spec ret hc hhandler hF.memory
  obtain ⟨m, hresult⟩ := handlerResult_spec handler ret vector hc
  -- a register that is not in `F` comes back as the handler got it
  have hkept : ∀ r, ¬ F r → d.reg r = if r = .ebp then c.ebp &&& 0xFFFF else c.reg r := by
    intro r hr
    rw [hregs, hresult, hF.fields _ _ _ r hr, get_handlerFrame]
  refine ⟨d, hrun, ?_, ?_⟩
  · intro returned
    by_cases hebp : F .ebp
    · exact .inl hebp
    · refine .inr (ebp_low_iff.mp ?_)
      exact (hkept .ebp hebp).symm.trans (returned.kept .ebp hebp)
  · intro hcond
    refine ⟨fun r _ => hregs r, ?_, hss, hesp⟩
    intro r hr
    rw [hkept r hr]
    split
    · rename_i hebp
      subst hebp
      exact ebp_low_iff.mpr (hcond.resolve_left hr)
    · rfl

/-! ### Two handlers -/

/-- Registers for an INT at `0x8000:0x0100`, with `ebp` as given. -/
def atInterrupt (ebp : U32) : Cpu where
  eax := 0xA1A20041
  ebx := 0xB1B2B3B4
  ecx := 0xC1C2C3C4
  edx := 0xD1D2D3D4
  esi := 0x51525354
  edi := 0x61626364
  ebp := ebp
  esp := 0x100
  cs := 0x1000
  ds := 0x2000
  es := 0x3000
  fs := 0x4000
  gs := 0x5000
  ss := 0x8000
  ip := 0x200
  flags := 0x202
  cr0 := 0
  mem := .zeros

theorem callerStack_atInterrupt (ebp : U32) : CallerStack (atInterrupt ebp) :=
  ⟨by show 14 ≤ 256; omega, .inl (by show 524544 ≤ 0x9C000; omega)⟩

/-- It puts the vector into AH and sets the carry flag. -/
def refuse : ItrHandlerRealMode := fun v f m => ((f.setAh v).setCarry, m)

/-- It is installed for every vector. -/
def refuseHandlers : U16 → Option ItrHandlerRealMode := fun _ => some refuse

theorem changesOnly_refuse {base : Nat} :
    ChangesOnly (fun r => r = .eax ∨ r = .flags) base refuse := by
  refine ⟨fun v f m r hr => ?_, fun _ _ _ _ _ => rfl⟩
  cases r with
  | eax => exact absurd (.inl rfl) hr
  | flags => exact absurd (.inr rfl) hr
  | _ => rfl

/-- With `ebp` below 2^16, EAX and the flags are what the handler has made of them, and all other
registers come back. -/
theorem registers_returned_iff_refuse :
    ∃ d, realModeInterrupt refuseHandlers 0xF1000 0x15 (atInterrupt 0x1234) = some d ∧
      RegistersReturned (fun r => r = .eax ∨ r = .flags) (atInterrupt 0x1234)
        (handlerResult refuse 0xF1000 0x15 (atInterrupt 0x1234)) d := by
  have hrefuse : refuseHandlers 0x15 = some refuse := rfl
  obtain ⟨d, hrun, hiff⟩ := registers_returned_iff 0xF1000 (callerStack_atInterrupt 0x1234) hrefuse
    changesOnly_refuse
  exact ⟨d, hrun, hiff.mpr (.inr (by decide))⟩

/-- It leaves the frame and memory alone. -/
def idle : ItrHandlerRealMode := fun _ f m => (f, m)

def idleHandlers : U16 → Option ItrHandlerRealMode := fun _ => some idle

theorem changesOnly_idle {base : Nat} : ChangesOnly (fun _ => False) base idle :=
  ⟨fun _ _ _ _ _ => rfl, fun _ _ _ _ _ => rfl⟩

/-- `ebp = 0x12345678` comes back as `0x5678`. -/
theorem registers_returned_fails :
    ¬ ∀ (F : FrameField → Prop) (handlers : U16 → Option ItrHandlerRealMode)
        (handler : ItrHandlerRealMode) (ret : U32) (vector : U16) (c : Cpu), CallerStack c →
      handlers vector = some handler → ChangesOnly F (c.stackTop - 14) handler →
      ∃ d, realModeInterrupt handlers ret vector c = some d ∧
        RegistersReturned F c (handlerResult handler ret vector c) d := by
  intro h
  have hc := callerStack_atInterrupt 0x12345678
  have hidle : idleHandlers 0x13 = some idle := rfl
  obtain ⟨d, hrun, returned⟩ :=
    h (fun _ => False) idleHandlers idle 0xF1000 0x13 _ hc hidle changesOnly_idle
  obtain ⟨d', hrun', hregs, -⟩ := realModeInterrupt_spec 0xF1000 hc hidle changesOnly_idle.memory
  obtain ⟨rfl⟩ := hrun.symm.trans hrun'
  obtain ⟨m, hresult⟩ := handlerResult_spec idle 0xF1000 0x13 hc
  have hebp := returned.kept .ebp not_false
  rw [hregs, hresult] at hebp
  have hne : ¬ (0x5678 : U32) = 0x12345678 := by decide
  exact hne hebp

end MyBios
