import MyBios.Pci.Access
import MyBios.Pci.Find

/-!
Enabling bus mastering, I/O and memory in the command register of a device.

The command register is the lower half of the dword at offset 4, and the status register
is its upper half. The functions write the dword back as a whole, and the error bits of the
status are cleared by writing 1 to them.

`enables_iff`: the calls set their command bits and change nothing else exactly when no
error bit is set, or there are no calls. `enableAll_total` says what they do in any case.
-/

namespace MyBios

open Prog

section Programs

variable {κ : Type} [ConfigSpace κ]

/-- What the three functions have in common: the register is read, and written back with
one more bit. -/
def pciEnable (bit : U32) (dev : PciDevice) : Prog (Pci κ) Unit := do
  let command ← pciConfigRead dev 4
  pciConfigWrite dev 4 (command ||| bit)

def pciEnableBusMastering (dev : PciDevice) : Prog (Pci κ) Unit := pciEnable 0x4 dev
def pciEnableIo (dev : PciDevice) : Prog (Pci κ) Unit := pciEnable 0x1 dev
def pciEnableMemory (dev : PciDevice) : Prog (Pci κ) Unit := pciEnable 0x2 dev

/-- A call of one of the three. -/
inductive EnableCall where
  | busMastering
  | io
  | memory
  deriving DecidableEq, Repr

namespace EnableCall

def run (dev : PciDevice) : EnableCall → Prog (Pci κ) Unit
  | busMastering => pciEnableBusMastering dev
  | io => pciEnableIo dev
  | memory => pciEnableMemory dev

/-- Its bit of the command register. -/
def bit : EnableCall → U32
  | busMastering => 0x4
  | io => 0x1
  | memory => 0x2

theorem run_eq (dev : PciDevice) (call : EnableCall) :
    (call.run dev : Prog (Pci κ) Unit) = pciEnable call.bit dev := by
  cases call <;> rfl

end EnableCall

/-- The calls, one after the other. -/
def enableAll (dev : PciDevice) : List EnableCall → Prog (Pci κ) Unit
  | [] => pure ()
  | call :: calls => do
    call.run dev
    enableAll dev calls

end Programs

/-! ### The register -/

/-- The bits 8 and 11 to 15 of the status register, in the dword. -/
def errorBits : U32 := 0xF9000000

/-- The dword of the command and the status register: writing 1 clears an error bit, and the
three bits of the command can be written. -/
structure CommandStatus (r : Register 32) : Prop where
  errors : r.clears = errorBits
  command : r.writable &&& 0x7 = 0x7

def commandBits : List EnableCall → U32
  | [] => 0#32
  | call :: calls => call.bit ||| commandBits calls

/-- The calls set the command bits that are theirs and change nothing else, and other calls
of the same functions come to the same. -/
structure OnlyEnables (dev : PciDevice) (calls : List EnableCall)
    (s t : Pci (U32 → Register 32)) : Prop where
  command : (registerAt dev 4 t.space).value =
    (registerAt dev 4 s.space).value ||| commandBits calls
  status : Lane.get 16 16 (registerAt dev 4 t.space).value =
    Lane.get 16 16 (registerAt dev 4 s.space).value
  others : ∀ address, address ≠ registerAddress dev.baseConfigAddress 4 →
    t.space address = s.space address
  order : ∀ calls' : List EnableCall, (∀ call, call ∈ calls' ↔ call ∈ calls) →
    Total (enableAll dev calls') s fun _ t' => t'.space = t.space

/-! ### The bits of the calls -/

section Bits

variable {calls calls' : List EnableCall} {i : Nat}

theorem getLsbD_commandBits :
    (commandBits calls).getLsbD i = calls.any fun call => call.bit.getLsbD i := by
  induction calls with
  | nil => exact BitVec.getLsbD_zero
  | cons call calls ih => rw [commandBits, BitVec.getLsbD_or, ih, List.any_cons]

/-- The bits depend on which functions are called, not on how often or in which order. -/
theorem commandBits_congr (h : ∀ call, call ∈ calls' ↔ call ∈ calls) :
    commandBits calls' = commandBits calls := by
  apply BitVec.eq_of_getLsbD_eq
  intro i _
  rw [getLsbD_commandBits, getLsbD_commandBits, Bool.eq_iff_iff, List.any_eq_true,
    List.any_eq_true]
  exact exists_congr fun call => and_congr_left' (h call)

/-- No error bit is among them, nor any bit of the status. -/
theorem commandBits_low : commandBits calls &&& 0x7 = commandBits calls := by
  induction calls with
  | nil => rfl
  | cons call calls ih =>
      have hbit : call.bit &&& 0x7 = call.bit := by cases call <;> rfl
      rw [commandBits, BitVec.and_or_distrib_right, hbit, ih]

end Bits

/-! ### What the calls do -/

section Calls

variable {dev : PciDevice} {calls : List EnableCall} {s t : Pci (U32 → Register 32)}
  {r : Register 32} {bits : U32}

/-- Command bits can be written. -/
theorem CommandStatus.writes (h : CommandStatus r) (hbits : bits &&& 0x7 = bits) :
    bits &&& r.writable = bits := by
  calc bits &&& r.writable = bits &&& 0x7 &&& r.writable := by rw [hbits]
    _ = bits &&& 0x7 := by rw [BitVec.and_assoc, BitVec.and_comm 0x7, h.command]
    _ = bits := hbits

theorem CommandStatus.write {v : U32} (h : CommandStatus r) : CommandStatus (r.write v) :=
  ⟨h.errors, h.command⟩

/-- Command bits are no error bits. -/
theorem command_and_errors (hbits : bits &&& 0x7 = bits) : bits &&& errorBits = 0#32 := by
  have hapart : (0x7 : U32) &&& errorBits = 0#32 := by decide
  rw [← hbits, BitVec.and_assoc, hapart, BitVec.and_zero]

theorem command_and_not_errors (hbits : bits &&& 0x7 = bits) :
    bits &&& ~~~errorBits = bits := by
  have hinside : (0x7 : U32) &&& ~~~errorBits = 0x7 := by decide
  rw [← hbits, BitVec.and_assoc, hinside]

theorem pciEnable_total (bit : U32) :
    Total (pciEnable bit dev) s fun _ t => t.space = putRegister dev 4
      ((registerAt dev 4 s.space).write ((registerAt dev 4 s.space).value ||| bit)) s.space :=
  ⟨(), _, (returns_readRegister.mpr ⟨rfl, rfl⟩).bind (returns_writeRegister.mpr rfl), rfl⟩

/-- What is in the register after the calls: one write of all their bits, if there are any. -/
def enabled (calls : List EnableCall) (r : Register 32) : Register 32 :=
  if calls = [] then r else r.write (r.value ||| commandBits calls)

theorem enabled_value (h : CommandStatus r) (hcalls : calls ≠ []) :
    (enabled calls r).value = (r.value &&& ~~~errorBits) ||| commandBits calls := by
  rw [enabled, if_neg hcalls, Register.value_write_or (h.writes commandBits_low), h.errors]

/-- One call more, made first. -/
theorem enabled_cons (h : CommandStatus r) (call : EnableCall) (calls : List EnableCall) :
    enabled (call :: calls) r = enabled calls (r.write (r.value ||| call.bit)) := by
  have hbit : call.bit &&& 0x7 = call.bit := by cases call <;> rfl
  by_cases hcalls : calls = []
  · subst hcalls
    rw [enabled, if_neg (List.cons_ne_nil _ _), enabled, if_pos rfl, commandBits, commandBits,
      BitVec.or_zero]
  · have hvalue : (enabled (call :: calls) r).value =
        (enabled calls (r.write (r.value ||| call.bit))).value := by
      rw [enabled_value h (List.cons_ne_nil _ _), enabled_value h.write hcalls,
        Register.value_write_or (h.writes hbit), h.errors, BitVec.and_or_distrib_right,
        command_and_not_errors hbit, BitVec.and_assoc, BitVec.and_self, commandBits,
        BitVec.or_assoc]
    refine Register.ext hvalue ?_ ?_
    · rw [enabled, if_neg (List.cons_ne_nil _ _), enabled, if_neg hcalls]
      rfl
    · rw [enabled, if_neg (List.cons_ne_nil _ _), enabled, if_neg hcalls]
      rfl

/-- What the calls do: of the register, and of nothing else. -/
theorem enableAll_total (calls : List EnableCall) (h : CommandStatus (registerAt dev 4 s.space)) :
    Total (enableAll dev calls) s fun _ t =>
      t.space = putRegister dev 4 (enabled calls (registerAt dev 4 s.space)) s.space := by
  induction calls generalizing s with
  | nil =>
      refine total_pure ?_
      rw [enabled, if_pos rfl, putRegister_at]
  | cons call calls ih =>
      rw [enableAll, EnableCall.run_eq]
      refine (pciEnable_total call.bit).bind ?_
      intro _ t ht
      have hregister : registerAt dev 4 t.space = (registerAt dev 4 s.space).write
          ((registerAt dev 4 s.space).value ||| call.bit) := by rw [ht, registerAt_put]
      refine (ih (by rw [hregister]; exact h.write)).mono ?_
      intro _ u hu
      rw [hu, hregister, ← enabled_cons h, ht, putRegister_put]

/-- Calls of the same functions have the same result. -/
theorem enabled_congr {calls' : List EnableCall} (h : ∀ call, call ∈ calls' ↔ call ∈ calls) :
    enabled calls' r = enabled calls r := by
  have hnil : calls' = [] ↔ calls = [] := by
    rw [List.eq_nil_iff_forall_not_mem, List.eq_nil_iff_forall_not_mem]
    exact forall_congr' fun call => (h call).not
  rw [enabled, enabled, commandBits_congr h]
  exact if_congr hnil rfl rfl

/-- The status register of a value with command bits added. -/
theorem status_or {v : U32} (hbits : bits &&& 0x7 = bits) :
    Lane.get 16 16 (v ||| bits) = Lane.get 16 16 v := by
  have hzero : bits >>> 16 = 0#32 := by
    rw [← hbits, BitVec.ushiftRight_and_distrib]
    exact BitVec.and_zero
  rw [Lane.get, Lane.get, BitVec.ushiftRight_or_distrib, hzero, BitVec.or_zero]

/-- The calls only enable exactly when there are none or no error bit is set. -/
theorem enables_iff (h : CommandStatus (registerAt dev 4 s.space)) :
    (Total (enableAll dev calls) s fun _ t => OnlyEnables dev calls s t) ↔
      calls = [] ∨ (registerAt dev 4 s.space).value &&& errorBits = 0 := by
  obtain ⟨_, t, hreturns, ht⟩ : Total (enableAll dev calls) s _ := enableAll_total calls h
  have hregister : registerAt dev 4 t.space = enabled calls (registerAt dev 4 s.space) := by
    rw [ht, registerAt_put]
  constructor
  · intro total
    by_cases hcalls : calls = []
    · exact .inl hcalls
    · have hcommand := (total.returns hreturns).command
      rw [hregister, enabled_value h hcalls] at hcommand
      have herrors := congrArg (· &&& errorBits) hcommand
      simp only [BitVec.and_or_distrib_right, command_and_errors commandBits_low,
        BitVec.or_zero, BitVec.and_assoc, BitVec.not_and_self] at herrors
      exact .inr (herrors.symm.trans BitVec.and_zero)
  · intro hquiet
    have hcommand : (enabled calls (registerAt dev 4 s.space)).value =
        (registerAt dev 4 s.space).value ||| commandBits calls := by
      by_cases hcalls : calls = []
      · subst hcalls
        rw [enabled, if_pos rfl, commandBits, BitVec.or_zero]
      · have hclear := hquiet.resolve_left hcalls
        rw [enabled_value h hcalls, Register.and_not_of_apart hclear]
    refine ⟨(), t, hreturns, ?_, ?_, ?_, ?_⟩
    · rw [hregister, hcommand]
    · rw [hregister, hcommand, status_or commandBits_low]
    · intro address haddress
      rw [ht, putRegister, Function.update_of_ne haddress]
    · intro calls' hmem
      refine (enableAll_total calls' h).mono ?_
      intro _ t' ht'
      rw [ht', ht, enabled_congr hmem]

end Calls

/-- A device after a reset, with `status` in its status register. -/
def commandSpace (status : U16) : Pci (U32 → Register 32) where
  address := 0
  space _ :=
    { value := status.setWidth 32 <<< 16
      writable := 0xFFFF
      clears := errorBits
      apart := by decide }
  dev := describe (fun _ => 0 : U32 → U32) 0x80000000 0 0

theorem enables_reset : Total (enableAll (commandSpace 0).dev [.busMastering, .io, .memory])
    (commandSpace 0) fun _ t =>
      OnlyEnables (commandSpace 0).dev [.busMastering, .io, .memory] (commandSpace 0) t :=
  (enables_iff ⟨rfl, by decide⟩).mpr (.inr (by decide))

/-- A signalled system error is cleared by enabling the I/O of the device. -/
theorem enables_fails :
    ¬ ∀ (dev : PciDevice) (s : Pci (U32 → Register 32)) (calls : List EnableCall),
      CommandStatus (registerAt dev 4 s.space) →
        Total (enableAll dev calls) s fun _ t => OnlyEnables dev calls s t := by
  intro h
  have hregister : CommandStatus (registerAt (commandSpace 0x4000).dev 4
      (commandSpace 0x4000).space) := ⟨rfl, by decide⟩
  have total := h (commandSpace 0x4000).dev (commandSpace 0x4000) [.io] hregister
  obtain ⟨_, t, hreturns, ht⟩ := enableAll_total [.io] hregister
  have hstatus := (total.returns hreturns).status
  rw [ht, registerAt_put] at hstatus
  exact absurd hstatus (by decide)

end MyBios
