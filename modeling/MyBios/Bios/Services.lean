import MyBios.Ata.Polling
import MyBios.Bios.BlockMove
import MyBios.Bios.Keyboard
import MyBios.Bios.Service
import MyBios.Interrupt.Serve
import MyBios.Keyboard.Footprint

/-!
The services of the BIOS (`bios_init`), as a real-mode caller sees them.

`bios_init` installs seven handlers. Their replies go through the frame, so nothing in
the code says which registers a caller gets back as they were: that is the convention
that `BiosService.registers` and `BiosService.flagMask` write down, and the bytes that a
service may store to are `BiosService.Touches`.

* `services_return`: for all devices and all requests, an INT to one of the seven that
  returns has changed these registers, flags and bytes only.
-/

namespace MyBios

open Prog

/-! ### The handlers -/

namespace ItrFrameRealMode

variable (f : ItrFrameRealMode)

def setCx (v : U16) : ItrFrameRealMode := { f with ecx := setLo16 f.ecx v }
def setDx (v : U16) : ItrFrameRealMode := { f with edx := setLo16 f.edx v }

end ItrFrameRealMode

/-- `bios_handle_memory_size_interrupt`. -/
def biosHandleMemorySizeInterrupt (frame : ItrFrameRealMode) : ItrFrameRealMode :=
  frame.setAx (640 - 16)

/-- `bios_handle_get_system_time`. -/
def biosHandleGetSystemTime (frame : ItrFrameRealMode) : Prog ByteMem ItrFrameRealMode := do
  let ticks ← gets Bda.irq0Counter
  let seconds := ticks / 18
  pure (((frame.setDx ((seconds &&& 0xFFFF).setWidth 16)).setCx
    (((seconds >>> 16) &&& 0xFFFF).setWidth 16)).clearCarry)

/-- `bios_handle_get_equipment_list`. -/
def biosHandleGetEquipmentList (frame : ItrFrameRealMode) : ItrFrameRealMode :=
  let numFloppies : U32 := 0
  let mathCoprocessor : U32 := 1
  let initialVideoMode : U32 := 0x10
  let numSerialPorts : U32 := 2
  let gamePort : U32 := 0
  let numParallelPorts : U32 := 1
  frame.setAx (((if numFloppies ≠ 0 then 1 else 0) ||| (mathCoprocessor <<< 1) |||
    (initialVideoMode <<< 4) ||| (numSerialPorts <<< 9) ||| (gamePort <<< 12) |||
    (numParallelPorts <<< 14) : U32).setWidth 16)

/-- `bios_handle_serial_port`. -/
def biosHandleSerialPort (frame : ItrFrameRealMode) : ItrFrameRealMode :=
  if frame.al = 0x0 ∨ frame.al = 0x1 ∨ frame.al = 0x2 ∨ frame.al = 0x3 ∨ frame.al = 0x4 then
    frame.clearCarry
  else frame.setCarry

/-! ### The table -/

inductive BiosService where
  | disk | keyboard | equipment | memorySize | systemTime | serial | int15
  deriving DecidableEq

namespace BiosService

def vector : BiosService → U16
  | disk => 0x13
  | keyboard => 0x16
  | equipment => 0x11
  | memorySize => 0x12
  | systemTime => 0x1A
  | serial => 0x14
  | int15 => 0x15

end BiosService

section Code

variable {σ δ : Type} [Bus δ]

/-- `itr_set_real_mode_handler`. -/
def itrSetRealModeHandler (vector : U16) (handler : ServiceRealMode σ)
    (table : U16 → Option (ServiceRealMode σ)) : U16 → Option (ServiceRealMode σ) :=
  fun v => if v = vector then some handler else table v

/-- The memory of the machine. -/
def AtaState.memLens (δ : Type) : MemLens (AtaState δ) where
  get s := s.machine.mem
  set m s := { s with machine := { s.machine with mem := m } }
  get_set _ _ := rfl
  set_get _ := rfl
  set_set _ _ _ := rfl

def onMem {α : Type} (p : Prog ByteMem α) : Prog (AtaState δ) α :=
  zoom (AtaState.memLens δ).toLens p

/-- The handlers; `beyond` is what is behind the tables of the keyboard. -/
def BiosService.handler (beyond : U8 → U8) : BiosService → ServiceRealMode (AtaState δ)
  | disk => fun _ frame => biosHandleDiskInterrupt frame
  | keyboard => fun _ frame => onMachine (biosHandleKeyboardInterrupt beyond false frame)
  | equipment => fun _ frame => pure (biosHandleGetEquipmentList frame)
  | memorySize => fun _ frame => pure (biosHandleMemorySizeInterrupt frame)
  | systemTime => fun _ frame => onMem (biosHandleGetSystemTime frame)
  | serial => fun _ frame => pure (biosHandleSerialPort frame)
  | int15 => fun _ frame => onMem (biosHandleInt15 frame)

/-- `bios_init`. -/
def biosInit (beyond : U8 → U8) (table : U16 → Option (ServiceRealMode (AtaState δ))) :
    U16 → Option (ServiceRealMode (AtaState δ)) :=
  let table := itrSetRealModeHandler 0x13 (BiosService.disk.handler beyond) table
  let table := itrSetRealModeHandler 0x16 (BiosService.keyboard.handler beyond) table
  let table := itrSetRealModeHandler 0x11 (BiosService.equipment.handler beyond) table
  let table := itrSetRealModeHandler 0x12 (BiosService.memorySize.handler beyond) table
  let table := itrSetRealModeHandler 0x1A (BiosService.systemTime.handler beyond) table
  let table := itrSetRealModeHandler 0x14 (BiosService.serial.handler beyond) table
  itrSetRealModeHandler 0x15 (BiosService.int15.handler beyond) table

end Code

/-! ### The convention -/

namespace BiosService

/-- The registers that a service may change, each in its low half. -/
def registers : BiosService → List FrameField
  | disk => [.eax, .ecx, .edx]
  | keyboard => [.eax]
  | equipment => [.eax]
  | memorySize => [.eax]
  | systemTime => [.ecx, .edx]
  | serial => []
  | int15 => [.eax, .ebx]

/-- The flags that it may change: carry, or for the keyboard the zero flag. -/
def flagMask : BiosService → U16
  | disk | systemTime | serial | int15 => 0x1
  | keyboard => 0x40
  | equipment | memorySize => 0

/-- The bytes that it may store to, when memory is `m` at the request: a sector buffer, the
data area, or the destination of a block move. -/
def Touches (frame : ItrFrameRealMode) (m : ByteMem) (x : Nat) : BiosService → Prop
  | disk => frame.ah = 0x2 ∧ frame.dl = 0x80 ∧
      ∃ k < 512 * frame.al.toNat, x = bufferAddr (int13Buffer frame) k
  | keyboard => 0x400 ≤ x ∧ x < 0x500
  | int15 => frame.ah = 0x87 ∧
      BlockMove.InRange (descriptorBase (BlockMove.gdt frame + 0x1A) m).toNat (2 * frame.cx.toNat) x
  | equipment | memorySize | systemTime | serial => False

end BiosService

/-- A reply changes only the registers `R`, in their low halves, and the flags in `k`. -/
structure Changes (R : List FrameField) (k : U16) (f g : ItrFrameRealMode) : Prop where
  other : ∀ r : FrameField, r ∉ R → r ≠ .flags → r.get g = r.get f
  high : ∀ r : FrameField, r ≠ .flags → hi16 (r.get g) = hi16 (r.get f)
  flags : g.flags &&& ~~~k = f.flags &&& ~~~k

section Changes

variable {R : List FrameField} {k : U16} {f g g' : ItrFrameRealMode} {v : U8} {w : U16}

theorem hi16_setLo8 {r : U32} : hi16 (setLo8 r v) = hi16 r := hi16_append _ _

theorem hi16_setHi8 {r : U32} : hi16 (setHi8 r v) = hi16 r := hi16_append _ _

namespace Changes

theorem refl : Changes R k f f := ⟨fun _ _ _ => rfl, fun _ _ => rfl, rfl⟩

/-- Set one more register. -/
theorem set (q : FrameField) (h : Changes R k f g) (hR : q ∈ R)
    (hother : ∀ r : FrameField, r ≠ q → r.get g' = r.get g)
    (hhigh : hi16 (q.get g') = hi16 (q.get g)) (hflags : g'.flags = g.flags) :
    Changes R k f g' where
  other r hr hne := by
    refine (hother r ?_).trans (h.other r hr hne)
    rintro rfl
    exact hr hR
  high r hne := by
    by_cases hr : r = q
    · subst hr
      exact hhigh.trans (h.high r hne)
    · rw [hother r hr]
      exact h.high r hne
  flags := by rw [hflags, h.flags]

theorem eax {x : U32} (h : Changes R k f g) (hR : .eax ∈ R) (hx : hi16 x = hi16 g.eax) :
    Changes R k f { g with eax := x } :=
  h.set .eax hR (fun r hr => by cases r <;> first | rfl | exact absurd rfl hr) hx rfl

theorem ebx {x : U32} (h : Changes R k f g) (hR : .ebx ∈ R) (hx : hi16 x = hi16 g.ebx) :
    Changes R k f { g with ebx := x } :=
  h.set .ebx hR (fun r hr => by cases r <;> first | rfl | exact absurd rfl hr) hx rfl

theorem ecx {x : U32} (h : Changes R k f g) (hR : .ecx ∈ R) (hx : hi16 x = hi16 g.ecx) :
    Changes R k f { g with ecx := x } :=
  h.set .ecx hR (fun r hr => by cases r <;> first | rfl | exact absurd rfl hr) hx rfl

theorem edx {x : U32} (h : Changes R k f g) (hR : .edx ∈ R) (hx : hi16 x = hi16 g.edx) :
    Changes R k f { g with edx := x } :=
  h.set .edx hR (fun r hr => by cases r <;> first | rfl | exact absurd rfl hr) hx rfl

theorem setAx (h : Changes R k f g) (hR : .eax ∈ R) : Changes R k f (g.setAx w) :=
  h.eax hR (hi16_setLo16 _ _)

theorem setAl (h : Changes R k f g) (hR : .eax ∈ R) : Changes R k f (g.setAl v) :=
  h.eax hR hi16_setLo8

theorem setAh (h : Changes R k f g) (hR : .eax ∈ R) : Changes R k f (g.setAh v) :=
  h.eax hR hi16_setHi8

/-- Set flags, where only those in `k` differ. -/
theorem setFlags (h : Changes R k f g) (hw : w &&& ~~~k = g.flags &&& ~~~k) :
    Changes R k f { g with flags := w } where
  other r hr hne := by
    refine Eq.trans ?_ (h.other r hr hne)
    cases r <;> first | rfl | exact absurd rfl hne
  high r hne := by
    refine Eq.trans ?_ (h.high r hne)
    cases r <;> first | rfl | exact absurd rfl hne
  flags := hw.trans h.flags

/-- Clearing the flags of `k`, or setting them. -/
theorem clear (h : Changes R k f g) : Changes R k f { g with flags := g.flags &&& ~~~k } :=
  h.setFlags (by rw [BitVec.and_assoc, BitVec.and_self])

theorem raise (h : Changes R k f g) : Changes R k f { g with flags := g.flags ||| k } :=
  h.setFlags (by simp [BitVec.and_or_distrib_right])

theorem clearCarry (h : Changes R 0x1 f g) : Changes R 0x1 f g.clearCarry := h.clear

theorem setCarry (h : Changes R 0x1 f g) : Changes R 0x1 f g.setCarry := h.raise

end Changes

end Changes

/-! ### What the handlers change -/

section Handlers

variable {δ : Type} [Bus δ] {s t : AtaState δ} {frame reply : ItrFrameRealMode}

/-- The replies of INT 13h. -/
theorem disk_changes (h : (biosHandleDiskInterrupt frame).Returns s reply t) :
    Changes BiosService.disk.registers BiosService.disk.flagMask frame reply := by
  have hax : FrameField.eax ∈ BiosService.disk.registers := by decide
  have hcx : FrameField.ecx ∈ BiosService.disk.registers := by decide
  have hdx : FrameField.edx ∈ BiosService.disk.registers := by decide
  by_cases hmoves : IsTransfer frame ∧ frame.dl = 0x80
  · obtain ⟨rfl, -⟩ := (transfer_reply hmoves.1 hmoves.2).mp h
    exact ((Changes.refl.clearCarry.setAl hax).setAh hax)
  · obtain ⟨rfl, -⟩ := (returns_plain hmoves).functional h
    unfold plainReply
    split
    · split
      · exact (((((Changes.refl.setAh hax).ecx hcx hi16_setHi8).ecx hcx hi16_setLo8).edx hdx
          hi16_setHi8).edx hdx hi16_setLo8).clearCarry
      · exact Changes.refl.setCarry.setAl hax
    · split
      · exact .refl
      · split
        · exact Changes.refl.clearCarry.setAl hax
        · exact (Changes.refl.setAl hax).setCarry

theorem int15_changes {m m' : ByteMem} (h : (biosHandleInt15 frame).Returns m reply m') :
    Changes BiosService.int15.registers BiosService.int15.flagMask frame reply := by
  have hax : FrameField.eax ∈ BiosService.int15.registers := by decide
  have hbx : FrameField.ebx ∈ BiosService.int15.registers := by decide
  simp only [biosHandleInt15, returns_ite, returns_bind, returns_gets, returns_pure] at h
  split at h
  · obtain ⟨_, _, -, _, _, -, _, _, -, rfl, -⟩ := h
    exact Changes.refl.clearCarry.setAh hax
  · split at h
    · obtain ⟨_, _, -, rfl, -⟩ := h
      exact Changes.refl.clearCarry.setAl hax
    · split at h
      · split at h
        · rw [h.1]
          exact Changes.refl.clearCarry
        · split at h
          · rw [h.1]
            exact Changes.refl.clearCarry.ebx hbx (hi16_setLo16 _ _)
          · rw [h.1]
            exact .refl
      · split at h
        · rw [h.1]
          exact Changes.refl.setCarry
        · split at h
          · rw [h.1]
            exact .refl
          · rw [h.1]
            exact Changes.refl.setCarry

theorem keyboard_changes {beyond : U8 → U8} {m m' : Machine δ}
    (h : (biosHandleKeyboardInterrupt beyond false frame).Returns m reply m') :
    Changes BiosService.keyboard.registers BiosService.keyboard.flagMask frame reply := by
  have hax : FrameField.eax ∈ BiosService.keyboard.registers := by decide
  simp only [biosHandleKeyboardInterrupt, returns_ite, returns_bind, returns_gets,
    returns_pure] at h
  split at h
  · obtain ⟨c, _, -, xt, _, -, h⟩ := h
    split at h
    · rw [h.1]
      exact (Changes.refl.clear.setAh hax).setAl hax
    · rw [h.1]
      exact Changes.refl.raise.setAl hax
  · split at h
    · obtain ⟨_, _, -, c, _, -, xt, _, -, rfl, -⟩ := h
      exact (Changes.refl.setAh hax).setAl hax
    · split at h
      · obtain ⟨_, _, -, rfl, -⟩ := h
        exact Changes.refl.setAx hax
      · split at h
        · obtain ⟨_, _, -, rfl, -⟩ := h
          exact Changes.refl.setAx hax
        · rw [h.1]
          exact .refl

theorem systemTime_changes {m m' : ByteMem}
    (h : (biosHandleGetSystemTime frame).Returns m reply m') :
    Changes BiosService.systemTime.registers BiosService.systemTime.flagMask frame reply ∧
      m' = m := by
  simp only [biosHandleGetSystemTime, returns_bind, returns_gets, returns_pure] at h
  obtain ⟨_, _, ⟨rfl, rfl⟩, rfl, rfl⟩ := h
  exact ⟨((Changes.refl.edx (by decide) (hi16_setLo16 _ _)).ecx (by decide)
    (hi16_setLo16 _ _)).clearCarry, rfl⟩

end Handlers

/-! ### What they store to -/

/-- Memory is `m₀` outside the data area, and the keyboard's head is an index. -/
structure AreaOnly (m₀ m : ByteMem) : Prop where
  head : (Bda.head m).toNat < 128
  other : ∀ x, ¬ (0x400 ≤ x ∧ x < 0x500) → m x = m₀ x

section Area

open Keyboard

variable {δ : Type} [Bus δ] {m₀ m : ByteMem} {b : U8} {frame : ItrFrameRealMode}

theorem AreaOnly.updateFlags (h : AreaOnly m₀ m) : AreaOnly m₀ (updateFlags b m) where
  head := by
    rw [head_updateFlags]
    exact h.head
  other x hx := by
    rw [updateFlags_other (by rw [keyboardAddr_iff]; omega), h.other x hx]

/-- Also behind the array a make code is stored inside the area. -/
theorem AreaOnly.enqueue (h : AreaOnly m₀ m) : AreaOnly m₀ (enqueue b m) where
  head := by
    rw [MyBios.enqueue, Bda.head_setHead, toNat_nextIndex]
    omega
  other x hx := by
    have hhead := h.head
    rw [MyBios.enqueue, Bda.setHead, ByteMem.write16_other (by rw [Bda.addr_head]; omega),
      Bda.storeKeyboardBuffer, ByteMem.write8_other (by rw [Bda.addr_buffer]; omega),
      h.other x hx]

theorem AreaOnly.advanceTail (h : AreaOnly m₀ m) : AreaOnly m₀ (advanceTail m) where
  head := by
    rw [head_advanceTail]
    exact h.head
  other x hx := by rw [advanceTail_other (by rw [keyboardAddr_iff]; omega), h.other x hx]

theorem AreaOnly.keystroke (h : AreaOnly m₀ m) : AreaOnly m₀ (keystrokeMem b m) := by
  unfold keystrokeMem
  split
  · exact h.updateFlags.enqueue
  · exact h.updateFlags

theorem areaOnly_available : Keeps (fun m : Machine δ => AreaOnly m₀ m.mem) keyboardAvailable := by
  intro m a m' h hm
  rw [available_mem h]
  exact hm

theorem areaOnly_getScancode (m₀ : ByteMem) :
    Keeps (fun m : Machine δ => AreaOnly m₀ m.mem) (keyboardGetScancode false) := by
  have hprocess : Keeps (fun m : Machine δ => AreaOnly m₀ m.mem) keyboardProcessKeystroke := by
    intro m b m' h hm
    obtain ⟨io₁, io₂, -, -, rfl⟩ := returns_processKeystroke.mp h
    exact hm.keystroke
  refine Keeps.loop fun _ => keeps_gets.bind fun _ => Keeps.ite ?_ ?_
  · exact keeps_gets.bind fun _ => keeps_pure
  · exact areaOnly_available.bind fun _ => (hprocess.bind fun _ => keeps_pure).ite keeps_pure

/-- The keyboard service stores to the data area. -/
theorem areaOnly_keyboard {beyond : U8 → U8} :
    Keeps (fun m : Machine δ => AreaOnly m₀ m.mem)
      (biosHandleKeyboardInterrupt beyond false frame) := by
  have hget := areaOnly_getScancode (δ := δ) m₀
  have hwait : Keeps (fun m : Machine δ => AreaOnly m₀ m.mem) waitAvailable :=
    Keeps.loop fun _ => areaOnly_available.bind fun _ => keeps_pure
  have hpop : Keeps (fun m : Machine δ => AreaOnly m₀ m.mem) (keyboardPopScancode false) :=
    hget.bind fun _ => (keeps_modify fun _ hm => hm.advanceTail).bind fun _ => keeps_pure
  refine Keeps.ite ?_ (Keeps.ite ?_ (Keeps.ite ?_ (Keeps.ite ?_ keeps_pure)))
  · exact hget.bind fun _ => keeps_gets.bind fun _ => keeps_pure.ite keeps_pure
  · exact hwait.bind fun _ => hpop.bind fun _ => keeps_gets.bind fun _ => keeps_pure
  · exact keeps_gets.bind fun _ => keeps_pure
  · exact keeps_gets.bind fun _ => keeps_pure

end Area

/-- A transfer stores to the bytes `T` if its words do. -/
theorem transfer_touches {δ : Type} [Bus δ] {T : Nat → Prop} {dev : DevRef} {count : U16}
    {task : Bool → Taskfile} {word : Nat → Prog (AtaState δ) Nat} {s t : AtaState δ} {n : U32}
    (hword : ∀ c s c' t, c + 1 < 512 * count.toNat → (word c).Returns s c' t →
      c' = c + 2 ∧ ∀ x, ¬ T x → t.machine.mem x = s.machine.mem x)
    (h : (transfer dev count task word).Returns s n t) :
    ∀ x, ¬ T x → t.machine.mem x = s.machine.mem x := by
  obtain ⟨_, s₁, hget, h⟩ := returns_bind.mp h
  obtain ⟨rfl, rfl⟩ := returns_gets.mp hget
  obtain ⟨⟨⟩, s₂, hissue, hloop⟩ := returns_bind.mp h
  obtain rfl := returns_issue.mp hissue
  obtain ⟨c, s₃, hloop, hpure⟩ := returns_bind.mp hloop
  obtain ⟨-, rfl⟩ := returns_pure.mp hpure
  -- each pass moves a whole sector, so its words are all before the end
  obtain ⟨c', s₄, ⟨-, hs₄⟩, hlast⟩ := hloop.loop_induct
    (I := fun c u => c % 512 = 0 ∧ ∀ x, ¬ T x → u.machine.mem x = s₁.machine.mem x)
    (by
      rintro c u c' u' ⟨hc, hu⟩ hpass
      obtain ⟨hmore, v, u₁, hwait, hwords⟩ := returns_transferPass_again.mp hpass
      obtain ⟨vs, d, -, rfl⟩ := returns_ataWait.mp hwait
      obtain ⟨rfl, hmem⟩ := hwords.repeatN_induct
        (I := fun k c' u => c' = c + 2 * k ∧ ∀ x, ¬ T x → u.machine.mem x = s₁.machine.mem x)
        (by
          rintro k _ w c' w' hk ⟨rfl, hw⟩ hrun
          obtain ⟨rfl, hstored⟩ := hword _ _ _ _ (by omega) hrun
          exact ⟨by omega, fun x hx => (hstored x hx).trans (hw x hx)⟩)
        ⟨rfl, hu⟩
      exact ⟨by omega, hmem⟩)
    ⟨rfl, fun _ _ => rfl⟩
  obtain ⟨-, -, rfl⟩ := returns_transferPass_done.mp hlast
  exact hs₄

section Touches

variable {δ : Type} [Bus δ] {s t : AtaState δ} {frame reply : ItrFrameRealMode} {x : Nat}

omit [Bus δ] in
theorem mem_storeByte {a : Nat} {v : U8} (h : (onMachine (storeByte a v)).Returns s () t) :
    t.machine.mem = s.machine.mem.write8 a v := by
  simp only [onMachine, returns_zoom, returns_storeByte] at h
  obtain ⟨_, rfl, rfl⟩ := h
  rfl

theorem readWord_touches {dev : DevRef} {buffer : U32} {c c' : Nat}
    (h : (readWord dev buffer c).Returns s c' t) : c' = c + 2 ∧
      ∀ x, x ≠ bufferAddr buffer c → x ≠ bufferAddr buffer (c + 1) →
        t.machine.mem x = s.machine.mem x := by
  obtain ⟨v, s₁, hin, h⟩ := returns_bind.mp h
  obtain ⟨⟨⟩, s₂, hlow, h⟩ := returns_bind.mp h
  obtain ⟨⟨⟩, s₃, hhigh, h⟩ := returns_bind.mp h
  obtain ⟨rfl, rfl⟩ := returns_pure.mp h
  refine ⟨rfl, fun x hlow' hhigh' => ?_⟩
  obtain ⟨-, rfl⟩ := returns_ataInw.mp hin
  rw [mem_storeByte hhigh, ByteMem.write8_other hhigh', mem_storeByte hlow,
    ByteMem.write8_other hlow']
  rfl

/-- INT 13h stores to the buffer of a read. -/
theorem disk_touches (h : (biosHandleDiskInterrupt frame).Returns s reply t)
    (hx : ¬ BiosService.disk.Touches frame s.machine.mem x) :
    t.machine.mem x = s.machine.mem x := by
  by_cases hmoves : IsTransfer frame ∧ frame.dl = 0x80
  · obtain ⟨-, c, hrun⟩ := (transfer_reply hmoves.1 hmoves.2).mp h
    rw [Transfer.run_eq] at hrun
    have hcount : (frame.al.setWidth 16).toNat = frame.al.toNat :=
      BitVec.toNat_setWidth_of_le (by decide)
    refine transfer_touches (T := fun x => BiosService.disk.Touches frame s.machine.mem x) ?_ hrun
      x hx
    intro c u c' v hc hword
    rcases hmoves.1 with hah | hah
    · -- a read: the two bytes are in the buffer
      have hread : (int13Transfer (s.devAtaDrives 0) frame).write = false := by
        simp [int13Transfer, hah]
      rw [hread, if_neg (by decide)] at hword
      obtain ⟨rfl, hmem⟩ := readWord_touches hword
      have hin : c + 1 < 512 * frame.al.toNat := by
        rw [← hcount]
        exact hc
      refine ⟨rfl, fun y hy => hmem y ?_ ?_⟩
      · rintro rfl
        exact hy ⟨hah, hmoves.2, c, by omega, rfl⟩
      · rintro rfl
        exact hy ⟨hah, hmoves.2, c + 1, hin, rfl⟩
    · -- a write: memory is read only
      have hwrite : (int13Transfer (s.devAtaDrives 0) frame).write = true := by
        simp [int13Transfer, hah]
      rw [hwrite, if_pos rfl] at hword
      obtain ⟨_, u₁, hlow, hword⟩ := returns_bind.mp hword
      obtain ⟨_, u₂, hhigh, hword⟩ := returns_bind.mp hword
      obtain ⟨_, u₃, hout, hword⟩ := returns_bind.mp hword
      obtain ⟨rfl, rfl⟩ := returns_gets.mp hlow
      obtain ⟨rfl, rfl⟩ := returns_gets.mp hhigh
      obtain rfl := returns_ataOutw.mp hout
      obtain ⟨rfl, rfl⟩ := returns_pure.mp hword
      exact ⟨rfl, fun _ _ => rfl⟩
  · obtain ⟨-, rfl⟩ := (returns_plain hmoves).functional h
    rfl

theorem int15_touches {m m' : ByteMem} (h : (biosHandleInt15 frame).Returns m reply m')
    (hx : ¬ BiosService.int15.Touches frame m x) : m' x = m x := by
  by_cases hmove : frame.ah = 0x87
  · rw [biosHandleInt15, if_pos hmove] at h
    simp only [(returns_gets (s := m).mpr ⟨rfl, rfl⟩).bind_iff] at h
    obtain ⟨i, m₁, hcopy, h⟩ := returns_bind.mp h
    obtain ⟨-, rfl⟩ := returns_pure.mp h
    have hcx := frame.cx.isLt
    obtain ⟨-, hmem⟩ := hcopy.repeatN_induct
      (I := fun k (i : U32) m' => i = BitVec.ofNat 32 k ∧ m' x = m x)
      (by
        rintro k _ m' i m'' hk ⟨rfl, hm'⟩ hpass
        obtain ⟨⟨⟩, m₂, hstore, hpure⟩ := returns_bind.mp hpass
        obtain ⟨rfl, rfl⟩ := returns_pure.mp hpure
        obtain rfl := returns_modify.mp hstore
        refine ⟨(BitVec.ofNat_add k 1).symm, Eq.trans ?_ hm'⟩
        have hdest : (descriptorBase (BlockMove.gdt frame + 0x1A) m).toNat < 2 ^ 24 :=
          BlockMove.descriptorBase_lt
        have haddr := BlockMove.toNat_word (k := k) hdest (by omega)
        refine ByteMem.write16_other (Classical.byContradiction fun hin => hx ⟨hmove, ?_⟩)
        rw [BlockMove.gdt] at haddr
        rw [haddr] at hin
        rw [BlockMove.gdt, BlockMove.InRange]
        omega)
      ⟨rfl, rfl⟩
    exact hmem
  · simp only [biosHandleInt15, if_neg hmove, returns_ite, returns_bind, returns_gets,
      returns_pure] at h
    split at h
    · obtain ⟨_, _, ⟨-, rfl⟩, -, rfl⟩ := h
      rfl
    · repeat' split at h
      all_goals rw [h.2]

end Touches

/-! ### The services through an INT -/

section Call

variable {δ : Type} [Bus δ] {s t : AtaState δ} {c d : Cpu} {frame reply : ItrFrameRealMode}
  {beyond : U8 → U8} {table : U16 → Option (ServiceRealMode (AtaState δ))} {ret : U32} {v : U8}

/-- What `bios_init` has installed, whatever was in the table before. -/
theorem biosInit_vector (beyond : U8 → U8)
    (table : U16 → Option (ServiceRealMode (AtaState δ))) (service : BiosService) :
    biosInit beyond table service.vector = some (service.handler beyond) := by
  cases service <;> rfl

omit [Bus δ] in
theorem returns_onMem {α : Type} {p : Prog ByteMem α} {a : α} :
    (onMem p).Returns s a t ↔
      ∃ m, p.Returns s.machine.mem a m ∧ t = (AtaState.memLens δ).set m s :=
  returns_zoom

/-- The keyboard's head is an index of its ring, as `keyboard_init` leaves it. -/
def BiosService.Ready (m : ByteMem) (service : BiosService) : Prop :=
  service = .keyboard → (Bda.head m).toNat < 128

theorem handler_spec {service : BiosService} (hready : service.Ready s.machine.mem)
    (h : (service.handler beyond v frame).Returns s reply t) :
    Changes service.registers service.flagMask frame reply ∧
      ∀ x, ¬ service.Touches frame s.machine.mem x → t.machine.mem x = s.machine.mem x := by
  cases service with
  | disk => exact ⟨disk_changes h, fun x hx => disk_touches h hx⟩
  | keyboard =>
      obtain ⟨m, hrun, rfl⟩ := returns_zoom.mp h
      have harea := areaOnly_keyboard s.machine _ m hrun ⟨hready rfl, fun _ _ => rfl⟩
      exact ⟨keyboard_changes hrun, harea.other⟩
  | equipment =>
      obtain ⟨rfl, rfl⟩ := returns_pure.mp h
      exact ⟨Changes.refl.setAx (by decide), fun _ _ => rfl⟩
  | memorySize =>
      obtain ⟨rfl, rfl⟩ := returns_pure.mp h
      exact ⟨Changes.refl.setAx (by decide), fun _ _ => rfl⟩
  | systemTime =>
      obtain ⟨m, hrun, rfl⟩ := returns_onMem.mp h
      obtain ⟨hchanges, rfl⟩ := systemTime_changes hrun
      exact ⟨hchanges, fun _ _ => rfl⟩
  | serial =>
      obtain ⟨rfl, rfl⟩ := returns_pure.mp h
      refine ⟨?_, fun _ _ => rfl⟩
      unfold biosHandleSerialPort
      split
      · exact Changes.refl.clearCarry
      · exact Changes.refl.setCarry
  | int15 =>
      obtain ⟨m, hrun, rfl⟩ := returns_onMem.mp h
      exact ⟨int15_changes hrun, fun x hx => int15_touches hrun hx⟩

/-- The convention between a caller and a service: its registers `c` at the INT, and `d` after
it. The handler gets `ebp` without its high half. -/
structure Convention (service : BiosService) (c d : Cpu) : Prop where
  other : ∀ r, r ∉ service.registers → r ≠ .flags → r ≠ .ebp → d.reg r = c.reg r
  high : ∀ r, r ≠ .flags → r ≠ .ebp → hi16 (d.reg r) = hi16 (c.reg r)
  ebp : d.ebp = c.ebp &&& 0xFFFF
  flags : d.flags &&& ~~~service.flagMask = c.flags &&& ~~~service.flagMask
  ss : d.ss = c.ss
  esp : d.esp = c.esp

theorem convention_of_changes {service : BiosService}
    (h : Changes service.registers service.flagMask (requestFrame c) reply)
    (hregs : ∀ r, d.reg r = r.get reply) (hss : d.ss = c.ss) (hesp : d.esp = c.esp) :
    Convention service c d where
  other r hr hflags hebp := by
    rw [hregs, h.other r hr hflags, requestFrame, get_handlerFrame, if_neg hebp]
  high r hflags hebp := by
    rw [hregs, h.high r hflags, requestFrame, get_handlerFrame, if_neg hebp]
  ebp := by
    have hebp : FrameField.ebp ∉ service.registers := by cases service <;> decide
    exact (hregs .ebp).trans (h.other .ebp hebp (by decide))
  flags := by
    have hflags : d.flags = reply.flags := by
      have hset : d.flags.setWidth 32 = reply.flags.setWidth 32 := hregs .flags
      have hback := congrArg (BitVec.setWidth 16) hset
      simpa using hback
    rw [hflags]
    exact h.flags
  ss := hss
  esp := hesp

/-- Whatever the devices do: an INT to a service that stores nothing to the two stacks, and
returns, comes back as the convention says, and has stored to the bytes of the service only. -/
theorem services_return {service : BiosService} (hc : CallerStack c)
    (hready : service.Ready s.machine.mem)
    (hfree : ∀ x, OnStacks c x →
      ¬ service.Touches (requestFrame c) (entryMem ret service.vector c s.machine.mem) x)
    (h : (serveInterrupt (AtaState.memLens δ) (biosInit beyond table) ret service.vector c).Returns
      s d t) :
    Convention service c d ∧
      ∀ x, ¬ OnStacks c x →
        ¬ service.Touches (requestFrame c) (entryMem ret service.vector c s.machine.mem) x →
          t.machine.mem x = s.machine.mem x := by
  have hhandler := biosInit_vector beyond table service
  obtain ⟨g, u, hrun, -⟩ := serveInterrupt_enters hc hhandler h
  have hback := serveInterrupt_returns ret hc hhandler hrun
  have hother : ∀ x, ¬ OnStacks c x →
      entryMem ret service.vector c s.machine.mem x = s.machine.mem x := fun x hx =>
    entryMem_other hc hx
  change (service.handler beyond _ _).Returns { s with machine := { s.machine with
    mem := entryMem ret service.vector c s.machine.mem } } g u at hrun
  change (∀ x, NeededOnStacks c x → u.machine.mem x =
    entryMem ret service.vector c s.machine.mem x) → _ at hback
  generalize entryMem ret service.vector c s.machine.mem = m at hfree hrun hback hother ⊢
  have hentry : service.Ready m := by
    rintro rfl
    -- the data area is not on the stacks
    have hhead : Bda.head m = Bda.head s.machine.mem :=
      ByteMem.read16_congr fun x hlo hhi => hother x fun hx => hfree x hx
        ⟨by rw [Bda.addr_head] at hlo; omega, by rw [Bda.addr_head] at hhi; omega⟩
    rw [hhead]
    exact hready rfl
  obtain ⟨hchanges, hmem⟩ := handler_spec (s := { s with machine := { s.machine with mem := m } })
    hentry hrun
  obtain ⟨d', hserve, hregs, hss, hesp⟩ := hback fun x hx =>
    hmem x (hfree x (onStacks_of_needed hc hx))
  obtain ⟨rfl, rfl⟩ := h.functional hserve
  refine ⟨convention_of_changes hchanges hregs hss hesp, fun x hstack hx => ?_⟩
  calc exitMem c g u.machine.mem x = u.machine.mem x := exitMem_other hc hstack
    _ = m x := hmem x hx
    _ = s.machine.mem x := hother x hstack

end Call

/-! ### A call -/

/-- A machine without devices, whose memory is all 0. -/
def unpluggedMachine : AtaState Unplugged where
  machine := ⟨⟨⟨⟩, []⟩, .zeros⟩
  ataDevices _ := ⟨0, 0, false⟩
  numDevices := 0
  devAtaDrives _ := AtaDrive.empty

/-- INT 12h, with `ebp = 0x12345678`. -/
theorem services_return_memorySize :
    ∃ d t, (serveInterrupt (AtaState.memLens Unplugged) (biosInit id fun _ => none) 0xF1000
        BiosService.memorySize.vector (atInterrupt 0x12345678)).Returns unpluggedMachine d t ∧
      d.eax = 0xA1A20270 ∧ Convention .memorySize (atInterrupt 0x12345678) d := by
  have hc := callerStack_atInterrupt 0x12345678
  have hready : BiosService.memorySize.Ready unpluggedMachine.machine.mem := fun h => by cases h
  obtain ⟨d, hrun, hregs, -⟩ := serveInterrupt_returns (l := AtaState.memLens Unplugged)
    (s := unpluggedMachine) 0xF1000 hc (biosInit_vector id (fun _ => none) .memorySize)
    (returns_pure.mpr ⟨rfl, rfl⟩) fun _ _ => rfl
  exact ⟨d, _, hrun, hregs .eax, (services_return hc hready (fun _ _ => id) hrun).1⟩

end MyBios
