import MyBios.Pci.Lens

/-!
Whether the devices of different slots are kept apart.

An access goes to the address that the handle of a device has, with the offset in its low
byte. The encoder of that address keeps 7 bits of the bus number, so the slots of bus `n`
and of bus `n + 128` share their registers.

`isolated_iff`: among some slots, a write through the handle of one is never seen through
the handle of another one exactly when no two of them have the same device number and bus
numbers that are equal modulo 128.
-/

namespace MyBios

open Prog

/-! ### Handles and accesses -/

/-- `dev` is what `pci_get_device` returned for the slot, in some state. -/
def IsHandle (slot : PciSlot) (dev : PciDevice) : Prop :=
  ∃ s t : Pci Dwords,
    (pciGetDevice (BitVec.ofNat 8 slot.1) (BitVec.ofNat 8 slot.2)).Returns s (some dev) t

/-- A write to the configuration space of a device. -/
inductive ConfigWrite where
  | byte (offset data : U8)
  | word (offset : U8) (data : U16)
  | dword (offset : U8) (data : U32)

namespace ConfigWrite

variable {κ : Type} [ConfigSpace κ]

def offset : ConfigWrite → U8
  | byte offset _ => offset
  | word offset _ => offset
  | dword offset _ => offset

def run (dev : PciDevice) : ConfigWrite → Prog (Pci κ) Unit
  | byte offset data => pciConfigWriteb dev offset data
  | word offset data => pciConfigWritew dev offset data
  | dword offset data => pciConfigWrite dev offset data

end ConfigWrite

/-- A write and the slot and the handle that it is made through. -/
structure HandleWrite where
  slot : PciSlot
  dev : PciDevice
  handle : IsHandle slot dev
  write : ConfigWrite

/-- The writes, one after the other. -/
def writeAll : List HandleWrite → Prog (Pci Dwords) Unit
  | [] => pure ()
  | w :: writes => do
    w.write.run w.dev
    writeAll writes

/-- A read returns the same in both states. -/
def SameRead {α : Type} (read : Prog (Pci Dwords) α) (s t : Pci Dwords) : Prop :=
  ∃ v s' t', read.Returns s v s' ∧ read.Returns t v t'

/-- All reads of a device return the same in both states. -/
structure SameReads (dev : PciDevice) (s t : Pci Dwords) : Prop where
  byte : ∀ offset, SameRead (pciConfigReadb dev offset) s t
  word : ∀ offset, SameRead (pciConfigReadw dev offset) s t
  dword : ∀ offset, SameRead (pciConfigRead dev offset) s t

/-- The devices in these slots are kept apart. -/
structure Isolated (slots : Set PciSlot) : Prop where
  /-- A slot and an aligned offset have an address of their own. -/
  addresses : ∀ slot ∈ slots, ∀ slot' ∈ slots, ∀ dev dev', IsHandle slot dev → IsHandle slot' dev' →
    ∀ offset offset', registerAddress dev.baseConfigAddress offset =
      registerAddress dev'.baseConfigAddress offset' →
        slot = slot' ∧ offset &&& 0xFC = offset' &&& 0xFC
  /-- Writes through the handles of other slots are not seen. -/
  unseen : ∀ writes : List HandleWrite, ∀ slot ∈ slots, ∀ dev, IsHandle slot dev →
    (∀ w ∈ writes, w.slot ∈ slots ∧ w.slot ≠ slot) →
      ∀ s, Total (writeAll writes) s fun _ t => SameReads dev s t

/-! ### The address of a handle -/

section Addresses

variable {slot slot' : PciSlot} {dev dev' : PciDevice} {offset offset' : U8} {i : Nat}

/-- The base address of a handle is that of the slot it reaches. -/
theorem handle_base (hslot : slot ∈ slotsFrom 0 256) (h : IsHandle slot dev) :
    dev.baseConfigAddress = slotAddress (reached slot) := by
  obtain ⟨s, t, hreturns⟩ := h
  obtain ⟨-, hbus, hdev⟩ := mem_slotsFrom.mp hslot
  have hresult := ((pciGetDevice_total slot (by omega) hdev).returns hreturns).1
  split at hresult
  · obtain rfl := Option.some.inj hresult
    rfl
  · cases hresult

/-- In some state there is a handle. -/
theorem handle_exists (hslot : slot ∈ slotsFrom 0 256) : ∃ dev, IsHandle slot dev := by
  obtain ⟨-, hbus, hdev⟩ := mem_slotsFrom.mp hslot
  have answers : ¬ (0 : U32) = 0xFFFFFFFF := by decide
  exact ⟨_, ⟨0, fun _ => 0, describe (fun _ => 0 : Dwords) 0 0 0⟩, _,
    pciGetDevice_present slot (by omega) hdev answers⟩

/-- The bits of an address: the bus number from 16 on, the device number from 11 on. -/
theorem getLsbD_slotAddress (hi : i < 31) : (slotAddress slot).getLsbD i =
    ((decide (16 ≤ i) && slot.1.testBit (i - 16)) ||
      (decide (11 ≤ i) && slot.2.testBit (i - 11))) := by
  have enable : ((0x80000000 : Nat) : U32) = BitVec.twoPow 32 31 := rfl
  rw [slotAddress, enable, BitVec.getLsbD_or, BitVec.getLsbD_or, BitVec.getLsbD_twoPow,
    BitVec.getLsbD_shiftLeft, BitVec.getLsbD_shiftLeft, BitVec.getLsbD_ofNat,
    BitVec.getLsbD_ofNat, decide_eq_false (by omega : ¬ 31 = i)]
  have hwidth : i < 32 ∧ i - 16 < 32 ∧ i - 11 < 32 := by omega
  have hfrom : ∀ k, (!decide (i < k)) = decide (k ≤ i) := by
    intro k
    rw [← decide_not, decide_eq_decide, Nat.not_lt]
  simp [hwidth, hfrom]

theorem slotAddress_device : Lane.get 5 11 (slotAddress slot) = BitVec.ofNat 5 slot.2 := by
  apply BitVec.eq_of_getLsbD_eq
  intro i hi
  rw [Lane.getLsbD_get, getLsbD_slotAddress (by omega), decide_eq_true hi,
    decide_eq_false (by omega), decide_eq_true (by omega), Nat.add_sub_cancel_left,
    BitVec.getLsbD_ofNat, decide_eq_true hi]
  rfl

theorem slotAddress_bus (hdev : slot.2 < 32) :
    Lane.get 8 16 (slotAddress slot) = BitVec.ofNat 8 slot.1 := by
  apply BitVec.eq_of_getLsbD_eq
  intro i hi
  have hdevice : slot.2.testBit (16 + i - 11) = false :=
    Nat.testBit_lt_two_pow (Nat.lt_of_lt_of_le (show slot.2 < 2 ^ 5 from hdev)
      (Nat.pow_le_pow_right (by omega) (by omega)))
  rw [Lane.getLsbD_get, getLsbD_slotAddress (by omega), hdevice, decide_eq_true hi,
    decide_eq_true (by omega), Bool.and_false, Bool.or_false, Nat.add_sub_cancel_left,
    BitVec.getLsbD_ofNat, decide_eq_true hi]
  rfl

/-- Slots have addresses of their own, as far as the whole bus number is in them. -/
theorem slotAddress_inj (hslot : slot ∈ slotsFrom 0 256) (hslot' : slot' ∈ slotsFrom 0 256)
    (hbus : Lane.get 8 16 (slotAddress slot) = Lane.get 8 16 (slotAddress slot'))
    (hdevice : Lane.get 5 11 (slotAddress slot) = Lane.get 5 11 (slotAddress slot')) :
    slot = slot' := by
  obtain ⟨-, hbus₁, hdev₁⟩ := mem_slotsFrom.mp hslot
  obtain ⟨-, hbus₂, hdev₂⟩ := mem_slotsFrom.mp hslot'
  rw [slotAddress_bus hdev₁, slotAddress_bus hdev₂] at hbus
  rw [slotAddress_device, slotAddress_device] at hdevice
  have hbusNat := congrArg BitVec.toNat hbus
  have hdeviceNat := congrArg BitVec.toNat hdevice
  rw [BitVec.toNat_ofNat, BitVec.toNat_ofNat] at hbusNat hdeviceNat
  exact Prod.ext (by omega) (by omega)

theorem reached_mem (hslot : slot ∈ slotsFrom 0 256) : reached slot ∈ slotsFrom 0 256 := by
  obtain ⟨-, hbus, hdev⟩ := mem_slotsFrom.mp hslot
  refine mem_slotsFrom.mpr ⟨Nat.zero_le _, ?_, hdev⟩
  show slot.1 % 128 < 0 + 256
  omega

/-- Equal addresses are those of one slot that is reached, and of one dword. -/
theorem handle_address (hslot : slot ∈ slotsFrom 0 256) (hslot' : slot' ∈ slotsFrom 0 256)
    (h : IsHandle slot dev) (h' : IsHandle slot' dev') :
    registerAddress dev.baseConfigAddress offset = registerAddress dev'.baseConfigAddress offset' ↔
      reached slot = reached slot' ∧ offset &&& 0xFC = offset' &&& 0xFC := by
  rw [handle_base hslot h, handle_base hslot' h']
  constructor
  · intro heq
    have hoffset := congrArg (Lane.get 8 0) heq
    have hbase := congrArg (Lane.get 24 8) heq
    rw [registerAddress_offset, registerAddress_offset] at hoffset
    rw [registerAddress_base, registerAddress_base] at hbase
    have hbus := congrArg (Lane.get 8 8) hbase
    have hdevice := congrArg (Lane.get 5 3) hbase
    rw [Lane.get_get (by omega), Lane.get_get (by omega)] at hbus hdevice
    exact ⟨slotAddress_inj (reached_mem hslot) (reached_mem hslot') hbus hdevice, hoffset⟩
  · rintro ⟨hreached, hoffset⟩
    rw [hreached, registerAddress, hoffset, registerAddress]

end Addresses

/-! ### Runs of writes -/

section Runs

variable {dev : PciDevice} {s t : Pci Dwords}

/-- A write changes one dword of its device. -/
theorem configWrite_total (write : ConfigWrite) (s : Pci Dwords) :
    Total (write.run dev) s fun _ t => ∀ address,
      address ≠ registerAddress dev.baseConfigAddress write.offset →
        t.space address = s.space address := by
  cases write with
  | byte offset data =>
      exact ⟨(), _, returns_configWriteb.mpr rfl, fun _ h => Function.update_of_ne h _ _⟩
  | word offset data =>
      exact ⟨(), _, returns_configWritew.mpr rfl, fun _ h => Function.update_of_ne h _ _⟩
  | dword offset data =>
      exact ⟨(), _, returns_configWrite.mpr rfl, fun _ h => Function.update_of_ne h _ _⟩

/-- A run of writes keeps the dwords that none of them goes to. -/
theorem writeAll_total (writes : List HandleWrite) (s : Pci Dwords) :
    Total (writeAll writes) s fun _ t => ∀ address,
      (∀ w ∈ writes, address ≠ registerAddress w.dev.baseConfigAddress w.write.offset) →
        t.space address = s.space address := by
  induction writes generalizing s with
  | nil => exact total_pure fun _ _ => rfl
  | cons w writes ih =>
      refine (configWrite_total w.write s).bind ?_
      intro _ t ht
      refine (ih t).mono ?_
      intro _ u hu address hother
      rw [hu address fun w' hw' => hother w' (List.mem_cons_of_mem _ hw'),
        ht address (hother w List.mem_cons_self)]

/-- Reads of a device depend on its dwords only. -/
theorem sameReads (h : ∀ offset, dwordAt dev offset t.space = dwordAt dev offset s.space) :
    SameReads dev s t where
  byte offset := ⟨_, _, _, returns_configReadb.mpr ⟨rfl, rfl⟩,
    returns_configReadb.mpr ⟨by rw [h], rfl⟩⟩
  word offset := ⟨_, _, _, returns_configReadw.mpr ⟨rfl, rfl⟩,
    returns_configReadw.mpr ⟨by rw [h], rfl⟩⟩
  dword offset := ⟨_, _, _, returns_configRead.mpr ⟨rfl, rfl⟩,
    returns_configRead.mpr ⟨by rw [h], rfl⟩⟩

end Runs

/-! ### When slots are kept apart -/

/-- The devices are kept apart exactly when no two of the slots are reached by the same
addresses. -/
theorem isolated_iff (slots : Set PciSlot) (range : ∀ slot ∈ slots, slot ∈ slotsFrom 0 256) :
    Isolated slots ↔ ∀ slot ∈ slots, ∀ slot' ∈ slots,
      slot.2 = slot'.2 → slot.1 % 128 = slot'.1 % 128 → slot = slot' := by
  constructor
  · intro isolated slot hslot slot' hslot' hdevice hbus
    obtain ⟨dev, hdev⟩ := handle_exists (range slot hslot)
    obtain ⟨dev', hdev'⟩ := handle_exists (range slot' hslot')
    have hreached : reached slot = reached slot' := Prod.ext hbus hdevice
    have haddress : registerAddress dev.baseConfigAddress 0 =
        registerAddress dev'.baseConfigAddress 0 :=
      (handle_address (range slot hslot) (range slot' hslot') hdev hdev').mpr ⟨hreached, rfl⟩
    exact (isolated.addresses slot hslot slot' hslot' dev dev' hdev hdev' 0 0 haddress).1
  · intro distinct
    have addresses : ∀ slot ∈ slots, ∀ slot' ∈ slots, ∀ dev dev', IsHandle slot dev →
        IsHandle slot' dev' → ∀ offset offset', registerAddress dev.baseConfigAddress offset =
          registerAddress dev'.baseConfigAddress offset' →
            slot = slot' ∧ offset &&& 0xFC = offset' &&& 0xFC := by
      intro slot hslot slot' hslot' dev dev' hdev hdev' offset offset' haddress
      obtain ⟨hreached, hoffset⟩ :=
        (handle_address (range slot hslot) (range slot' hslot') hdev hdev').mp haddress
      have hboth := Prod.mk.inj hreached
      exact ⟨distinct slot hslot slot' hslot' hboth.2 hboth.1, hoffset⟩
    refine ⟨addresses, ?_⟩
    intro writes slot hslot dev hdev hothers s
    refine (writeAll_total writes s).mono ?_
    intro _ t ht
    refine sameReads fun offset => ht _ ?_
    intro w hw haddress
    obtain ⟨hwslot, hne⟩ := hothers w hw
    exact hne (addresses slot hslot w.slot hwslot dev w.dev hdev w.handle _ _ haddress).1.symm

/-- Slots of the first 128 buses. -/
theorem isolated_low : Isolated {slot | slot ∈ slotsFrom 0 128} :=
  (isolated_iff _ fun slot hslot => by
    have hlow := mem_slotsFrom.mp hslot
    exact mem_slotsFrom.mpr ⟨hlow.1, by omega, hlow.2.2⟩).mpr fun slot hslot slot' hslot' hdevice
      hbus => by
    have hlow := mem_slotsFrom.mp hslot
    have hlow' := mem_slotsFrom.mp hslot'
    exact Prod.ext (by omega) hdevice

/-- Over all the slots that `pci_find_device` goes through, (0, 0) and (128, 0) share their
registers. -/
theorem isolated_fails : ¬ Isolated {slot | slot ∈ slotsFrom 0 256} := by
  intro isolated
  have hslot : (0, 0) ∈ slotsFrom 0 256 := mem_slotsFrom.mpr (by decide)
  have hslot' : (128, 0) ∈ slotsFrom 0 256 := mem_slotsFrom.mpr (by decide)
  obtain ⟨dev, hdev⟩ := handle_exists hslot
  obtain ⟨dev', hdev'⟩ := handle_exists hslot'
  have haddress : registerAddress dev.baseConfigAddress 0 =
      registerAddress dev'.baseConfigAddress 0 :=
    (handle_address hslot hslot' hdev hdev').mpr ⟨rfl, rfl⟩
  have heq := (isolated.addresses _ hslot _ hslot' dev dev' hdev hdev' 0 0 haddress).1
  exact absurd heq (by decide)

end MyBios
