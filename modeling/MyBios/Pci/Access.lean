import MyBios.Lib.Lane
import MyBios.Lib.Register
import MyBios.Pci.Config

/-!
What the byte, word and dword accessors of `pci.c` do.

A byte or a word of the configuration space is a lane of its dword: a read takes the lane
out of the dword, and a write puts it back into the dword that it has just read. There
is one lemma for each accessor.

`registerSpace` is a configuration space whose dwords are device registers.
-/

namespace MyBios

open Prog

variable {κ : Type} [ConfigSpace κ] {s t : Pci κ} {dev : PciDevice} {offset : U8} {u : Unit}

/-! ### Addresses -/

theorem and_dword : offset &&& 0xFC &&& 0xFC = offset &&& 0xFC := by
  rw [BitVec.and_assoc, BitVec.and_self]

/-- The dword that holds an offset does not depend on the low two bits. -/
@[simp] theorem registerAddress_dword {base : U32} :
    registerAddress base (offset &&& 0xFC) = registerAddress base offset := by
  rw [registerAddress, and_dword, registerAddress]

theorem and_three_lt (o : U8) : (o &&& 0x3).toNat < 4 := by
  rw [BitVec.toNat_and]
  exact Nat.lt_of_le_of_lt Nat.and_le_right (by decide)

theorem whichWord_lt (o : U8) : whichWord o < 2 := by
  unfold whichWord
  split <;> decide

/-! ### The lanes -/

/-- The first bit of the byte at an offset, in its dword. -/
def byteShift (offset : U8) : Nat := (offset &&& 0x3).toNat * 8

def wordShift (offset : U8) : Nat := whichWord offset * 16

/-- The dword that an offset of a device is in. -/
def dwordAt (dev : PciDevice) (offset : U8) (space : κ) : U32 :=
  ConfigSpace.read (registerAddress dev.baseConfigAddress offset) space

/-- State `s` after an access to the dword at `offset` that left `space`. -/
def Pci.accessed (s : Pci κ) (dev : PciDevice) (offset : U8) (space : κ) : Pci κ :=
  { s with address := registerAddress dev.baseConfigAddress offset, space := space }

omit [ConfigSpace κ] in
@[simp] theorem accessed_space {space : κ} : (s.accessed dev offset space).space = space := rfl

omit [ConfigSpace κ] in
@[simp] theorem accessed_accessed {space space' : κ} :
    (s.accessed dev offset space).accessed dev offset space' = s.accessed dev offset space' := rfl

theorem returns_configRead {v : U32} :
    (pciConfigRead dev offset).Returns s v t ↔
      v = dwordAt dev offset s.space ∧ t = s.accessed dev offset s.space :=
  returns_pciType2ConfigRead

theorem returns_configWrite {v : U32} :
    (pciConfigWrite dev offset v).Returns s u t ↔
      t = s.accessed dev offset
        (ConfigSpace.write (registerAddress dev.baseConfigAddress offset) v s.space) :=
  returns_pciType2ConfigWrite

/-- A read of the dword that holds an offset. -/
theorem configRead_dword :
    (pciConfigRead dev (offset &&& 0xFC)).Returns s (dwordAt dev offset s.space)
      (s.accessed dev offset s.space) := by
  rw [returns_configRead, dwordAt, dwordAt, Pci.accessed, Pci.accessed, registerAddress_dword]
  exact ⟨rfl, rfl⟩

/-- A write of it, after the read. -/
theorem configWrite_dword {v : U32} :
    (pciConfigWrite dev (offset &&& 0xFC) v).Returns (s.accessed dev offset s.space) u t ↔
      t = s.accessed dev offset
        (ConfigSpace.write (registerAddress dev.baseConfigAddress offset) v s.space) := by
  rw [returns_configWrite, Pci.accessed, Pci.accessed, Pci.accessed, registerAddress_dword]

theorem returns_configReadb {v : U8} :
    (pciConfigReadb dev offset).Returns s v t ↔
      v = Lane.get 8 (byteShift offset) (dwordAt dev offset s.space) ∧
        t = s.accessed dev offset s.space := by
  rw [pciConfigReadb, configRead_dword.bind_iff, returns_pure]
  rfl

theorem returns_configReadw {v : U16} :
    (pciConfigReadw dev offset).Returns s v t ↔
      v = Lane.get 16 (wordShift offset) (dwordAt dev offset s.space) ∧
        t = s.accessed dev offset s.space := by
  rw [pciConfigReadw, configRead_dword.bind_iff, returns_pure]
  rfl

/-- The dword at an offset replaced. -/
def putDword (dev : PciDevice) (offset : U8) (v : U32) (space : κ) : κ :=
  ConfigSpace.write (registerAddress dev.baseConfigAddress offset) v space

theorem returns_configWriteb {v : U8} :
    (pciConfigWriteb dev offset v).Returns s u t ↔
      t = s.accessed dev offset (putDword dev offset
        (Lane.set (byteShift offset) v (dwordAt dev offset s.space)) s.space) := by
  rw [pciConfigWriteb, configRead_dword.bind_iff, configWrite_dword]
  rfl

theorem returns_configWritew {v : U16} :
    (pciConfigWritew dev offset v).Returns s u t ↔
      t = s.accessed dev offset (putDword dev offset
        (Lane.set (wordShift offset) v (dwordAt dev offset s.space)) s.space) := by
  rw [pciConfigWritew, configRead_dword.bind_iff, configWrite_dword]
  rfl

/-! ### Spaces of device registers -/

/-- A configuration space with a device register at every address. -/
instance registerSpace : ConfigSpace (U32 → Register 32) where
  read a space := (space a).value
  write a v space := Function.update space a ((space a).write v)

/-- The register that an offset of a device is in. -/
def registerAt (dev : PciDevice) (offset : U8) (space : U32 → Register 32) : Register 32 :=
  space (registerAddress dev.baseConfigAddress offset)

/-- A space with that register replaced. -/
def putRegister (dev : PciDevice) (offset : U8) (r : Register 32) (space : U32 → Register 32) :
    U32 → Register 32 :=
  Function.update space (registerAddress dev.baseConfigAddress offset) r

section Registers

variable {space : U32 → Register 32} {s t : Pci (U32 → Register 32)} {r r' : Register 32}

@[simp] theorem registerAt_put : registerAt dev offset (putRegister dev offset r space) = r :=
  Function.update_self _ _ _

@[simp] theorem putRegister_put :
    putRegister dev offset r' (putRegister dev offset r space) = putRegister dev offset r' space :=
  Function.update_idem _ _ _

@[simp] theorem putRegister_at :
    putRegister dev offset (registerAt dev offset space) space = space :=
  Function.update_eq_self _ _

theorem returns_readRegister {v : U32} : (pciConfigRead dev offset).Returns s v t ↔
    v = (registerAt dev offset s.space).value ∧ t = s.accessed dev offset s.space :=
  returns_configRead

theorem returns_writeRegister {v : U32} : (pciConfigWrite dev offset v).Returns s u t ↔
    t = s.accessed dev offset
      (putRegister dev offset ((registerAt dev offset s.space).write v) s.space) :=
  returns_configWrite

end Registers

end MyBios
