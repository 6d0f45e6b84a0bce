import Mathlib.Data.BitVec
import MyBios.Machine

/-!
PCI configuration accesses (`pci.c`).

A dword of the configuration space is reached through two 32-bit ports: its
address goes to `0xCF8`, and then `0xCFC` is that dword. What is behind the
addresses is a parameter, `ConfigSpace κ`. The encoder of addresses keeps 7 bits
of the bus number where the port has 8.

`returns_pciType2ConfigRead` and `returns_pciType2ConfigWrite` say what an access to a
dword reads and writes.
-/

namespace MyBios

open Prog

/-- The dwords of the configuration space, by the address in `0xCF8`. -/
class ConfigSpace (κ : Type) where
  read : U32 → κ → U32
  write : U32 → U32 → κ → κ

/-- `pci_device`, without `bar_size`, which nothing reads. -/
structure PciDevice where
  baseConfigAddress : U32
  bus : U8
  device : U8
  func : U8
  vendorId : U16
  deviceId : U16
  status : U16
  command : U16
  class_ : U8
  subclass : U8
  progIf : U8
  revision : U8
  bist : U8
  headerType : U8
  latencyTimer : U8
  cacheLineSize : U8
  deriving DecidableEq, Repr

/-- The address latch, the configuration space, and the global `dev`. -/
structure Pci (κ : Type) where
  address : U32
  space : κ
  dev : PciDevice

section Access

variable {κ : Type} [ConfigSpace κ]

def pciConfigAddress : U16 := 0xCF8
def pciConfigData : U16 := 0xCFC

def outl (port : U16) (value : U32) : Prog (Pci κ) Unit :=
  modify fun s =>
    if port = pciConfigAddress then { s with address := value }
    else if port = pciConfigData then
      { s with space := ConfigSpace.write s.address value s.space }
    else s

/-- A port that is not one of the two has nothing behind it. -/
def inl (port : U16) : Prog (Pci κ) U32 :=
  gets fun s =>
    if port = pciConfigAddress then s.address
    else if port = pciConfigData then ConfigSpace.read s.address s.space
    else 0xFFFFFFFF

def pciType2ConfigAddress (bus device func offset : U8) : U32 :=
  (0x1 : U32) <<< 31 ||| ((bus &&& 0x7F).setWidth 32 <<< 16) |||
    ((device &&& 0x1F).setWidth 32 <<< 11) ||| ((func &&& 0x7).setWidth 32 <<< 8) |||
      (offset &&& 0xFC).setWidth 32

/-- The dword of `offset` in the function at `base`. -/
def registerAddress (base : U32) (offset : U8) : U32 :=
  (offset &&& 0xFC).setWidth 32 ||| (base &&& 0xFFFFFF00)

def pciType2ConfigRead (base : U32) (offset : U8) : Prog (Pci κ) U32 := do
  outl pciConfigAddress (registerAddress base offset)
  inl pciConfigData

def pciType2ConfigWrite (base : U32) (offset : U8) (data : U32) : Prog (Pci κ) Unit := do
  outl pciConfigAddress (registerAddress base offset)
  outl pciConfigData data

/-- The 440FX uses the type 2 accesses (`chipsets/440fx.c`). -/
def chipsetPciConfigAddress (bus device func offset : U8) : U32 :=
  pciType2ConfigAddress bus device func offset

def chipsetPciConfigRead (base : U32) (offset : U8) : Prog (Pci κ) U32 :=
  pciType2ConfigRead base offset

def chipsetPciConfigWrite (base : U32) (offset : U8) (value : U32) : Prog (Pci κ) Unit :=
  pciType2ConfigWrite base offset value

/-- `pci_config_read`, on a chipset that uses the type 2 accesses. -/
def pciConfigRead (dev : PciDevice) (offset : U8) : Prog (Pci κ) U32 :=
  pciType2ConfigRead dev.baseConfigAddress offset

def pciConfigWrite (dev : PciDevice) (offset : U8) (data : U32) : Prog (Pci κ) Unit :=
  pciType2ConfigWrite dev.baseConfigAddress offset data

/-- `!!(offset & 0x2)`. -/
def whichWord (offset : U8) : Nat := if offset &&& 0x2 ≠ 0 then 1 else 0

def pciConfigReadw (dev : PciDevice) (offset : U8) : Prog (Pci κ) U16 := do
  let config ← pciConfigRead dev (offset &&& 0xFC)
  return (config >>> (whichWord offset * 16)).setWidth 16

def pciConfigWritew (dev : PciDevice) (offset : U8) (data : U16) : Prog (Pci κ) Unit := do
  let config ← pciConfigRead dev (offset &&& 0xFC)
  let mask := ~~~((0xFFFF : U32) <<< (whichWord offset * 16))
  let ddata := data.setWidth 32 <<< (whichWord offset * 16)
  pciConfigWrite dev (offset &&& 0xFC) ((config &&& mask) ||| ddata)

def pciConfigReadb (dev : PciDevice) (offset : U8) : Prog (Pci κ) U8 := do
  let whichByte := offset &&& 0x3
  let config ← pciConfigRead dev (offset &&& 0xFC)
  let shift := whichByte.toNat * 8
  return (config >>> shift).setWidth 8

def pciConfigWriteb (dev : PciDevice) (offset data : U8) : Prog (Pci κ) Unit := do
  let whichByte := offset &&& 0x3
  let config ← pciConfigRead dev (offset &&& 0xFC)
  let shift := whichByte.toNat * 8
  let mask := ~~~((0xFF : U32) <<< shift)
  pciConfigWrite dev (offset &&& 0xFC) ((config &&& mask) ||| (data.setWidth 32 <<< shift))

/-! ### What an access does -/

variable {s t : Pci κ} {base v : U32} {offset : U8} {u : Unit}

/-- A read latches the address and returns the dword there. -/
@[simp] theorem returns_pciType2ConfigRead :
    (pciType2ConfigRead base offset).Returns s v t ↔
      v = ConfigSpace.read (registerAddress base offset) s.space ∧
        t = { s with address := registerAddress base offset } := by
  simp [pciType2ConfigRead, outl, inl, pciConfigAddress, pciConfigData]

/-- A write latches the address and stores the dword there. -/
@[simp] theorem returns_pciType2ConfigWrite :
    (pciType2ConfigWrite base offset v).Returns s u t ↔
      t = { s with address := registerAddress base offset
                   space := ConfigSpace.write (registerAddress base offset) v s.space } := by
  simp [pciType2ConfigWrite, outl, pciConfigAddress, pciConfigData]

end Access

end MyBios
