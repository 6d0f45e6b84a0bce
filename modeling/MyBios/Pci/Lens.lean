import MyBios.Lib.Accessor
import MyBios.Pci.Access
import MyBios.Pci.Find

/-!
The configuration accessors as readers and writers of a little-endian memory.

On a configuration space of plain dwords, a byte, an aligned word and a dword are places
of the space, and the accessors of `pci.c` are their readers and writers: the laws come
from the places. A word reads as its two bytes, and a dword as its four.

`accessors_lawful` has the laws of the accessors of a device, and of those of the 440FX,
which replace the low byte of the base address with the offset.
-/

namespace MyBios

open Prog Accessor

/-- Configuration spaces of plain dwords. -/
abbrev Dwords := U32 → U32

abbrev dwords : Pci Dwords → Dwords := Pci.space

/-! ### The places -/

def dwordPlace (base : U32) (offset : U8) : Place Dwords U32 := .cell (registerAddress base offset)

theorem byteShift_inside (o : U8) : byteShift o + 8 ≤ 32 := by
  have h := and_three_lt o
  rw [byteShift]
  omega

theorem wordShift_inside (o : U8) : wordShift o + 16 ≤ 32 := by
  have h := whichWord_lt o
  rw [wordShift]
  omega

def bytePlace (base : U32) (offset : U8) : Place Dwords U8 :=
  (dwordPlace base offset).andThen (.lane 8 (byteShift offset) (byteShift_inside offset))

/-- The aligned word that an offset is in. -/
def wordPlace (base : U32) (offset : U8) : Place Dwords U16 :=
  (dwordPlace base offset).andThen (.lane 16 (wordShift offset) (wordShift_inside offset))

/-- Byte `lane` of the dword at an address, wherever that is. -/
def byteCell (address : U32) (lane : Fin 4) : Place Dwords U8 :=
  (Place.cell address).andThen (.lane 8 (lane.val * 8) (by omega))

/-! ### The accessors read and write them -/

section Accessors

variable {dev : PciDevice} {base : U32} {offset : U8}

theorem implements_config : Implements Pci.space (dwordPlace dev.baseConfigAddress offset)
    (pciConfigRead dev offset) (pciConfigWrite dev offset) where
  reads _ := ⟨_, _, returns_configRead.mpr ⟨rfl, rfl⟩, rfl, rfl⟩
  writes _ _ := ⟨(), _, returns_configWrite.mpr rfl, rfl⟩

theorem implements_configb : Implements Pci.space (bytePlace dev.baseConfigAddress offset)
    (pciConfigReadb dev offset) (pciConfigWriteb dev offset) where
  reads _ := ⟨_, _, returns_configReadb.mpr ⟨rfl, rfl⟩, rfl, rfl⟩
  writes _ _ := ⟨(), _, returns_configWriteb.mpr rfl, rfl⟩

theorem implements_configw : Implements Pci.space (wordPlace dev.baseConfigAddress offset)
    (pciConfigReadw dev offset) (pciConfigWritew dev offset) where
  reads _ := ⟨_, _, returns_configReadw.mpr ⟨rfl, rfl⟩, rfl, rfl⟩
  writes _ _ := ⟨(), _, returns_configWritew.mpr rfl, rfl⟩

theorem implements_chipset : Implements Pci.space (dwordPlace base offset)
    (chipsetPciConfigRead base offset) (chipsetPciConfigWrite base offset) where
  reads _ := ⟨_, _, returns_pciType2ConfigRead.mpr ⟨rfl, rfl⟩, rfl, rfl⟩
  writes _ _ := ⟨(), _, returns_pciType2ConfigWrite.mpr rfl, rfl⟩

end Accessors

/-! ### What a write leaves alone -/

/-- The program changes no byte of the space but those of `touched`. -/
def OnlyBytes (p : Prog (Pci Dwords) Unit) (touched : U32 → Fin 4 → Prop) : Prop :=
  ∀ s, Total p s fun _ t => ∀ address lane, ¬ touched address lane →
    (byteCell address lane).get t.space = (byteCell address lane).get s.space

section Frames

variable {α : Type} {place : Place Dwords α} {read : Prog (Pci Dwords) α}
  {write : α → Prog (Pci Dwords) Unit} {touched : U32 → Fin 4 → Prop} {base : U32} {offset : U8}

theorem onlyBytes_write (h : Implements Pci.space place read write)
    (apart : ∀ address lane, ¬ touched address lane → place.Apart (byteCell address lane)) (v : α) :
    OnlyBytes (write v) touched := by
  intro s
  have frame := h.frame (P := fun b : U32 × Fin 4 => ¬ touched b.1 b.2)
    (q := fun b => byteCell b.1 b.2) (fun b hother => apart b.1 b.2 hother) v s
  exact frame.mono fun _ _ ht address lane hother => ht (address, lane) hother

/-- The bytes of another dword. -/
theorem apart_dword {address : U32} {lane : Fin 4} (h : ¬ address = registerAddress base offset) :
    Place.Apart (dwordPlace base offset) (byteCell address lane) :=
  (Place.cell_apart h).right (.lane 8 (lane.val * 8) (by omega))

/-- The bytes of a dword in which only the lanes of `inside` are written. -/
theorem apart_byteCell {w k : Nat} {h : k + w ≤ 32} (inside : Fin 4 → Prop)
    (disjoint : ∀ lane : Fin 4, ¬ inside lane → lane.val * 8 + 8 ≤ k ∨ k + w ≤ lane.val * 8)
    (address : U32) (lane : Fin 4)
    (hother : ¬ (address = registerAddress base offset ∧ inside lane)) :
    Place.Apart ((dwordPlace base offset).andThen (.lane w k h)) (byteCell address lane) := by
  by_cases haddress : address = registerAddress base offset
  · subst haddress
    have hlane : ¬ inside lane := fun hin => hother ⟨rfl, hin⟩
    exact (Place.lane_apart (disjoint lane hlane)).inside (dwordPlace base offset)
  · exact (apart_dword haddress).left (.lane w k h)

end Frames

/-! ### Words and dwords of bytes -/

section Composition

variable {dev : PciDevice} {base : U32} {offset : U8} {space : Dwords}

/-- The two bytes of a word, read one by one, the lower one first. -/
def readwByBytes (dev : PciDevice) (offset : U8) : Prog (Pci Dwords) U16 := do
  let byte₀ ← pciConfigReadb dev offset
  let byte₁ ← pciConfigReadb dev (offset + 1)
  return byte₁ ++ byte₀

/-- The four bytes of a dword. -/
def readByBytes (dev : PciDevice) (offset : U8) : Prog (Pci Dwords) U32 := do
  let byte₀ ← pciConfigReadb dev offset
  let byte₁ ← pciConfigReadb dev (offset + 1)
  let byte₂ ← pciConfigReadb dev (offset + 2)
  let byte₃ ← pciConfigReadb dev (offset + 3)
  return byte₃ ++ byte₂ ++ byte₁ ++ byte₀

/-- The bytes of an aligned word lie in one dword, from the first bit of the word on. -/
theorem word_bytes (o : U8) : o &&& 0x1 = 0 →
    byteShift o = wordShift o ∧ byteShift (o + 1) = wordShift o + 8 ∧
      (o + 1) &&& 0xFC = o &&& 0xFC := by
  revert o
  decide +kernel

/-- The bytes of an aligned dword. -/
theorem dword_bytes (o : U8) : o &&& 0x3 = 0 →
    byteShift o = 0 ∧ byteShift (o + 1) = 8 ∧ byteShift (o + 2) = 16 ∧ byteShift (o + 3) = 24 ∧
      (o + 1) &&& 0xFC = o &&& 0xFC ∧ (o + 2) &&& 0xFC = o &&& 0xFC ∧
        (o + 3) &&& 0xFC = o &&& 0xFC := by
  revert o
  decide +kernel

/-- A byte by its dword and its first bit in there. -/
theorem get_bytePlace (o : U8) (hdword : o &&& 0xFC = offset &&& 0xFC) :
    (bytePlace base o).get space =
      Lane.get 8 (byteShift o) (space (registerAddress base offset)) := by
  have haddress : registerAddress base o = registerAddress base offset := by
    rw [registerAddress, registerAddress, hdword]
  rw [← haddress]
  rfl

theorem word_append (h : offset &&& 0x1 = 0) :
    (bytePlace base (offset + 1)).get space ++ (bytePlace base offset).get space =
      (wordPlace base offset).get space := by
  obtain ⟨hlow, hhigh, hdword⟩ := word_bytes offset h
  rw [get_bytePlace (offset + 1) hdword, get_bytePlace offset rfl, hlow, hhigh]
  exact Lane.append_get rfl

theorem dword_append (h : offset &&& 0x3 = 0) :
    (bytePlace base (offset + 3)).get space ++ (bytePlace base (offset + 2)).get space ++
        (bytePlace base (offset + 1)).get space ++ (bytePlace base offset).get space =
      (dwordPlace base offset).get space := by
  obtain ⟨h₀, h₁, h₂, h₃, hdword₁, hdword₂, hdword₃⟩ := dword_bytes offset h
  rw [get_bytePlace (offset + 3) hdword₃, get_bytePlace (offset + 2) hdword₂,
    get_bytePlace (offset + 1) hdword₁, get_bytePlace offset rfl, h₀, h₁, h₂, h₃,
    Lane.append_get, Lane.append_get, Lane.append_get]
  · exact Lane.get_self
  all_goals rfl

theorem readwByBytes_total (h : offset &&& 0x1 = 0) (s : Pci Dwords) :
    Total (readwByBytes dev offset) s fun v t =>
      v = (wordPlace dev.baseConfigAddress offset).get s.space ∧ t.space = s.space := by
  refine (implements_configb.reads s).bind ?_
  rintro _ t ⟨rfl, ht⟩
  refine (implements_configb.reads t).bind ?_
  rintro _ u ⟨rfl, hu⟩
  refine total_pure ⟨?_, hu.trans ht⟩
  rw [ht, word_append h]

theorem readByBytes_total (h : offset &&& 0x3 = 0) (s : Pci Dwords) :
    Total (readByBytes dev offset) s fun v t =>
      v = (dwordPlace dev.baseConfigAddress offset).get s.space ∧ t.space = s.space := by
  refine (implements_configb.reads s).bind ?_
  rintro _ t₁ ⟨rfl, ht₁⟩
  refine (implements_configb.reads t₁).bind ?_
  rintro _ t₂ ⟨rfl, ht₂⟩
  refine (implements_configb.reads t₂).bind ?_
  rintro _ t₃ ⟨rfl, ht₃⟩
  refine (implements_configb.reads t₃).bind ?_
  rintro _ t₄ ⟨rfl, ht₄⟩
  rw [ht₁] at ht₂
  rw [ht₂] at ht₃
  rw [ht₃] at ht₄
  refine total_pure ⟨?_, ht₄⟩
  rw [ht₃, ht₂, ht₁, dword_append h]

end Composition

/-! ### The laws -/

/-- The accessors of a device at an offset as views of the bytes of its space. -/
structure LittleEndian (dev : PciDevice) (offset : U8) : Prop where
  byte : Lawful dwords (pciConfigReadb dev offset) (pciConfigWriteb dev offset)
  word : Lawful dwords (pciConfigReadw dev offset) (pciConfigWritew dev offset)
  dword : Lawful dwords (pciConfigRead dev offset) (pciConfigWrite dev offset)
  byteFrame : ∀ v, OnlyBytes (pciConfigWriteb dev offset v) fun address lane =>
    address = registerAddress dev.baseConfigAddress offset ∧ lane.val = (offset &&& 0x3).toNat
  wordFrame : ∀ v, OnlyBytes (pciConfigWritew dev offset v) fun address lane =>
    address = registerAddress dev.baseConfigAddress offset ∧ lane.val / 2 = whichWord offset
  dwordFrame : ∀ v, OnlyBytes (pciConfigWrite dev offset v) fun address _ =>
    address = registerAddress dev.baseConfigAddress offset
  wordOfBytes : offset &&& 0x1 = 0 →
    ReadAlike dwords (pciConfigReadw dev offset) (readwByBytes dev offset)
  dwordOfBytes : offset &&& 0x3 = 0 →
    ReadAlike dwords (pciConfigRead dev offset) (readByBytes dev offset)

/-- The accessors of the 440FX at an offset. The address that they put on the port is the
base address with its low byte replaced. -/
structure ChipsetView (base : U32) (offset : U8) : Prop where
  device : ∀ dev : PciDevice, dev.baseConfigAddress = base →
    (pciConfigRead dev offset : Prog (Pci Dwords) U32) = chipsetPciConfigRead base offset ∧
      (pciConfigWrite dev offset : U32 → Prog (Pci Dwords) Unit) =
        chipsetPciConfigWrite base offset
  dword : Lawful dwords (chipsetPciConfigRead base offset) (chipsetPciConfigWrite base offset)
  frame : ∀ v, OnlyBytes (chipsetPciConfigWrite base offset v) fun address _ =>
    address = registerAddress base offset
  replaced : registerAddress base offset = Lane.get 24 8 base ++ (offset &&& 0xFC)
  reads : ∀ s : Pci Dwords, Total (chipsetPciConfigRead base offset) s fun v t =>
    t.address = registerAddress base offset ∧ v = s.space t.address ∧ t.space = s.space
  writes : ∀ v (s : Pci Dwords), Total (chipsetPciConfigWrite base offset v) s fun _ t =>
    t.address = registerAddress base offset ∧ t.space = Function.update s.space t.address v
  dwordOfBytes : ∀ dev : PciDevice, dev.baseConfigAddress = base → offset &&& 0x3 = 0 →
    ReadAlike dwords (chipsetPciConfigRead base offset) (readByBytes dev offset)

/-- The aligned offset replaces the low byte of the base address. -/
theorem registerAddress_set {base : U32} {offset : U8} :
    registerAddress base offset = Lane.set 0 (offset &&& 0xFC) base := by
  have hmask : (0xFFFFFF00 : U32) = ~~~((BitVec.allOnes 8).setWidth 32 <<< 0) := rfl
  rw [registerAddress, Lane.set, hmask, BitVec.or_comm, BitVec.shiftLeft_zero,
    BitVec.shiftLeft_zero]

/-- The low byte of an address. -/
theorem registerAddress_offset {base : U32} {offset : U8} :
    Lane.get 8 0 (registerAddress base offset) = offset &&& 0xFC := by
  rw [registerAddress_set]
  exact Lane.get_set (by omega)

/-- The rest of it. -/
theorem registerAddress_base {base : U32} {offset : U8} :
    Lane.get 24 8 (registerAddress base offset) = Lane.get 24 8 base := by
  rw [registerAddress_set]
  exact Lane.get_set_disjoint (by omega)

theorem registerAddress_append {base : U32} {offset : U8} :
    registerAddress base offset = Lane.get 24 8 base ++ (offset &&& 0xFC) := by
  have hbase : Lane.get 24 8 (registerAddress base offset) = _ := registerAddress_base
  have hoffset : Lane.get 8 0 (registerAddress base offset) = _ := registerAddress_offset
  rw [← hbase, ← hoffset, Lane.append_get]
  · exact Lane.get_self.symm
  · rfl

/-! ### Two bytes of one function -/

section Bytes

variable {base : U32} {offset offset' : U8}

theorem offset_parts (o : U8) : o = (o &&& 0xFC) ||| (o &&& 0x3) := by
  rw [← BitVec.and_or_distrib_left]
  exact (BitVec.and_allOnes).symm

theorem bytePlace_apart (h : offset' ≠ offset) :
    Place.Apart (bytePlace base offset) (bytePlace base offset') := by
  by_cases hdword : offset' &&& 0xFC = offset &&& 0xFC
  · have haddress : registerAddress base offset' = registerAddress base offset := by
      rw [registerAddress, registerAddress, hdword]
    have hbyte : (offset' &&& 0x3).toNat ≠ (offset &&& 0x3).toNat := by
      intro heq
      apply h
      rw [offset_parts offset', offset_parts offset, hdword, BitVec.eq_of_toNat_eq heq]
    have hshift : byteShift offset' + 8 ≤ byteShift offset ∨
        byteShift offset + 8 ≤ byteShift offset' := by
      rw [byteShift, byteShift]
      omega
    unfold bytePlace dwordPlace
    rw [haddress]
    exact (Place.lane_apart hshift).inside (.cell (registerAddress base offset))
  · have haddress : registerAddress base offset' ≠ registerAddress base offset := by
      intro heq
      have hlow : Lane.get 8 0 (registerAddress base offset') =
          Lane.get 8 0 (registerAddress base offset) := by rw [heq]
      rw [registerAddress_offset, registerAddress_offset] at hlow
      exact hdword hlow
    exact ((Place.cell_apart haddress).left _).right _

/-- A byte of a function, after a byte was written. -/
theorem get_put_bytePlace {v : U8} {space : Dwords} :
    (bytePlace base offset').get ((bytePlace base offset).put v space) =
      if offset' = offset then v else (bytePlace base offset').get space := by
  split
  · rename_i heq
    subst heq
    exact (bytePlace base offset').get_put v space
  · exact bytePlace_apart ‹_› v space

end Bytes

theorem littleEndian (dev : PciDevice) (offset : U8) : LittleEndian dev offset where
  byte := implements_configb.lawful
  word := implements_configw.lawful
  dword := implements_config.lawful
  byteFrame v := by
    refine onlyBytes_write implements_configb (apart_byteCell (fun lane => lane.val = _) ?_) v
    intro lane hlane
    rw [byteShift]
    omega
  wordFrame v := by
    refine onlyBytes_write implements_configw (apart_byteCell (fun lane => lane.val / 2 = _) ?_) v
    intro lane hlane
    rw [wordShift]
    omega
  dwordFrame := onlyBytes_write implements_config fun _ _ => apart_dword
  wordOfBytes h := .of_total implements_configw.reads (readwByBytes_total h)
  dwordOfBytes h := .of_total implements_config.reads (readByBytes_total h)

theorem chipsetView (base : U32) (offset : U8) : ChipsetView base offset where
  device := by
    rintro dev rfl
    exact ⟨rfl, rfl⟩
  dword := implements_chipset.lawful
  frame := onlyBytes_write implements_chipset fun _ _ => apart_dword
  replaced := registerAddress_append
  reads _ := ⟨_, _, returns_pciType2ConfigRead.mpr ⟨rfl, rfl⟩, rfl, rfl, rfl⟩
  writes _ _ := ⟨(), _, returns_pciType2ConfigWrite.mpr rfl, rfl, rfl⟩
  dwordOfBytes := by
    rintro dev rfl h
    exact .of_total implements_chipset.reads (readByBytes_total h)

/-- At every offset, the accessors of a device and those of the chipset obey the laws. -/
theorem accessors_lawful (dev : PciDevice) (offset : U8) :
    LittleEndian dev offset ∧ ∀ base, ChipsetView base offset :=
  ⟨littleEndian dev offset, fun base => chipsetView base offset⟩

end MyBios
