import MyBios.Pci.Lens

/-!
The 440FX (`chipsets/440fx.c`): the PAM registers and ROM shadowing.

The addresses from `0xC0000` to `0xFFFFF` are 13 segments. A nibble in the bytes
`0x59` to `0x5F` of the host bridge's configuration space decides for each of
them whether loads and stores go to RAM or to what is on the bus, that is ROM or
PCI. What is on the bus may answer and store anything, and is a parameter; it
also stands for all other addresses.

`mode_pamSetMode` says that setting the mode of a segment sets that one mode.
-/

namespace MyBios

open Prog

/-- `enum pam_mode`. -/
inductive PamMode where
  | disable
  | readOnly
  | writeOnly
  | readWrite
  deriving DecidableEq, Repr

namespace PamMode

def value : PamMode → U8
  | disable => 0
  | readOnly => 1
  | writeOnly => 2
  | readWrite => 3

/-- The mode that the low two bits stand for. -/
def ofBits (v : U8) : PamMode :=
  if v &&& 3 = 0 then disable
  else if v &&& 3 = 1 then readOnly
  else if v &&& 3 = 2 then writeOnly
  else readWrite

/-- Loads go to RAM. -/
def reads : PamMode → Bool
  | readOnly | readWrite => true
  | disable | writeOnly => false

/-- Stores go to RAM. -/
def writes : PamMode → Bool
  | writeOnly | readWrite => true
  | disable | readOnly => false

end PamMode

/-- `enum pam_segment`, whose values are consecutive: one segment of 64 KB, and the
first of twelve of 16 KB. -/
def pamF0000 : Nat := 1
def pamC0000 : Nat := 2
def pamD0000 : Nat := 6
def pamE0000 : Nat := 10

def pamBase : U8 := 0x59

/-- What is on the bus. -/
class BusSide (β : Type) where
  load : U32 → β → U8
  store : U32 → U8 → β → β

/-- The configuration space, the handle of the host bridge, the RAM behind the
segments and the bus. -/
structure I440fx (β : Type) where
  pci : Pci (U32 → U32)
  chipset : PciDevice
  ram : U32 → U8
  bus : β

def I440fx.pciLens (β : Type) : Lens (I440fx β) (Pci (U32 → U32)) where
  get := I440fx.pci
  set pci s := { s with pci := pci }
  get_set _ _ := rfl
  set_get _ := rfl

/-! ### The registers -/

/-- The register byte with the mode of one nibble replaced. -/
def withMode (nibble : Nat) (mode : PamMode) (reg : U8) : U8 :=
  (reg &&& (if nibble ≠ 0 then 0xCF else 0xFC)) ||| (mode.value <<< (4 * nibble))

/-- `PAM_BASE + pam_segment / 2`. -/
def pamOffset (segment : Nat) : U8 := pamBase + BitVec.ofNat 8 (segment / 2)

def pamSetMode (chipset : PciDevice) (segment : Nat) (mode : PamMode) :
    Prog (Pci (U32 → U32)) Unit := do
  let reg ← pciConfigReadb chipset (pamOffset segment)
  pciConfigWriteb chipset (pamOffset segment) (withMode (segment % 2) mode reg)

namespace I440fx

variable {β : Type}

/-- The mode of a segment. -/
def mode (s : I440fx β) (segment : Nat) : PamMode :=
  .ofBits ((bytePlace s.chipset.baseConfigAddress (pamOffset segment)).get s.pci.space
    >>> (4 * (segment % 2)))

/-! ### Memory -/

/-- The segment of an address. -/
def segmentOf (a : U32) : Option Nat :=
  if 0xF0000 ≤ a.toNat ∧ a.toNat < 0x100000 then some pamF0000
  else if 0xC0000 ≤ a.toNat ∧ a.toNat < 0xF0000 then
    some (pamC0000 + (a.toNat - 0xC0000) / 0x4000)
  else none

/-- Loads from `a` go to RAM. -/
def ramReads (s : I440fx β) (a : U32) : Bool :=
  match segmentOf a with
  | some segment => (s.mode segment).reads
  | none => false

/-- Stores to `a` go to RAM. -/
def ramWrites (s : I440fx β) (a : U32) : Bool :=
  match segmentOf a with
  | some segment => (s.mode segment).writes
  | none => false

section Routing

variable [BusSide β]

def load (s : I440fx β) (a : U32) : U8 := if s.ramReads a then s.ram a else BusSide.load a s.bus

def store (a : U32) (v : U8) (s : I440fx β) : I440fx β :=
  if s.ramWrites a then { s with ram := Function.update s.ram a v }
  else { s with bus := BusSide.store a v s.bus }

/-! ### Shadowing -/

/-- `for (i = 0; i < len; i++) region[i] = src_region[i];`, its first `n` passes. -/
def copyRegion (address src : U32) (n : Nat) (s : I440fx β) : I440fx β :=
  (List.range n).foldl
    (fun s i => s.store (address + BitVec.ofNat 32 i) (s.load (src + BitVec.ofNat 32 i))) s

/-- `pam_set_mode` for the first `n` segments from `segment` on. -/
def setModes (segment : Nat) (mode : PamMode) : Nat → Prog (I440fx β) Unit
  | 0 => pure ()
  | n + 1 => do
    setModes segment mode n
    let s ← get
    zoom (pciLens β) (pamSetMode s.chipset (segment + n) mode)

/-- The part of `chipset_shadow_rom_from_src` behind the `switch`. -/
def shadowSegments (pamRegion numRegions : Nat) (address len src : U32) :
    Prog (I440fx β) Bool :=
  if numRegions = 0 then return false
  else do
    setModes pamRegion .writeOnly numRegions
    modify (copyRegion address src len.toNat)
    setModes pamRegion .readWrite numRegions
    return true

/-- `pam_region` of the cases that go to `handle_16k`. -/
def pamRegionOf (address : U32) : Option Nat :=
  if address = 0xC0000 then some pamC0000
  else if address = 0xD0000 then some pamD0000
  else if address = 0xE0000 then some pamE0000
  else none

theorem shrinks {len : U32} (h : len / 0x4000 = 8) : 0x10000 < len.toNat := by
  have hdiv := congrArg BitVec.toNat h
  rw [BitVec.toNat_udiv] at hdiv
  change len.toNat / 0x4000 = 8 at hdiv
  omega

def chipsetShadowRomFromSrc (address len src : U32) : Prog (I440fx β) Bool :=
  match pamRegionOf address with
  | some pamRegion =>
    if len &&& 0x3FFF ≠ 0 then return false
    else if len / 0x4000 > 4 then
      if _h : len / 0x4000 = 8 then do
        let _ ← chipsetShadowRomFromSrc (address + 0x10000) 0x10000 (src + 0x10000)
        shadowSegments pamRegion 4 address len src
      else return false
    else shadowSegments pamRegion (len / 0x4000).toNat address len src
  | none =>
    if address = 0xF0000 then
      if len &&& 0xFFFF ≠ 0 then return false
      else shadowSegments pamF0000 1 address len src
    else return false
termination_by len.toNat
decreasing_by exact shrinks _h

/-- `chipset_shadow_rom` of `chipset.c`. -/
def chipsetShadowRom (address size : U32) : Prog (I440fx β) Bool :=
  chipsetShadowRomFromSrc address size address

end Routing

end I440fx

/-! ### Setting a mode -/

section Registers

variable {chipset : PciDevice} {s t : Pci (U32 → U32)} {offset offset' v : U8}

/-- What is left in the nibbles of a register byte. -/
theorem ofBits_withMode (mode : PamMode) (reg : U8) : ∀ i < 2, ∀ j < 2,
    PamMode.ofBits (withMode i mode reg >>> (4 * j)) =
      if j = i then mode else .ofBits (reg >>> (4 * j)) := by
  cases mode <;> revert reg <;> decide +kernel

/-- A segment and the nibble of its mode. -/
theorem pam_nibble : ∀ i < 14, ∀ j < 14,
    (pamOffset j = pamOffset i ∧ j % 2 = i % 2) ↔ j = i := by
  decide

/-- Setting the mode of a segment succeeds. -/
theorem pamSetMode_total {segment : Nat} {mode : PamMode} :
    ∃ t, (pamSetMode chipset segment mode).Returns s () t := by
  simp [pamSetMode, pciConfigReadb, pciConfigWriteb, pciConfigRead, pciConfigWrite]

end Registers

namespace I440fx

variable {β : Type} {s t : I440fx β} {segment segment' : Nat} {m : PamMode}

/-- Setting the mode of a segment sets that one mode, and nothing else. -/
theorem mode_pamSetMode (hi : segment < 14) {u : Unit}
    (h : (zoom (pciLens β) (pamSetMode s.chipset segment m)).Returns s u t) :
    (∀ j < 14, t.mode j = if j = segment then m else s.mode j) ∧
      t.chipset = s.chipset ∧ t.ram = s.ram ∧ t.bus = s.bus := by
  obtain ⟨pci, hpci, rfl⟩ := returns_zoom.mp h
  obtain ⟨reg, _, hread, hwrite⟩ := returns_bind.mp hpci
  obtain ⟨rfl, rfl⟩ := returns_configReadb.mp hread
  obtain rfl := returns_configWriteb.mp hwrite
  refine ⟨?_, rfl, rfl, rfl⟩
  intro j hj
  show PamMode.ofBits ((bytePlace s.chipset.baseConfigAddress _).get
    ((bytePlace s.chipset.baseConfigAddress (pamOffset segment)).put _ _) >>> _) = _
  rw [get_put_bytePlace]
  by_cases hsame : pamOffset j = pamOffset segment
  · rw [if_pos hsame, ofBits_withMode _ _ _ (Nat.mod_lt _ (by omega)) _ (Nat.mod_lt _ (by omega))]
    refine if_congr ?_ rfl ?_
    · rw [← pam_nibble segment hi j hj]
      exact (and_iff_right hsame).symm
    · rw [mode, hsame]
      rfl
  · have hne : j ≠ segment := fun heq => hsame (congrArg pamOffset heq)
    rw [if_neg hsame, if_neg hne]
    rfl

end I440fx

end MyBios
