import MyBios.Pci.Access
import MyBios.Pci.Find

/-!
Base address registers: their size, and the address they are mapped at.

A device has six of them and one for its expansion ROM. The low bits are type bits, or the
enable bit of the ROM; the bits below the size of the range are 0 in hardware. The three
kinds have different numbers of low bits, and the functions of `pci.c` use one mask for all
of them.

* `queryBarSize_iff`: the size is right unless it is an I/O range of 4 or 8 bytes. The
  register is left as it was in any case.
* `pciMapBar_iff`: the address that was mapped is read back, and 0 after the unmapping,
  unless a type bit of a memory range or a low address bit of a small I/O range is in the
  way.
-/

namespace MyBios

open Prog Register

section Programs

variable {κ : Type} [ConfigSpace κ]

/-- `PCI_CONFIG_BAR0` to `PCI_CONFIG_BAR5` and `PCI_CONFIG_EXPANSION_ROM_BASE`. -/
inductive BarPosition where
  | bar (i : Fin 6)
  | expansionRom
  deriving DecidableEq, Repr

def pciConfigExpansionRomBase : U8 := 0x30

def BarPosition.offset : BarPosition → U8
  | bar i => 0x10 + 4 * BitVec.ofNat 8 i.val
  | expansionRom => pciConfigExpansionRomBase

def queryBarSize (dev : PciDevice) (offset : U8) : Prog (Pci κ) U32 := do
  let original ← pciConfigRead dev offset
  pciConfigWrite dev offset 0xFFFFFFFF
  let probed ← pciConfigRead dev offset
  let size := probed &&& 0xFFFFFFF0
  pciConfigWrite dev offset original
  return ~~~size + 1

/-- The value that `pci_map_bar` stores, `bar` having `curAddress`. -/
def mappedValue (bar : U8) (curAddress address : U32) : U32 :=
  let address := address &&& (0xFFFFFFF0 ||| (curAddress &&& 0xF))
  if bar = pciConfigExpansionRomBase then
    -- enable bit, and no prefetch
    (address ||| 1) &&& ~~~0x8
  else address

def pciMapBar (dev : PciDevice) (bar : U8) (address : U32) : Prog (Pci κ) Unit := do
  let curAddress ← pciConfigRead dev bar
  pciConfigWrite dev bar (mappedValue bar curAddress address)

def pciUnmapBar (dev : PciDevice) (bar : U8) : Prog (Pci κ) Unit :=
  pciConfigWrite dev bar 0

def pciGetMapping (dev : PciDevice) (bar : U8) : Prog (Pci κ) U32 := do
  let address ← pciConfigRead dev bar
  return address &&& 0xFFFFFFFC

end Programs

/-! ### The registers -/

inductive BarKind where
  | memory
  | io
  | rom
  deriving DecidableEq, Repr

namespace BarKind

/-- The number of low bits that are not part of the address. -/
def flagBits : BarKind → Nat
  | memory => 4
  | io => 2
  | rom => 1

/-- The smallest range has `2 ^ leastLog` bytes. -/
def leastLog : BarKind → Nat
  | memory => 4
  | io => 2
  | rom => 11

end BarKind

/-- A range of `2 ^ log` bytes. -/
structure Bar where
  kind : BarKind
  log : Nat
  least : kind.leastLog ≤ log
  most : log < 32

namespace Bar

def size (bar : Bar) : U32 := BitVec.twoPow 32 bar.log

/-- `r` is the register of the range: the address bits from the size on can be written, and
the enable bit of a ROM; between the flags and the size all bits are 0. -/
structure Describes (bar : Bar) (r : Register 32) : Prop where
  plain : r.Plain
  writable : ∀ i < 32, r.writable.getLsbD i = decide (bar.log ≤ i ∨ bar.kind = .rom ∧ i = 0)
  low : ∀ i, bar.kind.flagBits ≤ i → i < bar.log → r.value.getLsbD i = false
  /-- Bit 0 tells memory from I/O. -/
  type : bar.kind ≠ .rom → (r.value.getLsbD 0 = true ↔ bar.kind = .io)

end Bar

/-- What is at a position: a range, or nothing. -/
def Occupies (r : Register 32) : Option Bar → Prop
  | some bar => bar.Describes r
  | none => r.Plain ∧ r.writable = 0 ∧ r.value = 0

/-- The size of what is at a position. -/
def barSize : Option Bar → U32
  | some bar => bar.size
  | none => 0

/-- The device has these ranges. -/
structure HasBars (dev : PciDevice) (space : U32 → Register 32)
    (bars : BarPosition → Option Bar) : Prop where
  occupies : ∀ position, Occupies (registerAt dev position.offset space) (bars position)
  rom : ∀ position bar, bars position = some bar → (bar.kind = .rom ↔ position = .expansionRom)

/-! ### A device with one range -/

/-- The register of a range after a reset. -/
def Bar.reset (bar : Bar) : Register 32 where
  value := if bar.kind = .io then 1 else 0
  writable := addressMask 32 bar.log ||| if bar.kind = .rom then 1 else 0
  clears := 0
  apart := BitVec.and_zero

theorem Bar.describes_reset (bar : Bar) : bar.Describes bar.reset where
  plain := rfl
  writable := by
    intro i hi
    obtain ⟨kind, log, least, most⟩ := bar
    rw [Bar.reset, BitVec.getLsbD_or, getLsbD_addressMask]
    cases kind with
    | memory => simp [hi]
    | io => simp [hi]
    | rom => simp [hi, Bool.decide_or]
  low := by
    intro i hflags _
    obtain ⟨kind, log, least, most⟩ := bar
    cases kind with
    | memory => exact BitVec.getLsbD_zero
    | io =>
        have hpos : 2 ≤ i := hflags
        exact BitVec.getLsbD_one.trans (by simp; omega)
    | rom => exact BitVec.getLsbD_zero
  type := by
    obtain ⟨kind, log, least, most⟩ := bar
    cases kind with
    | memory => simp [Bar.reset]
    | io => simp [Bar.reset]
    | rom => simp

/-- The register of a position without a range. -/
def noRange : Register 32 where
  value := 0
  writable := 0
  clears := 0
  apart := BitVec.and_zero

/-- The device at `0x80000000` with one range. -/
def oneBar (position : BarPosition) (bar : Bar) : Pci (U32 → Register 32) where
  address := 0
  space a := if a = registerAddress 0x80000000 position.offset then bar.reset else noRange
  dev := describe (fun _ => noRange : U32 → Register 32) 0x80000000 0 0

/-- Different positions have different registers. -/
theorem position_inj {p q : BarPosition}
    (h : registerAddress 0x80000000 p.offset = registerAddress 0x80000000 q.offset) : p = q := by
  have bars : ∀ i j : Fin 6, registerAddress 0x80000000 (BarPosition.bar i).offset =
      registerAddress 0x80000000 (BarPosition.bar j).offset → i = j := by decide
  have rom : ∀ i : Fin 6, registerAddress 0x80000000 (BarPosition.bar i).offset ≠
      registerAddress 0x80000000 BarPosition.expansionRom.offset := by decide
  cases p with
  | bar i =>
      cases q with
      | bar j => rw [bars i j h]
      | expansionRom => exact absurd h (rom i)
  | expansionRom =>
      cases q with
      | bar j => exact absurd h.symm (rom j)
      | expansionRom => rfl

theorem hasBars_oneBar (position : BarPosition) (bar : Bar)
    (h : bar.kind = .rom ↔ position = .expansionRom) :
    HasBars (oneBar position bar).dev (oneBar position bar).space
      (fun p => if p = position then some bar else none) where
  occupies := by
    intro p
    by_cases hp : p = position
    · subst hp
      have hregister : registerAt (oneBar p bar).dev p.offset (oneBar p bar).space = bar.reset :=
        if_pos rfl
      rw [if_pos rfl, hregister]
      exact bar.describes_reset
    · have hregister : registerAt (oneBar position bar).dev p.offset (oneBar position bar).space =
          noRange := if_neg fun haddress => hp (position_inj haddress)
      rw [if_neg hp, hregister]
      exact ⟨rfl, rfl, rfl⟩
  rom := by
    intro p b hb
    by_cases hp : p = position
    · rw [if_pos hp] at hb
      cases hb
      rw [hp]
      exact h
    · rw [if_neg hp] at hb
      cases hb

/-! ### The size -/

section Size

variable {dev : PciDevice} {offset : U8} {s : Pci (U32 → Register 32)} {bar : Bar}
  {r : Register 32}

/-- The register has its old value again, and the result is what the ones left in it. -/
theorem returns_queryBarSize (plain : (registerAt dev offset s.space).Plain) :
    (queryBarSize dev offset).Returns s
      (-(((registerAt dev offset s.space).write 0xFFFFFFFF).value &&& 0xFFFFFFF0))
      (s.accessed dev offset s.space) := by
  refine (returns_readRegister.mpr ⟨rfl, rfl⟩).bind ?_
  refine .bind (a := ()) (returns_writeRegister.mpr rfl) ?_
  refine (returns_readRegister.mpr ⟨rfl, rfl⟩).bind ?_
  refine .bind (a := ()) (returns_writeRegister.mpr rfl) ?_
  rw [returns_pure]
  simp only [accessed_space, accessed_accessed, registerAt_put, putRegister_put,
    plain.write_write, plain.write_value, putRegister_at]
  exact ⟨BitVec.neg_eq_not_add _, trivial⟩

/-- The ones that are left, seen through the mask of a memory range. -/
theorem probed_mask (h : bar.Describes r) :
    (r.write 0xFFFFFFFF).value &&& 0xFFFFFFF0 = addressMask 32 (max bar.log 4) := by
  have ones : (0xFFFFFFFF : U32) = BitVec.allOnes 32 := rfl
  have mask : (0xFFFFFFF0 : U32) = addressMask 32 4 := rfl
  have flags : bar.kind.flagBits ≤ 4 := by cases bar.kind <;> decide
  rw [ones, mask]
  apply BitVec.eq_of_getLsbD_eq
  intro i hi
  rw [BitVec.getLsbD_and, h.plain.getLsbD_write hi, h.writable i hi, getLsbD_addressMask,
    getLsbD_addressMask, BitVec.getLsbD_allOnes, decide_eq_true hi]
  by_cases hlow : i < 4
  · rw [decide_eq_false (by omega : ¬ (4 ≤ i ∧ i < 32)), Bool.and_false,
      decide_eq_false (by omega : ¬ (max bar.log 4 ≤ i ∧ i < 32))]
  · by_cases hlog : bar.log ≤ i
    · simp [hlog, hi]
    · have hzero := h.low i (by omega) (by omega)
      have hrom : ¬ (bar.kind = .rom ∧ i = 0) := by omega
      simp [hlog, hrom, hzero]

/-- An I/O range of 4 or 8 bytes. -/
def SmallIo : Option Bar → Prop
  | some bar => bar.kind = .io ∧ bar.log < 4
  | none => False

/-- The query returns the size of what is at the position and changes no register. -/
def SizeFound (dev : PciDevice) (position : BarPosition) (bar : Option Bar)
    (s : Pci (U32 → Register 32)) : Prop :=
  Total (queryBarSize dev position.offset) s fun size t => size = barSize bar ∧ t.space = s.space

theorem Occupies.plain {bar : Option Bar} (h : Occupies r bar) : r.Plain := by
  cases bar with
  | none => exact h.1
  | some bar => exact Bar.Describes.plain h

/-- A size that is right in spite of the mask. -/
theorem twoPow_max (bar : Bar) : BitVec.twoPow 32 (max bar.log 4) = bar.size ↔ 4 ≤ bar.log := by
  have hmost := bar.most
  constructor
  · intro h
    have hbit := congrArg (fun x : U32 => x.getLsbD bar.log) h
    simp only [Bar.size, BitVec.getLsbD_twoPow, hmost, decide_true, Bool.and_true,
      decide_eq_true_eq, Bool.and_eq_true] at hbit
    omega
  · intro h
    rw [Nat.max_eq_left h, Bar.size]

/-- What the query returns is the size, unless the mask of a memory range hides it. -/
theorem queried_size {bar : Option Bar} (h : Occupies r bar) :
    -((r.write 0xFFFFFFFF).value &&& 0xFFFFFFF0) = barSize bar ↔ ¬ SmallIo bar := by
  cases bar with
  | none =>
      obtain ⟨hplain, hwritable, hvalue⟩ := h
      have hprobed : (r.write 0xFFFFFFFF).value = 0 := by
        rw [value_write, hwritable, hvalue]
        simp
      rw [hprobed]
      exact iff_of_true rfl not_false
  | some bar =>
      rw [probed_mask h, neg_addressMask, barSize, twoPow_max, SmallIo]
      have hleast := bar.least
      cases hkind : bar.kind with
      | memory =>
          rw [hkind] at hleast
          exact iff_of_true hleast fun hsmall => nomatch hsmall.1
      | io =>
          rw [and_iff_right rfl, Nat.not_lt]
      | rom =>
          rw [hkind] at hleast
          exact iff_of_true (Nat.le_trans (by decide) hleast) fun hsmall => nomatch hsmall.1

theorem sizeFound_iff {position : BarPosition} {bar : Option Bar}
    (h : Occupies (registerAt dev position.offset s.space) bar) :
    SizeFound dev position bar s ↔ ¬ SmallIo bar := by
  have query := returns_queryBarSize h.plain
  rw [← queried_size h]
  constructor
  · intro found
    exact (found.returns query).1
  · intro hsize
    exact ⟨_, _, query, hsize, rfl⟩

/-- The size that is found is right exactly when the range is not an I/O range of 4 or 8
bytes. -/
theorem queryBarSize_iff {bars : BarPosition → Option Bar} (h : HasBars dev s.space bars)
    (position : BarPosition) :
    SizeFound dev position (bars position) s ↔ ¬ SmallIo (bars position) :=
  sizeFound_iff (h.occupies position)

end Size

/-- The ports of a parallel interface. -/
def eightPorts : Bar where
  kind := .io
  log := 3
  least := by decide
  most := by decide

/-- A frame buffer of 16 MB. -/
def frameBuffer : Bar where
  kind := .memory
  log := 24
  least := by decide
  most := by decide

theorem queryBarSize_frameBuffer :
    SizeFound (oneBar (.bar 0) frameBuffer).dev (.bar 0) (some frameBuffer)
      (oneBar (.bar 0) frameBuffer) :=
  (queryBarSize_iff (hasBars_oneBar (.bar 0) frameBuffer (by decide))
    (.bar 0)).mpr fun hsmall => nomatch hsmall.1

/-- Eight ports are reported as sixteen. -/
theorem queryBarSize_fails :
    ¬ ∀ (dev : PciDevice) (s : Pci (U32 → Register 32)) (bars : BarPosition → Option Bar),
      HasBars dev s.space bars → ∀ position, SizeFound dev position (bars position) s := by
  intro h
  have hbars : HasBars (oneBar (.bar 0) eightPorts).dev (oneBar (.bar 0) eightPorts).space
      (fun p => if p = .bar 0 then some eightPorts else none) :=
    hasBars_oneBar (.bar 0) eightPorts (by decide)
  have found := h _ _ _ hbars (.bar 0)
  exact (sizeFound_iff (hbars.occupies (.bar 0))).mp found ⟨rfl, by decide⟩

/-! ### The mapping -/

section Mapping

variable {dev : PciDevice} {s : Pci (U32 → Register 32)} {bar : Bar} {position : BarPosition}
  {r : Register 32} {address : U32} {i : Nat}

/-- The range is mapped and unmapped, and the mapping is read each time. -/
def mapAndUnmap {κ : Type} [ConfigSpace κ] (dev : PciDevice) (bar : U8) (address : U32) :
    Prog (Pci κ) (U32 × U32) := do
  pciMapBar dev bar address
  let mapped ← pciGetMapping dev bar
  pciUnmapBar dev bar
  let unmapped ← pciGetMapping dev bar
  return (mapped, unmapped)

/-- The address that was mapped is read back, and then 0. -/
def MapsBack (dev : PciDevice) (position : BarPosition) (address : U32)
    (s : Pci (U32 → Register 32)) : Prop :=
  Total (mapAndUnmap dev position.offset address) s fun mappings _ => mappings = (address, 0)

/-- No flag is in the way: a memory range has its type bits 2 and 3 clear, and of an I/O range
the register has every low address bit that the address has. -/
def NoFlagInTheWay (kind : BarKind) (current address : U32) : Prop :=
  match kind with
  | .memory => current &&& 0xC = 0
  | .io => address &&& ~~~current &&& 0xC = 0
  | .rom => True

instance (kind : BarKind) (current address : U32) :
    Decidable (NoFlagInTheWay kind current address) :=
  match kind with
  | .memory => inferInstanceAs (Decidable (_ = _))
  | .io => inferInstanceAs (Decidable (_ = _))
  | .rom => inferInstanceAs (Decidable True)

theorem pciMapBar_total (bar : U8) : Total (pciMapBar dev bar address) s fun _ t =>
    t.space = putRegister dev bar ((registerAt dev bar s.space).write
      (mappedValue bar (registerAt dev bar s.space).value address)) s.space :=
  ⟨(), _, (returns_readRegister.mpr ⟨rfl, rfl⟩).bind (returns_writeRegister.mpr rfl), rfl⟩

theorem pciUnmapBar_total (bar : U8) : Total (pciUnmapBar dev bar) s fun _ t =>
    t.space = putRegister dev bar ((registerAt dev bar s.space).write 0) s.space :=
  ⟨(), _, returns_writeRegister.mpr rfl, rfl⟩

theorem pciGetMapping_total (bar : U8) : Total (pciGetMapping dev bar) s fun v t =>
    v = (registerAt dev bar s.space).value &&& 0xFFFFFFFC ∧ t.space = s.space :=
  ⟨_, _, (returns_readRegister.mpr ⟨rfl, rfl⟩).bind (returns_pure.mpr ⟨rfl, rfl⟩), rfl, rfl⟩

/-- The two mappings, from the register before the calls. -/
theorem mapAndUnmap_total {bar : U8} (plain : (registerAt dev bar s.space).Plain) :
    Total (mapAndUnmap dev bar address) s fun mappings _ => mappings =
      (((registerAt dev bar s.space).write
          (mappedValue bar (registerAt dev bar s.space).value address)).value &&& 0xFFFFFFFC,
        ((registerAt dev bar s.space).write 0).value &&& 0xFFFFFFFC) := by
  refine (pciMapBar_total bar).bind ?_
  intro _ t₁ ht₁
  refine (pciGetMapping_total bar).bind ?_
  rintro _ t₂ ⟨rfl, ht₂⟩
  refine (pciUnmapBar_total bar).bind ?_
  intro _ t₃ ht₃
  refine (pciGetMapping_total bar).bind ?_
  rintro _ t₄ ⟨rfl, -⟩
  refine total_pure ?_
  rw [ht₃, ht₂, ht₁, registerAt_put, registerAt_put, plain.write_write]

/-- The mapping that is read after `v` is written, bit by bit. Bits 0 and 1 are not part
of it. -/
theorem mapping_eq (h : bar.Describes r) {v x : U32} (hx : ∀ i < 2, x.getLsbD i = false) :
    (r.write v).value &&& 0xFFFFFFFC = x ↔
      ∀ i, 2 ≤ i → i < 32 →
        (if bar.log ≤ i then v.getLsbD i else r.value.getLsbD i) = x.getLsbD i := by
  have mask : (0xFFFFFFFC : U32) = addressMask 32 2 := rfl
  have bit : ∀ i, 2 ≤ i → i < 32 → ((r.write v).value &&& 0xFFFFFFFC).getLsbD i =
      if bar.log ≤ i then v.getLsbD i else r.value.getLsbD i := by
    intro i hlow hi
    have hrom : ¬ (bar.kind = .rom ∧ i = 0) := by omega
    rw [mask, BitVec.getLsbD_and, getLsbD_addressMask, decide_eq_true ⟨hlow, hi⟩, Bool.and_true,
      h.plain.getLsbD_write hi, h.writable i hi]
    simp only [hrom, or_false, decide_eq_true_eq]
  constructor
  · intro heq i hlow hi
    rw [← bit i hlow hi, heq]
  · intro hbits
    apply BitVec.eq_of_getLsbD_eq
    intro i hi
    by_cases hlow : 2 ≤ i
    · rw [bit i hlow hi, hbits i hlow hi]
    · rw [hx i (by omega), mask, BitVec.getLsbD_and, getLsbD_addressMask,
        decide_eq_false (by omega), Bool.and_false]

/-- Two bits that are 0. -/
theorem and_typeBits {x : U32} : x &&& 0xC = 0 ↔ ∀ i, 2 ≤ i → i < 4 → x.getLsbD i = false := by
  have mask : (0xC : U32) = addressMask 32 2 &&& ~~~addressMask 32 4 := rfl
  have bit : ∀ i < 32, (x &&& 0xC).getLsbD i = (x.getLsbD i && decide (2 ≤ i ∧ i < 4)) := by
    intro i hi
    rw [mask, BitVec.getLsbD_and, BitVec.getLsbD_and, BitVec.getLsbD_not, getLsbD_addressMask,
      getLsbD_addressMask]
    by_cases hlow : 2 ≤ i
    · by_cases hfour : i < 4
      · simp [hi, hlow, hfour]
      · simp [hi, hlow, hfour]
        omega
    · simp [hlow]
  constructor
  · intro h i hlow hfour
    have hbit := bit i (by omega)
    rw [h, decide_eq_true ⟨hlow, hfour⟩, Bool.and_true] at hbit
    exact hbit.symm.trans BitVec.getLsbD_zero
  · intro h
    apply BitVec.eq_of_getLsbD_eq
    intro i hi
    refine (bit i hi).trans (Eq.trans ?_ BitVec.getLsbD_zero.symm)
    by_cases hin : 2 ≤ i ∧ i < 4
    · rw [h i hin.1 hin.2, Bool.false_and]
    · rw [decide_eq_false hin, Bool.and_false]

/-- Without the enable bit, the low address bits are those the register has already. -/
theorem mappedValue_bit {offset : U8} (hoffset : offset ≠ pciConfigExpansionRomBase)
    (current : U32) (hi : i < 32) : (mappedValue offset current address).getLsbD i =
      (address.getLsbD i && (decide (4 ≤ i) || current.getLsbD i)) := by
  have mask : (0xFFFFFFF0 : U32) = addressMask 32 4 := rfl
  have low : (0xF : U32) = ~~~addressMask 32 4 := rfl
  rw [mappedValue, if_neg hoffset, mask, low, BitVec.getLsbD_and, BitVec.getLsbD_or,
    BitVec.getLsbD_and, BitVec.getLsbD_not, getLsbD_addressMask]
  by_cases hfour : 4 ≤ i <;> simp [hi, hfour]

/-- The address of a ROM is stored as it is. -/
theorem mappedValue_rom (current : U32) (hlow : 4 ≤ i) (hi : i < 32) :
    (mappedValue pciConfigExpansionRomBase current address).getLsbD i = address.getLsbD i := by
  have mask : (0xFFFFFFF0 : U32) = addressMask 32 4 := rfl
  have one : (1 : U32) = ~~~addressMask 32 1 := rfl
  have prefetch : (0x8 : U32) = addressMask 32 3 &&& ~~~addressMask 32 4 := rfl
  rw [mappedValue, if_pos rfl, mask, one, prefetch]
  simp only [BitVec.getLsbD_and, BitVec.getLsbD_or, BitVec.getLsbD_not, getLsbD_addressMask]
  simp [hi, hlow]
  omega

theorem getLsbD_zero : (0 : U32).getLsbD i = false := BitVec.getLsbD_zero

theorem Bar.address_low (bar : Bar) (aligned : Aligned bar.log address) :
    ∀ i < 2, address.getLsbD i = false := by
  intro i hi
  have hleast := bar.least
  have htwo : 2 ≤ bar.kind.leastLog := by cases bar.kind <;> decide
  exact aligned.getLsbD (by omega)

/-- A memory range: its type bits are seen in the mapping. -/
theorem mappings_memory {offset : U8} (h : bar.Describes r) (hkind : bar.kind = .memory)
    (aligned : Aligned bar.log address) (hoffset : offset ≠ pciConfigExpansionRomBase) :
    ((r.write (mappedValue offset r.value address)).value &&& 0xFFFFFFFC = address ∧
        (r.write 0).value &&& 0xFFFFFFFC = 0) ↔ r.value &&& 0xC = 0 := by
  have hlog : 4 ≤ bar.log := by
    have hleast := bar.least
    rwa [hkind] at hleast
  have hflags : bar.kind.flagBits = 4 := by rw [hkind]; rfl
  rw [mapping_eq h (bar.address_low aligned), mapping_eq h fun i _ => getLsbD_zero, and_typeBits]
  constructor
  · rintro ⟨-, hunmapped⟩ i hlow hi
    have hbit := hunmapped i hlow (by omega)
    rwa [if_neg (by omega), getLsbD_zero] at hbit
  · intro htype
    have hrest : ∀ i, 2 ≤ i → i < bar.log → r.value.getLsbD i = false := by
      intro i hlow hi
      by_cases hfour : i < 4
      · exact htype i hlow hfour
      · exact h.low i (by omega) hi
    constructor
    · intro i hlow hi
      by_cases hin : bar.log ≤ i
      · rw [if_pos hin, mappedValue_bit hoffset _ hi, decide_eq_true (by omega), Bool.true_or,
          Bool.and_true]
      · rw [if_neg hin, hrest i hlow (by omega), aligned.getLsbD (by omega)]
    · intro i hlow hi
      by_cases hin : bar.log ≤ i
      · rw [if_pos hin]
      · rw [if_neg hin, hrest i hlow (by omega), getLsbD_zero]

/-- An I/O range: address bits 2 and 3 are stored where the register has them already. -/
theorem mappings_io {offset : U8} (h : bar.Describes r) (hkind : bar.kind = .io)
    (aligned : Aligned bar.log address) (hoffset : offset ≠ pciConfigExpansionRomBase) :
    ((r.write (mappedValue offset r.value address)).value &&& 0xFFFFFFFC = address ∧
        (r.write 0).value &&& 0xFFFFFFFC = 0) ↔ address &&& ~~~r.value &&& 0xC = 0 := by
  have hflags : bar.kind.flagBits = 2 := by rw [hkind]; rfl
  rw [mapping_eq h (bar.address_low aligned), mapping_eq h fun i _ => getLsbD_zero, and_typeBits]
  have hstored : ∀ i < 32, (address &&& ~~~r.value).getLsbD i =
      (address.getLsbD i && !r.value.getLsbD i) := by
    intro i hi
    rw [BitVec.getLsbD_and, BitVec.getLsbD_not, decide_eq_true hi, Bool.true_and]
  constructor
  · rintro ⟨hmapped, -⟩ i hlow hi
    rw [hstored i (by omega)]
    by_cases hin : bar.log ≤ i
    · have hbit := hmapped i hlow (by omega)
      rw [if_pos hin, mappedValue_bit hoffset _ (by omega), decide_eq_false (by omega),
        Bool.false_or] at hbit
      rw [← hbit]
      cases r.value.getLsbD i <;> simp
    · rw [aligned.getLsbD (by omega), Bool.false_and]
  · intro hbits
    constructor
    · intro i hlow hi
      by_cases hin : bar.log ≤ i
      · rw [if_pos hin, mappedValue_bit hoffset _ hi]
        by_cases hfour : 4 ≤ i
        · rw [decide_eq_true hfour, Bool.true_or, Bool.and_true]
        · have hbit := hbits i hlow (by omega)
          rw [hstored i hi] at hbit
          rw [decide_eq_false hfour, Bool.false_or]
          cases haddress : address.getLsbD i with
          | false => rfl
          | true =>
              rw [haddress, Bool.true_and, Bool.not_eq_false'] at hbit
              rw [hbit, Bool.true_and]
      · rw [if_neg hin, h.low i (by omega) (by omega), aligned.getLsbD (by omega)]
    · intro i hlow hi
      by_cases hin : bar.log ≤ i
      · rw [if_pos hin]
      · rw [if_neg hin, h.low i (by omega) (by omega), getLsbD_zero]

/-- A ROM. -/
theorem mappings_rom (h : bar.Describes r) (hkind : bar.kind = .rom)
    (aligned : Aligned bar.log address) :
    (r.write (mappedValue pciConfigExpansionRomBase r.value address)).value &&& 0xFFFFFFFC =
        address ∧ (r.write 0).value &&& 0xFFFFFFFC = 0 := by
  have hlog : 11 ≤ bar.log := by
    have hleast := bar.least
    rwa [hkind] at hleast
  have hflags : bar.kind.flagBits = 1 := by rw [hkind]; rfl
  rw [mapping_eq h (bar.address_low aligned), mapping_eq h fun i _ => getLsbD_zero]
  constructor
  · intro i hlow hi
    by_cases hin : bar.log ≤ i
    · rw [if_pos hin, mappedValue_rom _ (by omega) hi]
    · rw [if_neg hin, h.low i (by omega) (by omega), aligned.getLsbD (by omega)]
  · intro i hlow hi
    by_cases hin : bar.log ≤ i
    · rw [if_pos hin]
    · rw [if_neg hin, h.low i (by omega) (by omega), getLsbD_zero]

theorem position_offset (h : position ≠ .expansionRom) :
    position.offset ≠ pciConfigExpansionRomBase := by
  have hbars : ∀ i : Fin 6, (BarPosition.bar i).offset ≠ pciConfigExpansionRomBase := by decide
  cases position with
  | bar i => exact hbars i
  | expansionRom => exact absurd rfl h

/-- The mapping of a range is read back exactly when no flag is in the way. -/
theorem mapsBack_iff (h : bar.Describes (registerAt dev position.offset s.space))
    (hrom : bar.kind = .rom ↔ position = .expansionRom) (aligned : Aligned bar.log address) :
    MapsBack dev position address s ↔
      NoFlagInTheWay bar.kind (registerAt dev position.offset s.space).value address := by
  rw [MapsBack, (mapAndUnmap_total h.plain).result_iff, Prod.mk.injEq]
  cases hkind : bar.kind with
  | memory =>
      have hposition : position ≠ .expansionRom := hrom.not.mp (by rw [hkind]; nofun)
      exact mappings_memory h hkind aligned (position_offset hposition)
  | io =>
      have hposition : position ≠ .expansionRom := hrom.not.mp (by rw [hkind]; nofun)
      exact mappings_io h hkind aligned (position_offset hposition)
  | rom =>
      obtain rfl := hrom.mp hkind
      exact iff_of_true (mappings_rom h hkind aligned) trivial

/-- For the ranges of a device. -/
theorem pciMapBar_iff {bars : BarPosition → Option Bar} (h : HasBars dev s.space bars)
    (hbar : bars position = some bar) (aligned : Aligned bar.log address) :
    MapsBack dev position address s ↔
      NoFlagInTheWay bar.kind (registerAt dev position.offset s.space).value address := by
  have hdescribes := h.occupies position
  rw [hbar] at hdescribes
  exact mapsBack_iff hdescribes (h.rom position bar hbar) aligned

end Mapping

/-- The frame buffer at `0xE0000000`. -/
theorem pciMapBar_frameBuffer :
    MapsBack (oneBar (.bar 0) frameBuffer).dev (.bar 0) 0xE0000000 (oneBar (.bar 0) frameBuffer) :=
  (pciMapBar_iff (hasBars_oneBar (.bar 0) frameBuffer (by decide)) rfl
    (by decide)).mpr (by decide)

/-- The eight ports at `0x378` are read back at `0x370`. -/
theorem pciMapBar_fails :
    ¬ ∀ (dev : PciDevice) (s : Pci (U32 → Register 32)) (bars : BarPosition → Option Bar),
      HasBars dev s.space bars → ∀ position bar, bars position = some bar →
        ∀ address, Aligned bar.log address → MapsBack dev position address s := by
  intro h
  have hbars : HasBars (oneBar (.bar 0) eightPorts).dev (oneBar (.bar 0) eightPorts).space
      (fun p => if p = .bar 0 then some eightPorts else none) :=
    hasBars_oneBar (.bar 0) eightPorts (by decide)
  have maps := h _ _ _ hbars (.bar 0) eightPorts rfl 0x378 (by decide)
  have flag := (mapsBack_iff (hbars.occupies (.bar 0)) (by decide) (by decide)).mp maps
  exact absurd flag (by decide)

end MyBios
