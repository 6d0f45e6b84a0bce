import MyBios.Pci.Bar
import MyBios.Pci.Command
import MyBios.Pci.Isolation

/-!
The enumeration of the bus at boot (`pci_configure` of `pci.c`).

The 32 devices of 128 buses are gone through. Of each one that is there the seven ranges
are measured, by writing ones to their registers. The first display controller whose ROM
has no address is enabled, with its ROM at an address for the chipset to copy it from,
and that ends the enumeration.

* `pci_configure_spec`: whatever devices are there, measuring them changes no register. If
  there is no such controller, the configuration space is as it was; otherwise only the
  command and the ROM register of the first one are changed when its ROM is shadowed.
-/

namespace MyBios

open Prog Register

/-! ### The code -/

/-- The configuration ports, and the rest of the board. -/
structure PciBoard (κ μ : Type) where
  pci : Pci κ
  rest : μ

def PciBoard.pciLens (κ μ : Type) : Lens (PciBoard κ μ) (Pci κ) where
  get := PciBoard.pci
  set pci s := { s with pci := pci }
  get_set _ _ := rfl
  set_get _ := rfl

/-- What is used of `chipset.h`. -/
structure ChipsetRom (κ μ : Type) where
  hasPci : Bool
  hasRomShadowing : Bool
  shadowRomFromSrc (address len src : U32) : Prog (PciBoard κ μ) Bool

section Code

variable {κ μ : Type} [ConfigSpace κ]

def onPci {α : Type} (p : Prog (Pci κ) α) : Prog (PciBoard κ μ) α := zoom (PciBoard.pciLens κ μ) p

def pciClassDisplay : U8 := 0x03

/-- The order in which the ranges are measured. -/
def barPositions : List BarPosition :=
  [.bar 0, .bar 1, .bar 2, .bar 3, .bar 4, .bar 5, .expansionRom]

/-- `bar_sizes`. -/
def queryBarSizes (dev : PciDevice) : List BarPosition → Prog (Pci κ) (List U32)
  | [] => pure []
  | position :: positions => do
    let size ← queryBarSize dev position.offset
    let sizes ← queryBarSizes dev positions
    return size :: sizes

/-- Where the ROM is mapped: to the high address if it is copied from there. -/
def romWindow (chipset : ChipsetRom κ μ) : U32 :=
  if chipset.hasRomShadowing then 0xEFFC0000 else 0xC0000

/-- The end of the enumeration: `dev` points to the global record. -/
def shadowRom (chipset : ChipsetRom κ μ) (size : U32) : Prog (PciBoard κ μ) Unit :=
  when chipset.hasRomShadowing do
    let _ ← chipset.shadowRomFromSrc 0xC0000 size (romWindow chipset)
    let dev ← gets fun s => s.pci.dev
    onPci (pciUnmapBar dev pciConfigExpansionRomBase)

/-- The ROM is mapped and the device enabled; the result is the size of the ROM. -/
def mapRom (chipset : ChipsetRom κ μ) (dev : PciDevice) : Prog (Pci κ) U32 := do
  let size ← queryBarSize dev pciConfigExpansionRomBase
  pciMapBar dev pciConfigExpansionRomBase (romWindow chipset)
  pciEnableBusMastering dev
  pciEnableIo dev
  pciEnableMemory dev
  return size

/-- What is done for a display controller without a ROM address; `true` is a `return` from
`pci_configure`. -/
def configureRom (chipset : ChipsetRom κ μ) (dev : PciDevice) : Prog (PciBoard κ μ) Bool := do
  let size ← onPci (mapRom chipset dev)
  shadowRom chipset size
  return true

/-- What is done for a display controller. -/
def configureDisplay (chipset : ChipsetRom κ μ) (dev : PciDevice) : Prog (PciBoard κ μ) Bool := do
  let addr ← onPci (pciGetMapping dev pciConfigExpansionRomBase)
  if addr ≠ 0 then return false
  else configureRom chipset dev

/-- What is done for a device that is there. -/
def configureDevice (chipset : ChipsetRom κ μ) (dev : PciDevice) : Prog (PciBoard κ μ) Bool := do
  let _ ← onPci (queryBarSizes dev barPositions)
  if dev.class_ = pciClassDisplay ∧ dev.subclass = 0 then configureDisplay chipset dev
  else return false

/-- The body of the inner loop. -/
def configureSlot (chipset : ChipsetRom κ μ) (slot : PciSlot) : Prog (PciBoard κ μ) Bool := do
  match ← onPci (pciGetDevice (BitVec.ofNat 8 slot.1) (BitVec.ofNat 8 slot.2)) with
  | none => return false
  | some dev => configureDevice chipset dev

/-- The loop over the devices of a bus. -/
def configureBus (chipset : ChipsetRom κ μ) (bus device : Nat) : Prog (PciBoard κ μ) Bool :=
  loop (fun device =>
    if device ≤ 31 then do
      if ← configureSlot chipset (bus, device) then return .done true
      else return .again (device + 1)
    else return .done false) device

/-- The loop over the buses. -/
def configureBuses (chipset : ChipsetRom κ μ) (bus : Nat) : Prog (PciBoard κ μ) Bool :=
  loop (fun bus =>
    if bus ≤ 127 then do
      if ← configureBus chipset bus 0 then return .done true
      else return .again (bus + 1)
    else return .done false) bus

/-- `pci_configure`. -/
def pciConfigure (chipset : ChipsetRom κ μ) : Prog (PciBoard κ μ) Unit :=
  if ¬ chipset.hasPci then return ()
  else do
    let _ ← configureBuses chipset 0
    return ()

end Code

/-! ### What the enumeration is for -/

/-- Configuration spaces of device registers. -/
abbrev Registers := U32 → Register 32

/-- The device has these ranges, and a command register. -/
structure ProperDevice (space : Registers) (dev : PciDevice)
    (bars : BarPosition → Option Bar) : Prop where
  bars : HasBars dev space bars
  command : CommandStatus (registerAt dev 4 space)

/-- A display controller whose ROM has no address. -/
def unmappedDisplay (space : Registers) (dev : PciDevice) : Bool :=
  dev.class_ = pciClassDisplay ∧ dev.subclass = 0 ∧
    (registerAt dev pciConfigExpansionRomBase space).value &&& 0xFFFFFFFC = 0

/-- What is found at a device: an unmapped display controller, with its ROM if it has one. -/
def foundAt (space : Registers) (bars : BarPosition → Option Bar) (dev : PciDevice) :
    Option (PciDevice × Option Bar) :=
  if unmappedDisplay space dev then some (dev, bars .expansionRom) else none

/-- What is found first in these slots, `bars` being the ranges of their devices. -/
def firstFound (space : Registers) (bars : PciSlot → BarPosition → Option Bar)
    (slots : List PciSlot) : Option (PciDevice × Option Bar) :=
  slots.findSome? fun slot =>
    if slotPresent space slot then foundAt space (bars slot) (deviceAt space slot) else none

section Enumeration

variable {μ : Type}

/-- The register of a ROM that shows at `window`, until 0 is written to it. -/
structure RomShows (r : Register 32) (window : U32) : Prop where
  window : r.value &&& 0xFFFFFFFC = window
  enabled : r.value.getLsbD 0 = true
  unmaps : (r.write 0).value &&& 0xFFFFFFFC = 0

/-- The state in which the ROM of `dev` is shadowed: a ROM of at most 256 KB shows at its
window, the device is enabled, and all other registers are as they were. -/
structure RomMapped (chipset : ChipsetRom Registers μ) (dev : PciDevice) (rom : Option Bar)
    (s u : PciBoard Registers μ) : Prop where
  rest : u.rest = s.rest
  record : u.pci.dev = dev
  shows : ∀ bar, rom = some bar → bar.log ≤ 18 →
    RomShows (registerAt dev pciConfigExpansionRomBase u.pci.space) (romWindow chipset)
  command : (registerAt dev 4 u.pci.space).value =
    ((registerAt dev 4 s.pci.space).value &&& ~~~errorBits) ||| 0x7
  others : ∀ a, a ≠ registerAddress dev.baseConfigAddress pciConfigExpansionRomBase →
    a ≠ registerAddress dev.baseConfigAddress 4 → u.pci.space a = s.pci.space a

/-- Nothing but the address latch and the global record is different. -/
structure SameBoard (s t : PciBoard Registers μ) : Prop where
  space : t.pci.space = s.pci.space
  rest : t.rest = s.rest

/-- The program comes to the shadowing of the ROM of a device, or to its end without a
change. -/
def ComesTo (chipset : ChipsetRom Registers μ) (found : Option (PciDevice × Option Bar))
    (p : Prog (PciBoard Registers μ) Bool) (s : PciBoard Registers μ) : Prop :=
  match found with
  | none => ∃ t, p.Returns s false t ∧ SameBoard s t
  | some (dev, rom) => ∃ u, RomMapped chipset dev rom s u ∧
      ∀ r t, p.Returns s r t ↔ r = true ∧ (shadowRom chipset (barSize rom)).Returns u () t

/-! ### One device -/

section Device

variable {chipset : ChipsetRom Registers μ} {dev : PciDevice} {bars : BarPosition → Option Bar}
  {p : Pci Registers} {bar : Bar}

/-- Measuring the ranges changes no register. -/
theorem queryBarSizes_total (positions : List BarPosition) (h : HasBars dev p.space bars) :
    Total (queryBarSizes dev positions) p fun _ q => q.space = p.space ∧ q.dev = p.dev := by
  induction positions generalizing p with
  | nil => exact total_pure ⟨rfl, rfl⟩
  | cons position positions ih =>
      have hquery := returns_queryBarSize (h.occupies position).plain
      refine (Total.of_returns hquery).bind ?_
      rintro size _ ⟨rfl, rfl⟩
      refine (ih (p := p.accessed dev position.offset p.space) h).bind ?_
      rintro sizes q ⟨hspace, hdev⟩
      exact total_pure ⟨hspace, hdev⟩

theorem address_ne (base : U32) :
    registerAddress base 4 ≠ registerAddress base pciConfigExpansionRomBase := by
  intro h
  have hoffset := congrArg (Lane.get 8 0) h
  rw [registerAddress_offset, registerAddress_offset] at hoffset
  exact absurd hoffset (by decide)

theorem returns_pciMapBar (offset : U8) (address : U32) :
    (pciMapBar dev offset address).Returns p () (p.accessed dev offset (putRegister dev offset
      ((registerAt dev offset p.space).write
        (mappedValue offset (registerAt dev offset p.space).value address)) p.space)) :=
  (returns_readRegister.mpr ⟨rfl, rfl⟩).bind (returns_writeRegister.mpr rfl)

theorem returns_pciEnable (bit : U32) :
    (pciEnable bit dev).Returns p () (p.accessed dev 4 (putRegister dev 4
      ((registerAt dev 4 p.space).write ((registerAt dev 4 p.space).value ||| bit)) p.space)) :=
  (returns_readRegister.mpr ⟨rfl, rfl⟩).bind (returns_writeRegister.mpr rfl)

def enableCalls : List EnableCall := [.busMastering, .io, .memory]

/-- The registers with the ROM at `address` and the device enabled. -/
def mappedSpace (dev : PciDevice) (address : U32) (space : Registers) : Registers :=
  let rom := registerAt dev pciConfigExpansionRomBase space
  putRegister dev 4 (enabled enableCalls (registerAt dev 4 space))
    (putRegister dev pciConfigExpansionRomBase
      (rom.write (mappedValue pciConfigExpansionRomBase rom.value address)) space)

/-- The ROM register is not the command register. -/
theorem registerAt_rom {r : Register 32} {space : Registers} :
    registerAt dev 4 (putRegister dev pciConfigExpansionRomBase r space) =
      registerAt dev 4 space :=
  Function.update_of_ne (address_ne _) _ _

theorem registerAt_command {r : Register 32} {space : Registers} :
    registerAt dev pciConfigExpansionRomBase (putRegister dev 4 r space) =
      registerAt dev pciConfigExpansionRomBase space :=
  Function.update_of_ne (address_ne _).symm _ _

/-- The three calls one after the other. -/
theorem enabled_calls {r : Register 32} (h : CommandStatus r) :
    enabled enableCalls r =
      (((r.write (r.value ||| 0x4)).write ((r.write (r.value ||| 0x4)).value ||| 0x1)).write
        (((r.write (r.value ||| 0x4)).write ((r.write (r.value ||| 0x4)).value ||| 0x1)).value |||
          0x2)) := by
  rw [enableCalls, enabled_cons h, enabled_cons h.write, enabled_cons h.write.write, enabled,
    if_pos rfl]
  rfl

/-- The size of a ROM is found. -/
theorem queried_rom {space : Registers} (h : HasBars dev space bars) :
    -(((registerAt dev pciConfigExpansionRomBase space).write 0xFFFFFFFF).value &&& 0xFFFFFFF0) =
      barSize (bars .expansionRom) := by
  refine (queried_size (h.occupies .expansionRom)).mpr ?_
  cases hbar : bars .expansionRom with
  | none => exact id
  | some bar =>
      rintro ⟨hio, -⟩
      have hkind : bar.kind = .rom := (h.rom _ _ hbar).mpr rfl
      rw [hkind] at hio
      cases hio

theorem returns_mapRom (chipset : ChipsetRom Registers μ) (h : ProperDevice p.space dev bars) :
    (mapRom chipset dev).Returns p (barSize (bars .expansionRom))
      (p.accessed dev 4 (mappedSpace dev (romWindow chipset) p.space)) := by
  rw [← queried_rom h.bars]
  refine (returns_queryBarSize (h.bars.occupies .expansionRom).plain).bind ?_
  refine (returns_pciMapBar _ _).bind ?_
  refine (returns_pciEnable _).bind ?_
  refine (returns_pciEnable _).bind ?_
  refine (returns_pciEnable _).bind ?_
  rw [returns_pure, mappedSpace, enabled_calls h.command]
  simp only [accessed_space, accessed_accessed, registerAt_put, putRegister_put, registerAt_rom]
  exact ⟨rfl, rfl⟩

/-- Both windows are at multiples of 256 KB. -/
theorem aligned_window {k : Nat} (hk : k ≤ 18) : Aligned k (romWindow chipset) := by
  have hwindow : Aligned 18 (romWindow chipset) := by
    unfold romWindow
    split <;> decide
  exact hwindow.mono hk

/-- The register of a ROM has its enable bit. -/
theorem Bar.Describes.enable {r : Register 32} {v : U32} (h : bar.Describes r)
    (hkind : bar.kind = .rom) : (r.write v).value.getLsbD 0 = v.getLsbD 0 := by
  rw [h.plain.getLsbD_write (by decide), h.writable 0 (by decide),
    decide_eq_true (.inr ⟨hkind, rfl⟩), if_pos rfl]

theorem mappedValue_enable (current address : U32) :
    (mappedValue pciConfigExpansionRomBase current address).getLsbD 0 = true := by
  simp [mappedValue]

theorem romMapped_mapRom {s : PciBoard Registers μ} (h : ProperDevice s.pci.space dev bars)
    (hdev : s.pci.dev = dev) :
    RomMapped chipset dev (bars .expansionRom) s
      { s with
        pci := s.pci.accessed dev 4 (mappedSpace dev (romWindow chipset) s.pci.space) } := by
  have hrom : registerAt dev pciConfigExpansionRomBase
      (mappedSpace dev (romWindow chipset) s.pci.space) = _ :=
    registerAt_command.trans registerAt_put
  have hcommand : registerAt dev 4 (mappedSpace dev (romWindow chipset) s.pci.space) = _ :=
    registerAt_put
  refine
    { rest := rfl
      record := hdev
      shows := ?_
      command := ?_
      others := ?_ }
  · intro bar hbar hlog
    have hdescribes : bar.Describes (registerAt dev pciConfigExpansionRomBase s.pci.space) := by
      have hoccupies := h.bars.occupies .expansionRom
      rwa [hbar] at hoccupies
    have hkind : bar.kind = .rom := (h.bars.rom _ _ hbar).mpr rfl
    have haligned : Aligned bar.log (romWindow chipset) := aligned_window hlog
    have hmappings := mappings_rom hdescribes hkind haligned
    rw [accessed_space, hrom]
    refine ⟨hmappings.1, ?_, ?_⟩
    · exact (Bar.Describes.enable hdescribes hkind).trans (mappedValue_enable _ _)
    · rw [hdescribes.plain.write_write]
      exact hmappings.2
  · have hcalls : enableCalls ≠ [] := List.cons_ne_nil _ _
    rw [accessed_space, hcommand, enabled_value h.command hcalls]
    rfl
  · intro a hrom hcommand
    rw [accessed_space, mappedSpace, putRegister, Function.update_of_ne hcommand, putRegister,
      Function.update_of_ne hrom]

end Device

/-! ### Where the enumeration comes to -/

section Outcome

variable {chipset : ChipsetRom Registers μ} {dev : PciDevice} {bars : BarPosition → Option Bar}
  {s t u : PciBoard Registers μ} {found : Option (PciDevice × Option Bar)}
  {rom : Option Bar} {p q : Prog (PciBoard Registers μ) Bool}

theorem returns_onPci {α : Type} {p : Prog (Pci Registers) α} {a : α} {pci : Pci Registers}
    (h : p.Returns s.pci a pci) : (onPci p).Returns s a { s with pci := pci } :=
  returns_zoom.mpr ⟨pci, h, rfl⟩

theorem SameBoard.trans (h : SameBoard s t) (h' : SameBoard t u) : SameBoard s u :=
  ⟨h'.space.trans h.space, h'.rest.trans h.rest⟩

theorem RomMapped.before (h : RomMapped chipset dev rom t u) (hsame : SameBoard s t) :
    RomMapped chipset dev rom s u where
  rest := h.rest.trans hsame.rest
  record := h.record
  shows := h.shows
  command := by
    rw [← hsame.space]
    exact h.command
  others a hrom hcommand := (h.others a hrom hcommand).trans (congrFun hsame.space a)

/-- A step that changes nothing, made first. -/
theorem ComesTo.before (h : ComesTo chipset found q t) (hsame : SameBoard s t)
    (hstep : ∀ r u, p.Returns s r u ↔ q.Returns t r u) : ComesTo chipset found p s := by
  cases found with
  | none =>
      obtain ⟨v, hreturns, hv⟩ := h
      exact ⟨v, (hstep false v).mpr hreturns, hsame.trans hv⟩
  | some result =>
      obtain ⟨v, hmapped, hafter⟩ := h
      exact ⟨v, hmapped.before hsame, fun r t => (hstep r t).trans (hafter r t)⟩

theorem comesTo_rom (h : ProperDevice s.pci.space dev bars) (hdev : s.pci.dev = dev) :
    ComesTo chipset (some (dev, bars .expansionRom)) (configureRom chipset dev) s := by
  refine ⟨_, romMapped_mapRom h hdev, ?_⟩
  intro r t
  have hmap := returns_onPci (s := s) (returns_mapRom chipset h)
  rw [configureRom, hmap.bind_iff]
  simp only [returns_bind, returns_pure]
  constructor
  · rintro ⟨_, _, hshadow, rfl, rfl⟩
    exact ⟨rfl, hshadow⟩
  · rintro ⟨rfl, hshadow⟩
    exact ⟨(), t, hshadow, rfl, rfl⟩

theorem comesTo_display (h : ProperDevice s.pci.space dev bars) (hdev : s.pci.dev = dev)
    (hdisplay : dev.class_ = pciClassDisplay ∧ dev.subclass = 0) :
    ComesTo chipset (foundAt s.pci.space bars dev) (configureDisplay chipset dev) s := by
  have hmapping : (onPci (pciGetMapping dev pciConfigExpansionRomBase)).Returns s
      ((registerAt dev pciConfigExpansionRomBase s.pci.space).value &&& 0xFFFFFFFC)
      { s with pci := s.pci.accessed dev pciConfigExpansionRomBase s.pci.space } :=
    returns_onPci ((returns_readRegister.mpr ⟨rfl, rfl⟩).bind (returns_pure.mpr ⟨rfl, rfl⟩))
  by_cases hzero : (registerAt dev pciConfigExpansionRomBase s.pci.space).value &&& 0xFFFFFFFC = 0
  · have hunmapped : unmappedDisplay s.pci.space dev = true :=
      decide_eq_true ⟨hdisplay.1, hdisplay.2, hzero⟩
    rw [foundAt, if_pos hunmapped]
    refine (comesTo_rom
      (s := { s with pci := s.pci.accessed dev pciConfigExpansionRomBase s.pci.space })
      h hdev).before ⟨rfl, rfl⟩ ?_
    intro r t
    rw [configureDisplay, hmapping.bind_iff, if_neg (not_not.mpr hzero)]
  · have hmapped : ¬ unmappedDisplay s.pci.space dev = true :=
      fun hunmapped => hzero (of_decide_eq_true hunmapped).2.2
    rw [foundAt, if_neg hmapped]
    refine ⟨{ s with pci := s.pci.accessed dev pciConfigExpansionRomBase s.pci.space }, ?_,
      ⟨rfl, rfl⟩⟩
    rw [configureDisplay, hmapping.bind_iff, if_pos hzero]
    exact returns_pure.mpr ⟨rfl, rfl⟩

theorem comesTo_device (h : ProperDevice s.pci.space dev bars) (hdev : s.pci.dev = dev) :
    ComesTo chipset (foundAt s.pci.space bars dev) (configureDevice chipset dev) s := by
  obtain ⟨sizes, pci, hsizes, hspace, hrecord⟩ := queryBarSizes_total barPositions h.bars
  have hqueried := returns_onPci (s := s) hsizes
  rw [← hspace] at h ⊢
  by_cases hdisplay : dev.class_ = pciClassDisplay ∧ dev.subclass = 0
  · have hcome : ComesTo chipset _ (configureDisplay chipset dev) { s with pci := pci } :=
      comesTo_display h (hrecord.trans hdev) hdisplay
    refine hcome.before ⟨hspace, rfl⟩ ?_
    intro r u
    rw [configureDevice, if_pos hdisplay, hqueried.bind_iff]
  · have hnone : ¬ unmappedDisplay pci.space dev = true := fun hunmapped =>
      hdisplay ⟨(of_decide_eq_true hunmapped).1, (of_decide_eq_true hunmapped).2.1⟩
    rw [foundAt, if_neg hnone]
    refine ⟨{ s with pci := pci }, ?_, ⟨hspace, rfl⟩⟩
    rw [configureDevice, if_neg hdisplay, hqueried.bind_iff]
    exact returns_pure.mpr ⟨rfl, rfl⟩

end Outcome

/-! ### The loops -/

section Loops

variable {chipset : ChipsetRom Registers μ} {bars : PciSlot → BarPosition → Option Bar}
  {s : PciBoard Registers μ} {space : Registers} {found found' : Option (PciDevice × Option Bar)}

/-- The end of a loop. -/
theorem ComesTo.loop_end {β : Type} {body : β → Prog (PciBoard Registers μ) (Pass β Bool)} {b : β}
    (hbody : body b = return .done false) : ComesTo chipset none (Prog.loop body b) s := by
  refine ⟨s, returns_loop.mpr (.inl ?_), ⟨rfl, rfl⟩⟩
  rw [hbody]
  exact returns_pure.mpr ⟨rfl, rfl⟩

/-- A round of a loop that ends with a hit. -/
theorem ComesTo.loop {β : Type} {body : β → Prog (PciBoard Registers μ) (Pass β Bool)} {b b' : β}
    {p : Prog (PciBoard Registers μ) Bool} (h : ComesTo chipset found p s)
    (hbody : body b = do if ← p then return .done true else return .again b')
    (hnext : ∀ t, SameBoard s t → ComesTo chipset found' (Prog.loop body b') t) :
    ComesTo chipset (found.or found') (Prog.loop body b) s := by
  cases found with
  | none =>
      obtain ⟨t, hreturns, hsame⟩ := h
      refine (hnext t hsame).before hsame fun r u => Returns.loop_again_iff ?_
      rw [hbody, hreturns.bind_iff]
      exact returns_pure.mpr ⟨rfl, rfl⟩
  | some result =>
      obtain ⟨u, hmapped, hafter⟩ := h
      refine ⟨u, hmapped, ?_⟩
      intro r t
      rw [returns_loop, hbody]
      simp only [returns_bind, hafter]
      constructor
      · rintro (⟨_, _, ⟨rfl, hshadow⟩, hdone⟩ | ⟨_, _, ⟨_, _, ⟨rfl, -⟩, hagain⟩, -⟩)
        · rw [if_pos rfl, returns_pure] at hdone
          obtain ⟨hr, rfl⟩ := hdone
          exact ⟨Pass.done.inj hr, hshadow⟩
        · rw [if_pos rfl, returns_pure] at hagain
          cases hagain.1
      · rintro ⟨rfl, hshadow⟩
        exact .inl ⟨true, t, ⟨rfl, hshadow⟩, returns_pure.mpr ⟨rfl, rfl⟩⟩

/-- The devices of these slots are proper ones. -/
def ProperDevices (space : Registers) (bars : PciSlot → BarPosition → Option Bar) : Prop :=
  ∀ slot ∈ slotsFrom 0 128, slotPresent space slot = true →
    ProperDevice space (deviceAt space slot) (bars slot)

theorem comesTo_slot {slot : PciSlot} (h : ProperDevices s.pci.space bars)
    (hslot : slot ∈ slotsFrom 0 128) :
    ComesTo chipset (if slotPresent s.pci.space slot
      then foundAt s.pci.space (bars slot) (deviceAt s.pci.space slot) else none)
      (configureSlot chipset slot) s := by
  obtain ⟨-, hbus, hdev⟩ := mem_slotsFrom.mp hslot
  have hreached := reached_low hslot
  by_cases hids : slotIds s.pci.space slot = 0xFFFFFFFF
  · have hquery := returns_onPci (s := s)
      (pciGetDevice_absent slot (by omega) hdev (by rwa [hreached]))
    have habsent : ¬ slotPresent s.pci.space slot = true := fun hpresent =>
      of_decide_eq_true hpresent hids
    have hsame : SameBoard s
        { s with
          pci := { s.pci with address := registerAddress (slotAddress (reached slot)) 0 } } :=
      ⟨rfl, rfl⟩
    rw [if_neg habsent]
    refine ⟨_, ?_, hsame⟩
    rw [configureSlot, hquery.bind_iff]
    exact returns_pure.mpr ⟨rfl, rfl⟩
  · have hquery := returns_onPci (s := s)
      (pciGetDevice_present slot (by omega) hdev (by rwa [hreached]))
    have hpresent : slotPresent s.pci.space slot = true := decide_eq_true hids
    rw [seen_low hslot] at hquery
    rw [if_pos hpresent]
    have hdevice : ComesTo chipset _ (configureDevice chipset (deviceAt s.pci.space slot))
        { s with
          pci := { s.pci with
            address := registerAddress (slotAddress (reached slot)) 0xC
            dev := deviceAt s.pci.space slot } } :=
      comesTo_device (h slot hslot hpresent) rfl
    refine hdevice.before ⟨rfl, rfl⟩ ?_
    intro r u
    rw [configureSlot, hquery.bind_iff]

theorem firstFound_append {slots slots' : List PciSlot} :
    firstFound space bars (slots ++ slots') =
      (firstFound space bars slots).or (firstFound space bars slots') :=
  List.findSome?_append

theorem firstFound_singleton {slot : PciSlot} :
    firstFound space bars [slot] =
      if slotPresent space slot then foundAt space (bars slot) (deviceAt space slot) else none := by
  rw [firstFound, List.findSome?_singleton]

theorem comesTo_bus {bus device : Nat} (hbus : bus < 128) (h : ProperDevices s.pci.space bars) :
    ComesTo chipset (firstFound s.pci.space bars (busFrom bus device))
      (configureBus chipset bus device) s := by
  induction hleft : 32 - device generalizing device s with
  | zero =>
      have hend : ¬ device ≤ 31 := by omega
      rw [busFrom_nil (by omega)]
      exact .loop_end (if_neg hend)
  | succ left ih =>
      have hdevice : device ≤ 31 := by omega
      rw [busFrom_cons (by omega), ← List.singleton_append, firstFound_append,
        firstFound_singleton]
      refine (comesTo_slot h (mem_slotsFrom.mpr ⟨Nat.zero_le _, by omega, by omega⟩)).loop
        (if_pos hdevice) ?_
      intro t hsame
      rw [← hsame.space] at h ⊢
      exact ih h (by omega)

theorem comesTo_buses {bus : Nat} (h : ProperDevices s.pci.space bars) :
    ComesTo chipset (firstFound s.pci.space bars (slotsFrom bus (128 - bus)))
      (configureBuses chipset bus) s := by
  induction hleft : 128 - bus generalizing bus s with
  | zero =>
      have hend : ¬ bus ≤ 127 := by omega
      exact .loop_end (if_neg hend)
  | succ left ih =>
      have hbus : bus ≤ 127 := by omega
      have hslots : slotsFrom bus (left + 1) = busFrom bus 0 ++ slotsFrom (bus + 1) left := by
        rw [slotsFrom, List.range'_succ, List.flatMap_cons]
        rfl
      rw [hslots, firstFound_append]
      refine (comesTo_bus (by omega) h).loop (if_pos hbus) ?_
      intro t hsame
      rw [← hsame.space] at h ⊢
      exact ih h (by omega)

/-- The enumeration comes to the shadowing of the ROM of the first unmapped display
controller, or to its end without a change. -/
theorem pci_configure_spec (h : ProperDevices s.pci.space bars) :
    match if chipset.hasPci then firstFound s.pci.space bars (slotsFrom 0 128) else none with
    | none => ∃ t, (pciConfigure chipset).Returns s () t ∧ SameBoard s t
    | some (dev, rom) => ∃ u, RomMapped chipset dev rom s u ∧
        ∀ t, (pciConfigure chipset).Returns s () t ↔
          (shadowRom chipset (barSize rom)).Returns u () t := by
  by_cases hpci : chipset.hasPci = true
  · have hcome : ComesTo chipset _ (configureBuses chipset 0) s := comesTo_buses h
    rw [if_pos hpci, pciConfigure, if_neg (not_not.mpr hpci)]
    cases hfound : firstFound s.pci.space bars (slotsFrom 0 128) with
    | none =>
        rw [hfound] at hcome
        obtain ⟨t, hreturns, hsame⟩ := hcome
        exact ⟨t, hreturns.bind (returns_pure.mpr ⟨rfl, rfl⟩), hsame⟩
    | some found =>
        rw [hfound] at hcome
        obtain ⟨u, hmapped, hafter⟩ := hcome
        refine ⟨u, hmapped, ?_⟩
        intro t
        simp only [returns_bind, hafter, returns_pure]
        constructor
        · rintro ⟨_, _, ⟨rfl, hshadow⟩, -, rfl⟩
          exact hshadow
        · intro hshadow
          exact ⟨true, t, ⟨rfl, hshadow⟩, trivial, rfl⟩
  · rw [if_neg hpci, pciConfigure, if_pos hpci]
    exact ⟨s, returns_pure.mpr ⟨rfl, rfl⟩, ⟨rfl, rfl⟩⟩

end Loops

end Enumeration

/-! ### A bus of display controllers -/

/-- A ROM of 32 KB. -/
def adapterRom : Bar where
  kind := .rom
  log := 15
  least := by decide
  most := by decide

/-- The registers of a display controller. -/
def adapterRegister (offset : U8) : Register 32 :=
  if offset = 0x00 then { noRange with value := 0x11111234, apart := BitVec.and_zero }
  else if offset = 0x04 then ⟨0, 0x7, errorBits, by decide⟩
  else if offset = 0x08 then { noRange with value := 0x03000000, apart := BitVec.and_zero }
  else if offset = pciConfigExpansionRomBase then adapterRom.reset
  else noRange

def adapterBars : BarPosition → Option Bar
  | .bar _ => none
  | .expansionRom => some adapterRom

/-- Every slot has one. The rest of the board is the list of the ranges that were shadowed. -/
def adapterBoard : PciBoard Registers (List (U32 × U32 × U32)) where
  pci :=
    { address := 0
      space := fun a => adapterRegister (Lane.get 8 0 a)
      dev := describe (fun _ => noRange : Registers) 0 0 0 }
  rest := []

def adapterChipset : ChipsetRom Registers (List (U32 × U32 × U32)) where
  hasPci := true
  hasRomShadowing := true
  shadowRomFromSrc address len src := do
    modify fun s => { s with rest := (address, len, src) :: s.rest }
    return true

theorem registerAt_adapter (dev : PciDevice) (offset : U8) :
    registerAt dev offset adapterBoard.pci.space = adapterRegister (offset &&& 0xFC) :=
  congrArg adapterRegister registerAddress_offset

theorem properDevices_adapter :
    ProperDevices adapterBoard.pci.space fun _ => adapterBars := by
  intro slot _ _
  refine ⟨⟨?_, ?_⟩, ?_⟩
  · intro position
    rw [registerAt_adapter]
    cases position with
    | bar i =>
        have hother : ∀ i : Fin 6, (BarPosition.bar i).offset &&& 0xFC ≠ 0x00 ∧
            (BarPosition.bar i).offset &&& 0xFC ≠ 0x04 ∧
            (BarPosition.bar i).offset &&& 0xFC ≠ 0x08 ∧
            (BarPosition.bar i).offset &&& 0xFC ≠ pciConfigExpansionRomBase := by
          decide
        obtain ⟨h0, h4, h8, hrom⟩ := hother i
        rw [adapterRegister, if_neg h0, if_neg h4, if_neg h8, if_neg hrom]
        exact ⟨rfl, rfl, rfl⟩
    | expansionRom => exact adapterRom.describes_reset
  · intro position bar hbar
    cases position with
    | bar i => cases hbar
    | expansionRom =>
        cases hbar
        exact iff_of_true rfl rfl
  · rw [registerAt_adapter]
    exact ⟨rfl, rfl⟩

theorem pci_configure_adapter :
    ∃ u, RomMapped adapterChipset (deviceAt adapterBoard.pci.space (0, 0)) (some adapterRom)
        adapterBoard u ∧
      ∀ t, (pciConfigure adapterChipset).Returns adapterBoard () t ↔
        (shadowRom adapterChipset (barSize (some adapterRom))).Returns u () t :=
  @pci_configure_spec _ adapterChipset _ _ properDevices_adapter

end MyBios
