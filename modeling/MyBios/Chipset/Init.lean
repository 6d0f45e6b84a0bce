import MyBios.Chipset.Shadow

/-!
Initializing the 440FX (`chipset_init` of `chipsets/440fx.c`).

The host bridge is looked for by its ids, and then the 64 KB at `0xF0000` are shadowed
onto themselves, while they still show the ROM that the BIOS runs from.

* `chipset_init_spec`: the bridge is found if no slot in front of it is empty. Then the
  segment is RAM that holds what was on the bus, and at every other address loads and
  stores go where they went before; so a BIOS that ran from the ROM sees no difference.
  Without a bridge nothing is changed.
-/

namespace MyBios.I440fx

open Prog

variable {β : Type}

/-! ### The code -/

/-- `find_chipset`. -/
def findChipset : Prog (I440fx β) Bool := do
  match ← zoom (pciLens β) (pciFindDevice 0x8086 0x1237 0) with
  | none => return false
  | some dev => do
    modify fun s => { s with chipset := dev }
    return true

/-- `chipset_init`. -/
def chipsetInit [BusSide β] : Prog (I440fx β) Unit := do
  if ← findChipset then do
    let _ ← chipsetShadowRom 0xF0000 0x10000
    return ()
  else return ()

/-! ### What it is for -/

/-- The host bridge, if there is one before the first empty slot. -/
def bridge (space : U32 → U32) : Option PciDevice :=
  (matchingInFront space 0x8086 0x1237).head?.map (deviceAt space)

/-- The 64 KB below 1 MB. -/
def InRom (a : U32) : Prop := InRange 0xF0000 0x10000 a

/-- The ROM segment is RAM with what was on the bus, and the rest is as before. -/
structure RomInRam [BusSide β] (s t : I440fx β) : Prop where
  chipset : t.chipset = s.chipset
  bus : t.bus = s.bus
  rom : ∀ a, InRom a → t.load a = BusSide.load a s.bus
  writable : ∀ a, InRom a → t.ramWrites a = true
  loads : ∀ a, ¬ InRom a → t.load a = s.load a
  stores : ∀ a, ¬ InRom a → t.ramWrites a = s.ramWrites a

/-! ### Finding the bridge -/

section Find

variable {space : U32 → U32} {vendorId deviceId : U16}

/-- The first hit of the scan is the first device in front of the gap. -/
theorem head_seenHits : (seenHits space vendorId deviceId (slotsFrom 0 256)).head? =
    (matchingInFront space vendorId deviceId).head? := by
  by_cases hgap : ∃ slot ∈ slotsFrom 0 128, slotPresent space slot = false
  · rw [seenHits_gap hgap]
  · have hfull : ∀ slot ∈ slotsFrom 0 128, slotPresent space slot = true := by
      intro slot hslot
      by_contra hpresent
      exact hgap ⟨slot, hslot, Bool.eq_false_iff.mpr hpresent⟩
    obtain ⟨again, -, hlen, hhits⟩ : ∃ again : List PciSlot, _ ∧ again.length = _ ∧
        seenHits space vendorId deviceId (slotsFrom 0 256) = _ := seenHits_full hfull
    rw [hhits, matchingInFront_full hfull]
    cases hlow : matching space vendorId deviceId (slotsFrom 0 128) with
    | nil =>
        rw [hlow] at hlen
        rw [List.eq_nil_of_length_eq_zero hlen]
        rfl
    | cons slot slots => rfl

theorem found_first : (scanSlots space vendorId deviceId 0 (slotsFrom 0 256) 0).result.map
    (seen space) = (matchingInFront space vendorId deviceId).head?.map (deviceAt space) := by
  have hresult : (scanSlots space vendorId deviceId 0 (slotsFrom 0 256) 0).result =
      (seenHits space vendorId deviceId (slotsFrom 0 256)).head? := by
    rw [scanSlots, Scan.scan_result (Nat.zero_le _), Nat.sub_zero]
    exact List.head?_eq_getElem?.symm
  rw [hresult, head_seenHits]
  refine Option.map_congr fun slot hhead => seen_low ?_
  have hmem : slot ∈ matchingInFront space vendorId deviceId := List.mem_of_head? hhead
  exact (List.takeWhile_sublist _).subset (List.mem_filter.mp hmem).1

theorem findChipset_total (s : I440fx β) : Total findChipset s fun found t =>
    found = (bridge s.pci.space).isSome ∧ t.pci.space = s.pci.space ∧ t.ram = s.ram ∧
      t.bus = s.bus ∧ t.chipset = (bridge s.pci.space).getD s.chipset := by
  obtain ⟨result, pci, hfind, hresult, hspace⟩ :
      Total (pciFindDevice 0x8086 0x1237 0) s.pci _ := pciFindDevice_total
  have hzoom : (zoom (pciLens β) (pciFindDevice 0x8086 0x1237 0)).Returns s result
      { s with pci := pci } := returns_zoom.mpr ⟨pci, hfind, rfl⟩
  obtain rfl : result = bridge s.pci.space := hresult.trans found_first
  cases hbridge : bridge s.pci.space with
  | none =>
      rw [hbridge] at hzoom
      exact ⟨false, _, hzoom.bind (returns_pure.mpr ⟨rfl, rfl⟩), rfl, hspace, rfl, rfl, rfl⟩
  | some dev =>
      rw [hbridge] at hzoom
      have hset : (modify fun s : I440fx β => { s with chipset := dev }).Returns
          { s with pci := pci } () { s with pci := pci, chipset := dev } :=
        returns_modify.mpr rfl
      exact ⟨true, _, hzoom.bind (hset.bind (returns_pure.mpr ⟨rfl, rfl⟩)), rfl, hspace, rfl, rfl,
        rfl⟩

end Find

/-! ### Shadowing the segment -/

section Shadow

variable [BusSide β] {s t : I440fx β} {c : PciDevice}

theorem chipset_store {a : U32} {v : U8} : (s.store a v).chipset = s.chipset := by
  unfold store
  split <;> rfl

theorem chipset_copyRegion {address src : U32} {n : Nat} :
    (copyRegion address src n s).chipset = s.chipset := by
  induction n with
  | zero => rfl
  | succ n ih => rw [copyRegion_succ, chipset_store, ih]

omit [BusSide β] in
theorem keeps_setModes {segment n : Nat} {m : PamMode} :
    Keeps (fun t : I440fx β => t.chipset = c) (setModes segment m n) := by
  induction n with
  | zero => exact keeps_pure
  | succ n ih => exact ih.bind fun _ => keeps_get.bind fun _ => Keeps.zoom fun _ _ _ _ _ h => h

/-- The handle of the bridge is kept. -/
theorem keeps_shadowSegments {region n : Nat} {address len src : U32} :
    Keeps (fun t : I440fx β => t.chipset = c) (shadowSegments region n address len src) := by
  refine Keeps.ite keeps_pure (keeps_setModes.bind fun _ => ?_)
  refine (keeps_modify fun u hu => ?_).bind fun _ => keeps_setModes.bind fun _ => keeps_pure
  exact chipset_copyRegion.trans hu

theorem chipsetShadowRom_rom : chipsetShadowRom (β := β) 0xF0000 0x10000 =
    shadowSegments pamF0000 1 0xF0000 0x10000 0xF0000 := by
  rw [chipsetShadowRom, chipsetShadowRomFromSrc]
  rfl

/-- What is left of shadowing at an address. -/
theorem Shadowed.romInRam {segments : Nat → Prop} (covers : Covers segments 0xF0000 0x10000)
    (h : Shadowed segments 0xF0000 0x10000
      (fun i => BusSide.load (0xF0000 + BitVec.ofNat 32 i) s.bus) s t)
    (hchipset : t.chipset = s.chipset) : RomInRam s t where
  chipset := hchipset
  bus := h.bus
  rom := by
    intro a ha
    obtain ⟨i, hi, rfl⟩ := (inRange_iff (by decide)).mp ha
    exact h.load_inside covers hi ha
  writable := by
    intro a ha
    obtain ⟨j, hlt, hj, hseg⟩ := covers.segment ha
    simp [ramWrites, hseg, h.switched j hlt hj, PamMode.writes]
  loads := fun a ha => h.load_outside covers ha
  stores := by
    intro a ha
    refine ramWrites_congr fun j hseg => ?_
    exact h.others j (segmentOf_lt hseg) (covers.not_segment ha hseg)

theorem shadowRom_total (s : I440fx β) :
    Total (chipsetShadowRom 0xF0000 0x10000) s fun _ t => RomInRam s t := by
  have valid : Valid 0xF0000 0x10000 := Or.inr ⟨rfl, rfl⟩
  obtain ⟨segments, covers, result, t, hreturns, -, hshadowed⟩ :=
    chipsetShadowRom_total (s := s) valid
  refine ⟨result, t, hreturns, hshadowed.romInRam covers ?_⟩
  rw [chipsetShadowRom_rom] at hreturns
  exact keeps_shadowSegments _ _ _ hreturns rfl

/-- A state that differs only in how the configuration space was addressed. -/
theorem RomInRam.congr {s' : I440fx β} (h : RomInRam s' t) (hspace : s'.pci.space = s.pci.space)
    (hchipset : s'.chipset = s.chipset) (hram : s'.ram = s.ram) (hbus : s'.bus = s.bus) :
    RomInRam s t := by
  have hmode : ∀ j, s'.mode j = s.mode j := fun j => by rw [mode, mode, hspace, hchipset]
  constructor
  · exact h.chipset.trans hchipset
  · exact h.bus.trans hbus
  · intro a ha
    rw [h.rom a ha, hbus]
  · exact h.writable
  · intro a ha
    rw [h.loads a ha]
    exact load_congr (fun j _ => hmode j) (congrFun hram a) hbus
  · intro a ha
    rw [h.stores a ha]
    exact ramWrites_congr fun j _ => hmode j

/-- If the segment showed the ROM, no load has changed. -/
theorem RomInRam.transparent (h : RomInRam s t)
    (hrom : ∀ a, InRom a → s.load a = BusSide.load a s.bus) (a : U32) : t.load a = s.load a := by
  by_cases ha : InRom a
  · rw [h.rom a ha, hrom a ha]
  · exact h.loads a ha

/-- The ROM segment is RAM after the initialization, if there is a bridge. -/
theorem chipset_init_spec (s : I440fx β) : Total chipsetInit s fun _ t =>
    match bridge s.pci.space with
    | none => t.pci.space = s.pci.space ∧ t.chipset = s.chipset ∧ t.ram = s.ram ∧ t.bus = s.bus
    | some dev => RomInRam { s with chipset := dev } t ∧
        ((∀ a, InRom a → load { s with chipset := dev } a = BusSide.load a s.bus) →
          ∀ a, t.load a = load { s with chipset := dev } a) := by
  refine (findChipset_total s).bind ?_
  rintro _ u ⟨rfl, hspace, hram, hbus, hchipset⟩
  cases hbridge : bridge s.pci.space with
  | none =>
      rw [hbridge] at hchipset
      exact total_pure ⟨hspace, hchipset, hram, hbus⟩
  | some dev =>
      rw [hbridge] at hchipset
      refine (shadowRom_total u).bind fun _ t ht => total_pure ?_
      have hrom : RomInRam { s with chipset := dev } t := ht.congr hspace hchipset hram hbus
      exact ⟨hrom, hrom.transparent⟩

end Shadow

end MyBios.I440fx
