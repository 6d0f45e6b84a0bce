import MyBios.Lib.Scan
import MyBios.Pci.Config

/-!
`pci_find_device` (`pci.c`), and the device it should find.

The function goes through the 32 devices of 256 buses and gives up at the first
slot that does not answer. The addresses it uses keep 7 bits of the bus, so the
second half of its buses is the first half again. `pciFindDevice_total` says
what it returns: the hit that a scan of the slots it really reads comes to.

`findsDevice_iff` compares this with the devices that are there. The result is
right when the device sits in front of the first empty slot, and when no device
is to be found and the function does not go through the first 128 buses twice.
-/

namespace MyBios

open Prog

variable {κ : Type} [ConfigSpace κ]

/-! ### The program -/

/-- `query_pci_device`; `false` is the null pointer. -/
def queryPciDevice (bus device : U8) : Prog (Pci κ) Bool := do
  let base := pciType2ConfigAddress bus device 0 0
  let deviceAndVendor ← pciType2ConfigRead base 0
  if deviceAndVendor = 0xFFFFFFFF then return false
  else do
    modify fun s => { s with dev := { s.dev with
      baseConfigAddress := base
      bus := bus
      func := 0
      device := device
      vendorId := deviceAndVendor.setWidth 16
      deviceId := (deviceAndVendor >>> 16).setWidth 16 } }
    let statusAndCommand ← pciType2ConfigRead base 4
    modify fun s => { s with dev := { s.dev with
      status := statusAndCommand.setWidth 16
      command := (statusAndCommand >>> 16).setWidth 16 } }
    let classAndRevision ← pciType2ConfigRead base 8
    modify fun s => { s with dev := { s.dev with
      class_ := (classAndRevision >>> 24).setWidth 8
      subclass := (classAndRevision >>> 16).setWidth 8
      progIf := (classAndRevision >>> 8).setWidth 8
      revision := classAndRevision.setWidth 8 } }
    let reg3 ← pciType2ConfigRead base 0xC
    modify fun s => { s with dev := { s.dev with
      bist := (reg3 >>> 24).setWidth 8
      headerType := (reg3 >>> 16).setWidth 8
      latencyTimer := (reg3 >>> 8).setWidth 8
      cacheLineSize := reg3.setWidth 8 } }
    return true

/-- `pci_get_device`: a pointer to the global `dev`, or the null pointer. -/
def pciGetDevice (bus device : U8) : Prog (Pci κ) (Option PciDevice) := do
  if ← queryPciDevice bus device then
    let dev ← gets Pci.dev
    return some dev
  else return none

/-- The rest of a round, once the slot has been asked. An error is a `return` from
`pci_find_device`. -/
def afterQuery (vendorId deviceId : U16) (index : U8) (device : Nat) (count : U8) :
    Option PciDevice → Pass (Nat × U8) (Except (Option PciDevice) U8)
  | none => .done (.error none)
  | some dev =>
    if dev.vendorId = vendorId ∧ dev.deviceId = deviceId then
      if count = index then .done (.error (some dev))
      else .again (device + 1, count + 1)
    else .again (device + 1, count)

/-- `while (device < 32) { … }`, with the count after the bus as its value. -/
def findOnBus (vendorId deviceId : U16) (index bus count : U8) :
    Prog (Pci κ) (Except (Option PciDevice) U8) :=
  loop (fun (device, count) =>
    if device < 32 then do
      let dev ← pciGetDevice bus (BitVec.ofNat 8 device)
      return afterQuery vendorId deviceId index device count dev
    else return .done (.ok count)) ((0 : Nat), count)

/-- `pci_find_device`, with the `short` and the `u8` loop counters as numbers. -/
def pciFindDevice (vendorId deviceId : U16) (index : U8) :
    Prog (Pci κ) (Option PciDevice) :=
  loop (fun (bus, count) =>
    if bus < 256 then do
      match ← findOnBus vendorId deviceId index (BitVec.ofNat 8 bus) count with
      | .error r => return .done r
      | .ok count => return .again (bus + 1, count)
    else return .done none) ((0 : Nat), (0 : U8))

/-! ### What is there -/

/-- A bus number and a device number. -/
abbrev PciSlot := Nat × Nat

/-- The configuration address of function 0: the whole bus number is in it. -/
def slotAddress (slot : PciSlot) : U32 :=
  0x80000000 ||| (BitVec.ofNat 32 slot.1 <<< 16) ||| (BitVec.ofNat 32 slot.2 <<< 11)

/-- The dword that holds the device and the vendor id. -/
def slotIds (space : κ) (slot : PciSlot) : U32 :=
  ConfigSpace.read (registerAddress (slotAddress slot) 0) space

def slotPresent (space : κ) (slot : PciSlot) : Bool := slotIds space slot ≠ 0xFFFFFFFF

def slotMatches (space : κ) (vendorId deviceId : U16) (slot : PciSlot) : Bool :=
  (slotIds space slot).setWidth 16 = vendorId ∧
    ((slotIds space slot) >>> 16).setWidth 16 = deviceId

/-- The slots of a bus from `device` on. -/
def busFrom (bus device : Nat) : List PciSlot :=
  (List.range' device (32 - device)).map fun device => (bus, device)

/-- The slots of `n` buses from bus `lo` on, in order. -/
def slotsFrom (lo n : Nat) : List PciSlot := (List.range' lo n).flatMap fun bus => busFrom bus 0

/-- The devices with these ids, in order. -/
def matching (space : κ) (vendorId deviceId : U16) (slots : List PciSlot) : List PciSlot :=
  slots.filter fun slot => slotPresent space slot && slotMatches space vendorId deviceId slot

/-- The record of the function at `base`. -/
def describe (space : κ) (base : U32) (bus device : U8) : PciDevice :=
  let register := fun offset => ConfigSpace.read (registerAddress base offset) space
  { baseConfigAddress := base
    bus := bus
    device := device
    func := 0
    vendorId := (register 0).setWidth 16
    deviceId := (register 0 >>> 16).setWidth 16
    status := (register 4).setWidth 16
    command := (register 4 >>> 16).setWidth 16
    class_ := (register 8 >>> 24).setWidth 8
    subclass := (register 8 >>> 16).setWidth 8
    progIf := (register 8 >>> 8).setWidth 8
    revision := (register 8).setWidth 8
    bist := (register 0xC >>> 24).setWidth 8
    headerType := (register 0xC >>> 16).setWidth 8
    latencyTimer := (register 0xC >>> 8).setWidth 8
    cacheLineSize := (register 0xC).setWidth 8 }

/-- The record of the device in a slot. -/
def deviceAt (space : κ) (slot : PciSlot) : PciDevice :=
  describe space (slotAddress slot) (BitVec.ofNat 8 slot.1) (BitVec.ofNat 8 slot.2)

/-- The function returns the device number `index` among those with these ids, and
the null pointer when there are not that many. -/
def FindsDevice (s : Pci κ) (vendorId deviceId : U16) (index : U8) : Prop :=
  Total (pciFindDevice vendorId deviceId index) s fun result _ =>
    result = (matching s.space vendorId deviceId (slotsFrom 0 256))[index.toNat]?.map
      (deviceAt s.space)

/-! ### One slot -/

section OneSlot

variable {s t : Pci κ} {bus device : U8} {vendorId deviceId : U16} {index : U8}

/-- Without an answer only the address latch changes. -/
theorem queryPciDevice_absent
    (absent : ConfigSpace.read (registerAddress (pciType2ConfigAddress bus device 0 0) 0) s.space =
      0xFFFFFFFF) :
    (queryPciDevice bus device).Returns s false
      { s with address := registerAddress (pciType2ConfigAddress bus device 0 0) 0 } := by
  rw [queryPciDevice]
  simp
  exact absent

/-- A device that answers: `dev` is filled in. -/
theorem queryPciDevice_present
    (present : ConfigSpace.read (registerAddress (pciType2ConfigAddress bus device 0 0) 0) s.space ≠
      0xFFFFFFFF) :
    (queryPciDevice bus device).Returns s true
      { s with address := registerAddress (pciType2ConfigAddress bus device 0 0) 0xC
               dev := describe s.space (pciType2ConfigAddress bus device 0 0) bus device } := by
  rw [queryPciDevice]
  simp [describe]
  exact present

/-- The slot that the address of a query leads to. -/
def reached (slot : PciSlot) : PciSlot := (slot.1 % 128, slot.2)

/-- The record that a query of `slot` makes: the bus number is the one asked for. -/
def seen (space : κ) (slot : PciSlot) : PciDevice :=
  describe space (slotAddress (reached slot)) (BitVec.ofNat 8 slot.1) (BitVec.ofNat 8 slot.2)

/-- Masking with `2 ^ k - 1` is the remainder. -/
theorem masked_toNat (n k : Nat) (v mask : U8) (hv : v = BitVec.ofNat 8 n) (hn : n < 256)
    (hmask : mask.toNat = 2 ^ k - 1) : (v &&& mask).setWidth 32 = BitVec.ofNat 32 (n % 2 ^ k) := by
  subst hv
  apply BitVec.eq_of_toNat_eq
  have hle : n % 2 ^ k ≤ n := Nat.mod_le _ _
  rw [BitVec.toNat_setWidth, BitVec.toNat_and, hmask, BitVec.toNat_ofNat, BitVec.toNat_ofNat,
    Nat.mod_eq_of_lt (show n < 2 ^ 8 by omega), Nat.and_two_pow_sub_one_eq_mod]

theorem pciType2ConfigAddress_slot {slot : PciSlot} (hbus : slot.1 < 256) (hdev : slot.2 < 32) :
    pciType2ConfigAddress (BitVec.ofNat 8 slot.1) (BitVec.ofNat 8 slot.2) 0 0 =
      slotAddress (reached slot) := by
  have bus := masked_toNat slot.1 7 _ 0x7F rfl hbus rfl
  have device := masked_toNat slot.2 5 _ 0x1F rfl (by omega) rfl
  have zero₁ : ((0 : U8) &&& 0x7).setWidth 32 <<< 8 = 0#32 := rfl
  have zero₂ : ((0 : U8) &&& 0xFC).setWidth 32 = 0#32 := rfl
  rw [pciType2ConfigAddress, bus, device, zero₁, zero₂,
    Nat.mod_eq_of_lt (show slot.2 < 2 ^ 5 from hdev),
    BitVec.or_zero, BitVec.or_zero]
  rfl

/-- A slot that does not answer: only the latch changes. -/
theorem pciGetDevice_absent (slot : PciSlot) (hbus : slot.1 < 256) (hdev : slot.2 < 32)
    (hids : slotIds s.space (reached slot) = 0xFFFFFFFF) :
    (pciGetDevice (BitVec.ofNat 8 slot.1) (BitVec.ofNat 8 slot.2)).Returns s none
      { s with address := registerAddress (slotAddress (reached slot)) 0 } := by
  have haddress := pciType2ConfigAddress_slot hbus hdev
  rw [← haddress]
  exact (queryPciDevice_absent (by rwa [haddress])).bind (returns_pure.mpr ⟨rfl, rfl⟩)

/-- A slot that answers: `dev` is filled in. -/
theorem pciGetDevice_present (slot : PciSlot) (hbus : slot.1 < 256) (hdev : slot.2 < 32)
    (hids : ¬ slotIds s.space (reached slot) = 0xFFFFFFFF) :
    (pciGetDevice (BitVec.ofNat 8 slot.1) (BitVec.ofNat 8 slot.2)).Returns s
      (some (seen s.space slot))
      { s with address := registerAddress (slotAddress (reached slot)) 0xC
               dev := seen s.space slot } := by
  have haddress := pciType2ConfigAddress_slot hbus hdev
  rw [seen, ← haddress]
  exact (queryPciDevice_present (by rwa [haddress])).bind
    ((returns_gets.mpr ⟨rfl, rfl⟩).bind (returns_pure.mpr ⟨rfl, rfl⟩))

/-- The ids of a slot decide whether its device is counted. -/
theorem seen_matches {space : κ} {slot : PciSlot} :
    ((seen space slot).vendorId = vendorId ∧ (seen space slot).deviceId = deviceId) ↔
      slotMatches space vendorId deviceId (reached slot) = true := by
  rw [slotMatches, decide_eq_true_eq]
  rfl

end OneSlot

/-! ### The loops -/

section Loops

variable {space : κ} {vendorId deviceId : U16} {index : U8}

/-- A scan of the slots as the function reads them. -/
def scanSlots (space : κ) (vendorId deviceId : U16) (index : U8) (slots : List PciSlot) (c : Nat) :
    Scan PciSlot :=
  Scan.scan (fun slot => slotPresent space (reached slot))
    (fun slot => slotMatches space vendorId deviceId (reached slot)) index.toNat slots c

theorem scanSlots_append {xs ys : List PciSlot} {c : Nat} :
    scanSlots space vendorId deviceId index (xs ++ ys) c =
      (scanSlots space vendorId deviceId index xs c).andThen
        (scanSlots space vendorId deviceId index ys) :=
  Scan.scan_append

/-- What the loop over a bus makes of a scan. -/
def BusResult (space : κ) (scan : Scan PciSlot)
    (r : Except (Option PciDevice) U8) : Prop :=
  match scan with
  | .found slot => r = .error (some (seen space slot))
  | .gap => r = .error none
  | .next c => ∃ count : U8, r = .ok count ∧ count.toNat = c

theorem busFrom_cons {bus device : Nat} (h : device < 32) :
    busFrom bus device = (bus, device) :: busFrom bus (device + 1) := by
  rw [busFrom, show 32 - device = 32 - (device + 1) + 1 by omega, List.range'_succ]
  rfl

theorem busFrom_nil {bus device : Nat} (h : ¬ device < 32) : busFrom bus device = [] := by
  rw [busFrom, show 32 - device = 0 by omega]
  rfl

/-- A round moves the scan on by its slot, or ends it there. -/
theorem afterQuery_scan (space : κ) (vendorId deviceId : U16) (slot : PciSlot) {c : U8}
    (hc : c ≤ index) (rest : List PciSlot) :
    match afterQuery vendorId deviceId index slot.2 c
        (if slotPresent space (reached slot) then some (seen space slot) else none) with
    | .again b => b.1 = slot.2 + 1 ∧ b.2 ≤ index ∧
        scanSlots space vendorId deviceId index rest b.2.toNat =
          scanSlots space vendorId deviceId index (slot :: rest) c.toNat
    | .done r =>
        BusResult space (scanSlots space vendorId deviceId index (slot :: rest) c.toNat) r := by
  rw [scanSlots, Scan.scan]
  by_cases hpresent : slotPresent space (reached slot) = true
  · rw [if_pos hpresent, if_pos hpresent, afterQuery]
    by_cases hmatch : slotMatches space vendorId deviceId (reached slot) = true
    · rw [if_pos hmatch, if_pos (seen_matches.mpr hmatch)]
      by_cases hfound : c = index
      · rw [if_pos hfound, if_pos (congrArg _ hfound)]
        exact rfl
      · have hne : ¬ c.toNat = index.toNat := fun h => hfound (BitVec.eq_of_toNat_eq h)
        have hlt : c.toNat < index.toNat := by
          have hle : c.toNat ≤ index.toNat := hc
          omega
        have hsucc : (c + 1).toNat = c.toNat + 1 := by
          have hindex := index.isLt
          rw [BitVec.toNat_add, show (1 : U8).toNat = 1 from rfl]
          omega
        rw [if_neg hfound, if_neg hne]
        refine ⟨rfl, ?_, ?_⟩
        · show (c + 1).toNat ≤ index.toNat
          omega
        · rw [hsucc]
          rfl
    · rw [if_neg hmatch, if_neg (seen_matches.not.mpr hmatch)]
      exact ⟨rfl, hc, rfl⟩
  · rw [if_neg hpresent, if_neg hpresent, afterQuery]
    exact rfl

/-- A query, as the round that follows uses it. -/
theorem pciGetDevice_total {s : Pci κ} (slot : PciSlot) (hbus : slot.1 < 256) (hdev : slot.2 < 32) :
    Prog.Total (pciGetDevice (BitVec.ofNat 8 slot.1) (BitVec.ofNat 8 slot.2)) s fun r t =>
      r = (if slotPresent s.space (reached slot) then some (seen s.space slot) else none) ∧
        t.space = s.space := by
  by_cases hids : slotIds s.space (reached slot) = 0xFFFFFFFF
  · have hpresent : slotPresent s.space (reached slot) = false := decide_eq_false (not_not.mpr hids)
    rw [hpresent]
    exact ⟨none, _, pciGetDevice_absent slot hbus hdev hids, rfl, rfl⟩
  · have hpresent : slotPresent s.space (reached slot) = true := decide_eq_true hids
    rw [hpresent]
    exact ⟨_, _, pciGetDevice_present slot hbus hdev hids, rfl, rfl⟩

/-- The loop over a bus is a scan of its slots. -/
theorem findOnBus_total {s : Pci κ} {bus : Nat} (hbus : bus < 256) {count : U8}
    (hcount : count ≤ index) :
    Prog.Total (findOnBus vendorId deviceId index (BitVec.ofNat 8 bus) count) s fun r t =>
      t.space = s.space ∧
        BusResult s.space
          (scanSlots s.space vendorId deviceId index (busFrom bus 0) count.toNat) r := by
  refine Prog.Total.loop (I := fun b t => t.space = s.space ∧ b.2 ≤ index ∧
      scanSlots s.space vendorId deviceId index (busFrom bus b.1) b.2.toNat =
        scanSlots s.space vendorId deviceId index (busFrom bus 0) count.toNat)
    (fun b _ => 32 - b.1) ?_ ⟨rfl, hcount, rfl⟩
  rintro ⟨device, c⟩ t ⟨hspace, hc, hscan⟩
  simp only at hc hscan ⊢
  by_cases hlt : device < 32
  · rw [if_pos hlt]
    rw [busFrom_cons hlt] at hscan
    refine (pciGetDevice_total (bus, device) hbus hlt).bind ?_
    rintro r u ⟨rfl, hu⟩
    rw [hspace] at hu ⊢
    refine total_pure ?_
    have round := afterQuery_scan s.space vendorId deviceId (bus, device) hc
      (busFrom bus (device + 1))
    rw [hscan] at round
    generalize afterQuery vendorId deviceId index device c _ = pass at round ⊢
    cases pass with
    | again b =>
        obtain ⟨hnext, hle, hrest⟩ := round
        rw [← hnext] at hrest
        exact ⟨⟨hu, hle, hrest⟩, by omega⟩
    | done r => exact ⟨hu, round⟩
  · rw [if_neg hlt]
    rw [busFrom_nil hlt] at hscan
    refine total_pure ⟨hspace, ?_⟩
    rw [← hscan]
    exact ⟨c, rfl, rfl⟩

theorem slotsFrom_cons {bus : Nat} (h : bus < 256) :
    slotsFrom bus (256 - bus) = busFrom bus 0 ++ slotsFrom (bus + 1) (256 - (bus + 1)) := by
  rw [slotsFrom, show 256 - bus = 256 - (bus + 1) + 1 by omega, List.range'_succ,
    List.flatMap_cons]
  rfl

/-- The function returns what a scan of all its slots comes to. -/
theorem pciFindDevice_total {s : Pci κ} :
    Prog.Total (pciFindDevice vendorId deviceId index) s fun result t =>
      result = (scanSlots s.space vendorId deviceId index (slotsFrom 0 256) 0).result.map
        (seen s.space) ∧ t.space = s.space := by
  refine Prog.Total.loop (I := fun b t => t.space = s.space ∧ b.2 ≤ index ∧
      scanSlots s.space vendorId deviceId index (slotsFrom b.1 (256 - b.1)) b.2.toNat =
        scanSlots s.space vendorId deviceId index (slotsFrom 0 256) 0)
    (fun b _ => 256 - b.1) ?_ ⟨rfl, Nat.zero_le _, rfl⟩
  rintro ⟨bus, c⟩ t ⟨hspace, hc, hscan⟩
  simp only at hc hscan ⊢
  by_cases hlt : bus < 256
  · rw [if_pos hlt]
    rw [slotsFrom_cons hlt, scanSlots_append] at hscan
    refine (findOnBus_total hlt hc).bind ?_
    rintro r u ⟨hu, hr⟩
    rw [hspace] at hu hr
    have hnext : ∀ c',
        scanSlots s.space vendorId deviceId index (busFrom bus 0) c.toNat = .next c' →
          c' ≤ index.toNat := fun _ h => Scan.scan_next_le hc h
    generalize scanSlots s.space vendorId deviceId index (busFrom bus 0) c.toNat = scan
      at hscan hr hnext
    cases scan with
    | found slot =>
        obtain rfl := hr
        exact total_pure ⟨by rw [← hscan]; rfl, hu⟩
    | gap =>
        obtain rfl := hr
        exact total_pure ⟨by rw [← hscan]; rfl, hu⟩
    | next c' =>
        obtain ⟨count, rfl, rfl⟩ := hr
        exact total_pure ⟨⟨hu, hnext _ rfl, hscan⟩, by omega⟩
  · rw [if_neg hlt]
    have hnil : slotsFrom bus (256 - bus) = [] := by
      rw [show 256 - bus = 0 by omega]
      rfl
    rw [hnil] at hscan
    refine total_pure ⟨?_, hspace⟩
    rw [← hscan]
    rfl

end Loops

/-! ### The slots it reads and the slots there are -/

section Compare

variable {space : κ} {vendorId deviceId : U16}

/-- The devices in front of the first empty slot of the first 128 buses. -/
def matchingInFront (space : κ) (vendorId deviceId : U16) : List PciSlot :=
  matching space vendorId deviceId ((slotsFrom 0 128).takeWhile (slotPresent space))

/-- The hits of the scan in front of the first gap. -/
abbrev seenHits (space : κ) (vendorId deviceId : U16) (slots : List PciSlot) : List PciSlot :=
  Scan.hits (fun slot => slotPresent space (reached slot))
    (fun slot => slotMatches space vendorId deviceId (reached slot)) slots

theorem mem_slotsFrom {lo n : Nat} {slot : PciSlot} :
    slot ∈ slotsFrom lo n ↔ lo ≤ slot.1 ∧ slot.1 < lo + n ∧ slot.2 < 32 := by
  simp only [slotsFrom, busFrom, List.mem_flatMap, List.mem_map, List.mem_range'_1]
  constructor
  · rintro ⟨bus, hbus, device, hdevice, rfl⟩
    omega
  · rintro ⟨h₁, h₂, h₃⟩
    exact ⟨slot.1, ⟨h₁, h₂⟩, slot.2, by omega, rfl⟩

theorem slotsFrom_append (lo m n : Nat) :
    slotsFrom lo (m + n) = slotsFrom lo m ++ slotsFrom (lo + m) n := by
  rw [slotsFrom, ← List.range'_append_1, List.flatMap_append]
  rfl

/-- The second 128 buses lead to the first ones again. -/
theorem slotsFrom_reached : (slotsFrom 128 128).map reached = slotsFrom 0 128 := by
  have hbus : ∀ bus ∈ List.range' 0 128, (busFrom (128 + bus) 0).map reached = busFrom bus 0 := by
    intro bus hmem
    rw [List.mem_range'_1] at hmem
    rw [busFrom, busFrom, List.map_map]
    refine List.map_congr_left ?_
    intro device _
    simp only [Function.comp, reached, Prod.mk.injEq, and_true]
    omega
  rw [slotsFrom, show (128 : Nat) = 128 + 0 from rfl, ← List.map_add_range', List.flatMap_map,
    List.map_flatMap]
  exact List.flatMap_congr hbus

theorem buses_eq : slotsFrom 0 256 = slotsFrom 0 128 ++ slotsFrom 128 128 :=
  slotsFrom_append 0 128 128

theorem reached_low {slot : PciSlot} (h : slot ∈ slotsFrom 0 128) : reached slot = slot := by
  have hslot := mem_slotsFrom.mp h
  refine Prod.ext ?_ rfl
  show slot.1 % 128 = slot.1
  omega

theorem seen_low {slot : PciSlot} (h : slot ∈ slotsFrom 0 128) :
    seen space slot = deviceAt space slot := by
  rw [seen, reached_low h, deviceAt]

/-- In the first 128 buses the function meets what is there. -/
theorem seenHits_low : seenHits space vendorId deviceId (slotsFrom 0 128) =
    matchingInFront space vendorId deviceId := by
  have here : seenHits space vendorId deviceId (slotsFrom 0 128) =
      Scan.hits (slotPresent space) (slotMatches space vendorId deviceId) (slotsFrom 0 128) :=
    Scan.hits_congr (fun _ h => by rw [reached_low h]) fun _ h => by rw [reached_low h]
  rw [here, Scan.hits_and]
  rfl

/-- An empty slot in the first 128 buses ends the scan there. -/
theorem seenHits_gap (h : ∃ slot ∈ slotsFrom 0 128, slotPresent space slot = false) :
    seenHits space vendorId deviceId (slotsFrom 0 256) =
      matchingInFront space vendorId deviceId := by
  obtain ⟨slot, hmem, hgap⟩ := h
  rw [buses_eq, seenHits, Scan.hits_append_gap ⟨slot, hmem, by rw [reached_low hmem, hgap]⟩]
  exact seenHits_low

/-- Where no slot is empty, every device with the ids is in front of the first gap. -/
theorem matchingInFront_full (h : ∀ slot ∈ slotsFrom 0 128, slotPresent space slot = true) :
    matchingInFront space vendorId deviceId =
      matching space vendorId deviceId (slotsFrom 0 128) := by
  rw [matchingInFront, List.takeWhile_eq_self_iff.mpr h]

/-- Without an empty slot, the function goes through the first 128 buses twice. -/
theorem seenHits_full (h : ∀ slot ∈ slotsFrom 0 128, slotPresent space slot = true) :
    ∃ again : List PciSlot, (∀ slot ∈ again, slot ∈ slotsFrom 128 128) ∧
      again.length = (matching space vendorId deviceId (slotsFrom 0 128)).length ∧
      seenHits space vendorId deviceId (slotsFrom 0 256) =
        matching space vendorId deviceId (slotsFrom 0 128) ++ again := by
  have hlow : ∀ slot ∈ slotsFrom 0 128, slotPresent space (reached slot) = true := by
    intro slot hmem
    rw [reached_low hmem]
    exact h slot hmem
  have hhigh : ∀ slot ∈ slotsFrom 128 128, slotPresent space (reached slot) = true := by
    intro slot hmem
    apply h
    rw [← slotsFrom_reached]
    exact List.mem_map_of_mem hmem
  have hmatching : matching space vendorId deviceId (slotsFrom 0 128) =
      (slotsFrom 0 128).filter (slotMatches space vendorId deviceId) := by
    refine List.filter_congr ?_
    intro slot hmem
    rw [h slot hmem, Bool.true_and]
  have hreached : (slotsFrom 0 128).filter (fun slot => slotMatches space vendorId deviceId
      (reached slot)) = matching space vendorId deviceId (slotsFrom 0 128) := by
    rw [hmatching]
    exact List.filter_congr fun slot hmem => by rw [reached_low hmem]
  refine ⟨(slotsFrom 128 128).filter fun slot => slotMatches space vendorId deviceId (reached slot),
    fun slot hmem => (List.mem_filter.mp hmem).1, ?_, ?_⟩
  · rw [hmatching, ← slotsFrom_reached, List.filter_map, List.length_map]
    rfl
  · rw [buses_eq, seenHits, Scan.hits_append_full hlow, hreached, Scan.hits_full hhigh]

/-- Bit 23 of an address is bit 7 of the bus. -/
theorem slotAddress_bit {slot : PciSlot} (hdev : slot.2 < 32) :
    (slotAddress slot).getLsbD 23 = slot.1.testBit 7 := by
  have hbit : slot.2.testBit 12 = false := Nat.testBit_lt_two_pow (by omega)
  simp only [slotAddress, BitVec.getLsbD_or, BitVec.getLsbD_shiftLeft, BitVec.getLsbD_ofNat]
  simp [hbit]

/-- The address that a query of the second 128 buses uses is not one of theirs. -/
theorem seen_ne_deviceAt {slot slot' : PciSlot} (h : slot ∈ slotsFrom 128 128)
    (h' : slot' ∈ slotsFrom 128 128) : seen space slot ≠ deviceAt space slot' := by
  rw [mem_slotsFrom] at h h'
  intro heq
  have hbase : slotAddress (reached slot) = slotAddress slot' :=
    congrArg PciDevice.baseConfigAddress heq
  have hbit : (slotAddress (reached slot)).getLsbD 23 = (slotAddress slot').getLsbD 23 := by
    rw [hbase]
  rw [slotAddress_bit (show (reached slot).2 < 32 from h.2.2), slotAddress_bit h'.2.2, reached,
    Nat.testBit_eq_decide_div_mod_eq, Nat.testBit_eq_decide_div_mod_eq, decide_eq_decide] at hbit
  omega

end Compare

/-! ### When the right device is found -/

section Result

variable {s : Pci κ} {vendorId deviceId : U16} {index : U8}

/-- The function is right when the hits that it meets and the devices that are there
agree at the index. -/
theorem findsDevice_hits : FindsDevice s vendorId deviceId index ↔
    (seenHits s.space vendorId deviceId (slotsFrom 0 256))[index.toNat]?.map (seen s.space) =
      (matching s.space vendorId deviceId (slotsFrom 0 256))[index.toNat]?.map
        (deviceAt s.space) := by
  have total : Prog.Total (pciFindDevice vendorId deviceId index) s _ := pciFindDevice_total
  obtain ⟨result, t, hreturns, hresult, -⟩ := total
  rw [scanSlots, Scan.scan_result (Nat.zero_le _), Nat.sub_zero] at hresult
  rw [← hresult]
  constructor
  · rintro ⟨result', t', hreturns', hright⟩
    rwa [(hreturns.functional hreturns').1]
  · intro hright
    exact ⟨result, t, hreturns, hright⟩

/-- The devices that are there, by halves. -/
theorem matching_slots : matching s.space vendorId deviceId (slotsFrom 0 256) =
    matching s.space vendorId deviceId (slotsFrom 0 128) ++
      matching s.space vendorId deviceId (slotsFrom 128 128) := by
  rw [buses_eq, matching, List.filter_append]
  rfl

theorem matching_sub {slots : List PciSlot} {slot : PciSlot}
    (h : slot ∈ matching s.space vendorId deviceId slots) : slot ∈ slots :=
  (List.mem_filter.mp h).1

/-- Within the devices of the first 128 buses, the right one is found. -/
theorem agree_low {n : Nat} {hits rest : List PciSlot}
    (hhits : hits <+: matching s.space vendorId deviceId (slotsFrom 0 128)) (hn : n < hits.length) :
    hits[n]?.map (seen s.space) =
      (matching s.space vendorId deviceId (slotsFrom 0 128) ++ rest)[n]?.map
        (deviceAt s.space) := by
  have hmem : hits[n] ∈ slotsFrom 0 128 := matching_sub (hhits.subset (List.getElem_mem hn))
  obtain ⟨more, hmore⟩ := hhits
  rw [← hmore, List.append_assoc, List.getElem?_append_left hn, List.getElem?_eq_getElem hn]
  exact congrArg some (seen_low hmem)

/-- With an empty slot in the first 128 buses. -/
theorem agree_gap {n : Nat} (h : ∃ slot ∈ slotsFrom 0 128, slotPresent s.space slot = false) :
    (seenHits s.space vendorId deviceId (slotsFrom 0 256))[n]?.map (seen s.space) =
        (matching s.space vendorId deviceId (slotsFrom 0 256))[n]?.map (deviceAt s.space) ↔
      n < (matchingInFront s.space vendorId deviceId).length ∨
        (matching s.space vendorId deviceId (slotsFrom 0 256)).length ≤ n := by
  have hprefix : matchingInFront s.space vendorId deviceId <+:
      matching s.space vendorId deviceId (slotsFrom 0 128) :=
    (List.takeWhile_prefix _).filter _
  rw [seenHits_gap h]
  by_cases hn : n < (matchingInFront s.space vendorId deviceId).length
  · rw [matching_slots]
    exact iff_of_true (agree_low hprefix hn) (.inl hn)
  · rw [List.getElem?_eq_none (Nat.le_of_not_lt hn), Option.map_none, eq_comm,
      Option.map_eq_none_iff, List.getElem?_eq_none_iff]
    exact (or_iff_right hn).symm

/-- Without one. -/
theorem agree_full {n : Nat} (h : ∀ slot ∈ slotsFrom 0 128, slotPresent s.space slot = true) :
    (seenHits s.space vendorId deviceId (slotsFrom 0 256))[n]?.map (seen s.space) =
        (matching s.space vendorId deviceId (slotsFrom 0 256))[n]?.map (deviceAt s.space) ↔
      n < (matching s.space vendorId deviceId (slotsFrom 0 128)).length ∨
        ((matching s.space vendorId deviceId (slotsFrom 0 256)).length ≤ n ∧
          2 * (matching s.space vendorId deviceId (slotsFrom 0 128)).length ≤ n) := by
  obtain ⟨again, hagain, hlen, hhits⟩ : ∃ again : List PciSlot, _ ∧ again.length = _ ∧
      seenHits s.space vendorId deviceId (slotsFrom 0 256) = _ := seenHits_full h
  rw [hhits, matching_slots]
  generalize hlow : matching s.space vendorId deviceId (slotsFrom 0 128) = low at hlen ⊢
  by_cases hn : n < low.length
  · refine iff_of_true ?_ (.inl hn)
    rw [List.getElem?_append_left hn]
    subst hlow
    exact agree_low List.prefix_rfl hn
  · rw [List.getElem?_append_right (by omega), List.getElem?_append_right (by omega)]
    by_cases hagain' : n - low.length < again.length
    · -- A device of the first half is found again, under a bus number of the second.
      refine iff_of_false ?_ (by omega)
      rw [List.getElem?_eq_getElem hagain', Option.map_some]
      intro heq
      obtain ⟨slot, hslot, hdevice⟩ := Option.map_eq_some_iff.mp heq.symm
      exact seen_ne_deviceAt (hagain _ (List.getElem_mem hagain'))
        (matching_sub (List.mem_of_getElem? hslot)) hdevice.symm
    · rw [List.getElem?_eq_none (by omega), Option.map_none, eq_comm, Option.map_eq_none_iff,
        List.getElem?_eq_none_iff, List.length_append]
      omega

/-- The function finds the right device exactly when the device is in front of the
first empty slot of the first 128 buses, or there is none to be found and the
function does not meet a device of the first 128 buses again instead. -/
theorem findsDevice_iff : FindsDevice s vendorId deviceId index ↔
    index.toNat < (matchingInFront s.space vendorId deviceId).length ∨
      ((matching s.space vendorId deviceId (slotsFrom 0 256)).length ≤ index.toNat ∧
        ((∃ slot ∈ slotsFrom 0 128, slotPresent s.space slot = false) ∨
          2 * (matching s.space vendorId deviceId (slotsFrom 0 128)).length ≤ index.toNat)) := by
  rw [findsDevice_hits]
  by_cases h : ∃ slot ∈ slotsFrom 0 128, slotPresent s.space slot = false
  · rw [agree_gap h]
    simp only [h, true_or, and_true]
  · have hfull : ∀ slot ∈ slotsFrom 0 128, slotPresent s.space slot = true := by
      intro slot hmem
      by_contra hgap
      exact h ⟨slot, hmem, Bool.eq_false_iff.mpr hgap⟩
    rw [agree_full hfull, matchingInFront_full hfull]
    simp only [h, false_or]

end Result

/-! ### A bus with a gap -/

/-- A configuration space with a dword at every address. -/
instance dwordSpace : ConfigSpace (U32 → U32) where
  read a space := space a
  write a v space := Function.update space a v

/-- Device 1 of bus 0 is the only one. -/
def gapSpace : Pci (U32 → U32) where
  address := 0
  space a := if a = slotAddress (0, 1) then 0x12378086 else 0xFFFFFFFF
  dev := describe (fun _ => 0 : U32 → U32) 0 0 0

/-- With device 0 of bus 0 missing, device 1 is not found. -/
theorem findsDevice_fails :
    ¬ ∀ (s : Pci (U32 → U32)) (vendorId deviceId : U16) (index : U8),
      FindsDevice s vendorId deviceId index := by
  intro h
  have hgap : ∃ slot ∈ slotsFrom 0 128, slotPresent gapSpace.space slot = false :=
    ⟨(0, 0), mem_slotsFrom.mpr (by decide), by decide⟩
  have hmem : (0, 1) ∈ matching gapSpace.space 0x8086 0x1237 (slotsFrom 0 256) :=
    List.mem_filter.mpr ⟨mem_slotsFrom.mpr (by decide), by decide⟩
  have hpos := List.length_pos_of_mem hmem
  have hnone : (matchingInFront gapSpace.space 0x8086 0x1237).length = 0 := rfl
  rcases (agree_gap hgap).mp (findsDevice_hits.mp (h gapSpace 0x8086 0x1237 0)) with hfront | hnot
  · rw [hnone] at hfront
    exact absurd hfront (by decide)
  · exact absurd hpos (Nat.not_lt.mpr hnot)

end MyBios
