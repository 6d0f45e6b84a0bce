import MyBios.Pci.Access
import MyBios.Pci.Find

/-!
The fields of the device record against the registers they are named after.

`query_pci_device` cuts twelve fields out of four dwords, and `enum pci_config_registers`
says where each of them is. The dword at 4 has the command in its lower half and the
status in its upper one; the record takes them the other way round.

`query_agrees_iff`: every field is what its register reads as exactly when the two
registers are equal. The other ten fields always are (`field_agrees`).
-/

namespace MyBios

open Prog

variable {κ : Type} [ConfigSpace κ]

/-- The registers of `enum pci_config_registers` that the record has a field for. -/
inductive PciConfigRegister where
  | vendorId | deviceId | command | status | revisionId | progIf | subclass | class_
  | cacheLineSize | latencyTimer | headerType | bist
  deriving DecidableEq, Repr

namespace PciConfigRegister

def offset : PciConfigRegister → U8
  | vendorId => 0x00
  | deviceId => 0x02
  | command => 0x04
  | status => 0x06
  | revisionId => 0x08
  | progIf => 0x09
  | subclass => 0x0A
  | class_ => 0x0B
  | cacheLineSize => 0x0C
  | latencyTimer => 0x0D
  | headerType => 0x0E
  | bist => 0x0F

/-- The field of the record: a word or a byte. -/
def field (dev : PciDevice) : PciConfigRegister → U16 ⊕ U8
  | vendorId => .inl dev.vendorId
  | deviceId => .inl dev.deviceId
  | command => .inl dev.command
  | status => .inl dev.status
  | revisionId => .inr dev.revision
  | progIf => .inr dev.progIf
  | subclass => .inr dev.subclass
  | class_ => .inr dev.class_
  | cacheLineSize => .inr dev.cacheLineSize
  | latencyTimer => .inr dev.latencyTimer
  | headerType => .inr dev.headerType
  | bist => .inr dev.bist

end PciConfigRegister

/-- A field is what the accessor of its width returns at the offset of its register. -/
def FieldAgrees (dev : PciDevice) (s : Pci κ) (register : PciConfigRegister) : Prop :=
  match register.field dev with
  | .inl word => Total (pciConfigReadw dev register.offset) s fun v _ => v = word
  | .inr byte => Total (pciConfigReadb dev register.offset) s fun v _ => v = byte

/-- After a query, every field of the record agrees with its register. -/
def QueryAgrees (bus device : U8) (s : Pci κ) : Prop :=
  Total (queryPciDevice bus device) s fun found t =>
    found = true ∧ ∀ register, FieldAgrees t.dev t register

/-! ### What is stored and what is there -/

section Fields

variable {s : Pci κ} {bus device : U8} {base : U32}

/-- A word of the header, by the accessor. -/
theorem readw_agrees {dev : PciDevice} {offset : U8} {word : U16} :
    (Total (pciConfigReadw dev offset) s fun v _ => v = word) ↔
      Lane.get 16 (wordShift offset) (dwordAt dev offset s.space) = word := by
  constructor
  · intro h
    exact h.returns (returns_configReadw.mpr ⟨rfl, rfl⟩)
  · intro h
    exact ⟨_, _, returns_configReadw.mpr ⟨rfl, rfl⟩, h⟩

theorem readb_agrees {dev : PciDevice} {offset : U8} {byte : U8} :
    (Total (pciConfigReadb dev offset) s fun v _ => v = byte) ↔
      Lane.get 8 (byteShift offset) (dwordAt dev offset s.space) = byte := by
  constructor
  · intro h
    exact h.returns (returns_configReadb.mpr ⟨rfl, rfl⟩)
  · intro h
    exact ⟨_, _, returns_configReadb.mpr ⟨rfl, rfl⟩, h⟩

/-- The dword at offset 4: the command in the lower half, the status in the upper. -/
def commandAndStatus (space : κ) (bus device : U8) : U32 :=
  ConfigSpace.read (registerAddress (pciType2ConfigAddress bus device 0 0) 4) space

/-- The ten fields besides command and status always agree. -/
theorem field_agrees {address : U32} (register : PciConfigRegister) (hcommand : register ≠ .command)
    (hstatus : register ≠ .status) :
    FieldAgrees (describe s.space base bus device)
      { s with address := address, dev := describe s.space base bus device } register := by
  cases register with
  | vendorId => exact readw_agrees.mpr rfl
  | deviceId => exact readw_agrees.mpr rfl
  | command => exact absurd rfl hcommand
  | status => exact absurd rfl hstatus
  | revisionId => exact readb_agrees.mpr rfl
  | progIf => exact readb_agrees.mpr rfl
  | subclass => exact readb_agrees.mpr rfl
  | class_ => exact readb_agrees.mpr rfl
  | cacheLineSize => exact readb_agrees.mpr rfl
  | latencyTimer => exact readb_agrees.mpr rfl
  | headerType => exact readb_agrees.mpr rfl
  | bist => exact readb_agrees.mpr rfl

/-- The command field holds the status register. -/
theorem command_agrees {address : U32} :
    FieldAgrees (describe s.space (pciType2ConfigAddress bus device 0 0) bus device)
        { s with
          address := address
          dev := describe s.space (pciType2ConfigAddress bus device 0 0) bus device } .command ↔
      Lane.get 16 0 (commandAndStatus s.space bus device) =
        Lane.get 16 16 (commandAndStatus s.space bus device) :=
  readw_agrees

theorem status_agrees {address : U32} :
    FieldAgrees (describe s.space (pciType2ConfigAddress bus device 0 0) bus device)
        { s with
          address := address
          dev := describe s.space (pciType2ConfigAddress bus device 0 0) bus device } .status ↔
      Lane.get 16 16 (commandAndStatus s.space bus device) =
        Lane.get 16 0 (commandAndStatus s.space bus device) :=
  readw_agrees

/-- The fields of a device that answers agree with its registers exactly when the command
register and the status register are equal. -/
theorem query_agrees_iff
    (present : ConfigSpace.read (registerAddress (pciType2ConfigAddress bus device 0 0) 0) s.space ≠
      0xFFFFFFFF) :
    QueryAgrees bus device s ↔
      Lane.get 16 0 (commandAndStatus s.space bus device) =
        Lane.get 16 16 (commandAndStatus s.space bus device) := by
  have query := queryPciDevice_present present
  constructor
  · intro h
    exact command_agrees.mp ((h.returns query).2 .command)
  · intro h
    refine ⟨true, _, query, rfl, ?_⟩
    intro register
    by_cases hcommand : register = .command
    · subst hcommand
      exact command_agrees.mpr h
    · by_cases hstatus : register = .status
      · subst hstatus
        exact status_agrees.mpr h.symm
      · exact field_agrees register hcommand hstatus

end Fields

/-- A bridge in slot (0, 0). -/
def bridgeSpace (statusAndCommand : U32) : Pci (U32 → U32) where
  address := 0
  space a := if a = 0x80000004 then statusAndCommand else 0x12378086
  dev := describe (fun _ => 0 : U32 → U32) 0 0 0

/-- With both registers 0, as after a reset. -/
theorem query_agrees_reset : QueryAgrees 0 0 (bridgeSpace 0) :=
  (query_agrees_iff (by decide)).mpr (by decide)

/-- With memory and bus mastering enabled, the record has `0x0006` for the status. -/
theorem query_agrees_fails :
    ¬ ∀ (s : Pci (U32 → U32)) (bus device : U8),
      ConfigSpace.read (registerAddress (pciType2ConfigAddress bus device 0 0) 0) s.space ≠
        0xFFFFFFFF → QueryAgrees bus device s := by
  intro h
  have agrees := h (bridgeSpace 0x02800006) 0 0 (by decide)
  have query : (queryPciDevice 0 0).Returns (bridgeSpace 0x02800006) true _ :=
    queryPciDevice_present (by decide)
  have halves := command_agrees.mp ((agrees.returns query).2 .command)
  exact absurd halves (by decide)

end MyBios
