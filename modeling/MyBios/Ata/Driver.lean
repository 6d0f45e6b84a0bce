import MyBios.Machine

/-!
The ATA driver (`ata.c`).

A channel is reached through a `dev_ata *`. Here that is a `DevRef`: an index
into `ata_devices`, or the null pointer, whose fields are read from memory at
address 0, as the code does. Statics of the driver and the buffers it fills are
taken not to overlap.

The four transfer functions share their loops and differ in the register values
they issue. `Taskfile` is such a set of values, `issue` writes it, and each
function is `issue` with its own taskfile and one of the two word loops.
-/

namespace MyBios

open Prog

/-! ### Constants -/

def ataData : U32 := 0
def ataError : U32 := 1
def ataSectorCount : U32 := 2
def ataLbaLo : U32 := 3
def ataLbaMid : U32 := 4
def ataLbaHi : U32 := 5
def ataDriveHead : U32 := 6
def ataStatus : U32 := 7
def ataCommand : U32 := 7

def ataStatusErr : U8 := 0x01
def ataStatusDrq : U8 := 0x08
def ataStatusBsy : U8 := 0x80

def ataCmdReadPio : U8 := 0x20
def ataCmdWritePio : U8 := 0x30
def ataCmdIdentify : U8 := 0xEC

def ataDriveLba28 : U32 := 0x200
def ataDriveLba48 : U32 := 0x400
def ataDriveSlave : U32 := 0x800

def ataIdentDevicetype : Nat := 0
def ataIdentCylinders : Nat := 1
def ataIdentHeads : Nat := 3
def ataIdentSectors : Nat := 6
def ataIdentModel : Nat := 27

/-! ### Data -/

structure DevAta where
  base : U32
  irq : U32
  slaveSelected : Bool

/-- The tables `ata_devices` and `dev_ata_drives` have an entry 0. -/
instance tables_neZero : NeZero 4 := ⟨by decide⟩

/-- A `dev_ata *`: an element of `ata_devices`, or null. -/
abbrev DevRef := Option (Fin 4)

structure AtaDrive where
  type : U16
  model : List U8
  blocks48 : U64
  blocks28 : U32
  cylinders : U16
  heads : U16
  sectors : U16
  flags : U32
  dev : DevRef

/-- An entry of `dev_ata_drives` before `ata_identify` fills it. -/
def AtaDrive.empty : AtaDrive := ⟨0, List.replicate 41 0, 0, 0, 0, 0, 0, 0, none⟩

/-- The machine, the statics of `ata.c`, and `dev_ata_drives`. -/
structure AtaState (δ : Type) where
  machine : Machine δ
  ataDevices : Fin 4 → DevAta
  numDevices : Nat
  devAtaDrives : Fin 4 → AtaDrive

namespace AtaState

variable {δ : Type}

def machineLens (δ : Type) : Lens (AtaState δ) (Machine δ) where
  get := AtaState.machine
  set m s := { s with machine := m }
  get_set _ _ := rfl
  set_get _ := rfl

/-- The fields a `dev_ata *` points at. -/
def device (dev : DevRef) (s : AtaState δ) : DevAta :=
  match dev with
  | some i => s.ataDevices i
  | none => ⟨s.machine.mem.read32 0, s.machine.mem.read32 4, s.machine.mem 8 ≠ 0⟩

def setDevice (i : Fin 4) (d : DevAta) (s : AtaState δ) : AtaState δ :=
  { s with ataDevices := fun j => if j = i then d else s.ataDevices j }

/-- `dev->slave_selected = slave`. -/
def setSlaveSelected (dev : DevRef) (slave : Bool) (s : AtaState δ) : AtaState δ :=
  match dev with
  | some i => s.setDevice i { s.ataDevices i with slaveSelected := slave }
  | none => { s with machine := { s.machine with
      mem := s.machine.mem.write8 8 (if slave then 1 else 0) } }

def setDrive (k : Fin 4) (info : AtaDrive) (s : AtaState δ) : AtaState δ :=
  { s with devAtaDrives := fun j => if j = k then info else s.devAtaDrives j }

/-- The log of port accesses. -/
def log (s : AtaState δ) : List PortEvent := s.machine.io.log

end AtaState

/-- A program of the machine inside the driver. -/
def onMachine {δ α : Type} (p : Prog (Machine δ) α) : Prog (AtaState δ) α :=
  zoom (AtaState.machineLens δ) p

/-- A register's port; `inb` and `outb` take the low 16 bits of the sum. -/
def ataPort (base reg : U32) : U16 := (base + reg).setWidth 16

variable {δ : Type} [Bus δ]

/-! ### Registers -/

def ataOutb (dev : DevRef) (reg : U32) (value : U8) : Prog (AtaState δ) Unit := do
  let d ← gets (AtaState.device dev)
  onMachine (onPorts (outb (ataPort d.base reg) value))

def ataInb (dev : DevRef) (reg : U32) : Prog (AtaState δ) U8 := do
  let d ← gets (AtaState.device dev)
  onMachine (onPorts (inb (ataPort d.base reg)))

def ataInw (dev : DevRef) (reg : U32) : Prog (AtaState δ) U16 := do
  let d ← gets (AtaState.device dev)
  onMachine (onPorts (inw (ataPort d.base reg)))

def ataOutw (dev : DevRef) (reg : U32) (value : U16) : Prog (AtaState δ) Unit := do
  let d ← gets (AtaState.device dev)
  onMachine (onPorts (outw (ataPort d.base reg) value))

def status (dev : DevRef) : Prog (AtaState δ) U8 := ataInb dev ataStatus

/-- `while ((s = status(dev))) if (!(s & ATA_STATUS_BSY)) break;` -/
def ataWait (dev : DevRef) : Prog (AtaState δ) U8 :=
  loop (fun _ => do
    let s ← status dev
    if s = 0 then pure (Pass.done s)
    else if s &&& ataStatusBsy = 0 then pure (Pass.done s)
    else pure (Pass.again ())) ()

/-! ### Selecting a drive -/

/-- `ata_drive_select`; 15 more status reads are a delay. -/
def ataDriveSelect (dev : DevRef) (slave : Bool) : Prog (AtaState δ) Unit := do
  let d ← gets (AtaState.device dev)
  if d.slaveSelected = slave then pure ()
  else do
    ataOutb dev ataDriveHead (0xA0 ||| (if slave then 0x10 else 0))
    loop (fun count => do
      let s ← status dev
      if s &&& ataStatusBsy = 0 ∧ count + 1 > 15 then pure (Pass.done ())
      else pure (Pass.again (count + 1))) 0
    modify (AtaState.setSlaveSelected dev slave)

/-- `detect_controller`: the sector count register reads back. -/
def detectController (dev : DevRef) : Prog (AtaState δ) Bool := do
  ataOutb dev ataSectorCount 0xA5
  let controller ← ataInb dev ataSectorCount
  pure (controller = 0xA5)

/-- `ata_init`, but for the registration of an empty handler. -/
def ataInit (base irq : U32) : Prog (AtaState δ) DevRef := do
  let numDevices ← gets AtaState.numDevices
  if h : numDevices < 4 then do
    let dev : Fin 4 := ⟨numDevices, h⟩
    modify fun s => { s with numDevices := s.numDevices + 1 }
    modify fun s => s.setDevice dev { s.ataDevices dev with base := base, irq := irq }
    let detected ← detectController (some dev)
    if detected then do
      modify (AtaState.setSlaveSelected (some dev) true)
      ataDriveSelect (some dev) false
      pure (some dev)
    else do
      modify fun s => { s with numDevices := s.numDevices - 1 }
      pure none
  else pure none

/-! ### Identifying a drive -/

/-- Wait for the data: false when the drive reports an error. -/
def identifyWait (dev : DevRef) : Prog (AtaState δ) Bool :=
  loop (fun _ => do
    let s ← status dev
    if s = 0 then pure (Pass.done true)
    else if s &&& ataStatusDrq ≠ 0 then pure (Pass.done true)
    else if s &&& ataStatusErr ≠ 0 then pure (Pass.done false)
    else pure (Pass.again ())) ()

/-- The 256 words of the reply. -/
def identifyRead (dev : DevRef) : Prog (AtaState δ) (List U16) :=
  repeatN (fun words => do
    let word ← ataInw dev ataData
    pure (words ++ [word])) 256 []

/-- The number of blocks, and whether it came from the LBA words. `int` products
and shifts wrap at 32 bits. -/
def identifyBlocks (ident : Nat → U16) : U32 × Bool :=
  let blocks : U32 := ident 61 ++ ident 60
  if blocks > 0 then (blocks, true)
  else if ident 53 &&& 0x1 ≠ 0 then (ident 58 ++ ident 57, false)
  else ((ident ataIdentHeads).setWidth 32 * (ident ataIdentSectors).setWidth 32 *
    (ident ataIdentCylinders).setWidth 32, false)

/-- The 48-bit block count. Its low half is an `int`, whose sign is extended. -/
def identifyBlocks48 (ident : Nat → U16) : U64 :=
  (ident 101 ++ ident 100 : U32).signExtend 64 ||| ((ident 102).setWidth 64 <<< 32) |||
    ((ident 103).setWidth 64 <<< 48)

/-- The model name: 20 words, high byte first, and a terminator. -/
def identifyModel (ident : Nat → U16) : List U8 :=
  (List.range 20).flatMap (fun i =>
    [(ident (ataIdentModel + i)).extractLsb' 8 8, (ident (ataIdentModel + i)).extractLsb' 0 8])
    ++ [0]

/-- The drive that the words describe. -/
def identifyDrive (dev : DevRef) (slave : Bool) (ident : Nat → U16) : AtaDrive where
  type := ident ataIdentDevicetype
  model := identifyModel ident
  blocks48 := identifyBlocks48 ident
  blocks28 := (identifyBlocks ident).1
  cylinders := ident ataIdentCylinders
  heads := ident ataIdentHeads
  sectors := ident ataIdentSectors
  flags := (if (identifyBlocks ident).2 then ataDriveLba28 else 0) |||
    (if identifyBlocks48 ident > 0 then ataDriveLba48 else 0) |||
    (if slave then ataDriveSlave else 0)
  dev := dev

/-- `ata_identify`, with `&dev_ata_drives[info]` for `info`. -/
def ataIdentify (dev : DevRef) (slave : Bool) (info : Fin 4) : Prog (AtaState δ) Bool := do
  modify fun s => s.setDrive info { s.devAtaDrives info with dev := none }
  ataDriveSelect dev slave
  ataOutb dev 0x206 0x2
  ataOutb dev ataSectorCount 0
  ataOutb dev ataLbaLo 0
  ataOutb dev ataLbaMid 0
  ataOutb dev ataLbaHi 0
  ataOutb dev ataCommand ataCmdIdentify
  let s ← ataWait dev
  if s = 0 then pure false
  else do
    let ready ← identifyWait dev
    if ready then do
      let words ← identifyRead dev
      modify (AtaState.setDrive info (identifyDrive dev slave fun i => words.getD i 0))
      pure true
    else pure false

/-! ### Transfers -/

/-- The register values of a command. -/
structure Taskfile where
  driveHead : U8
  count : U8
  lo : U8
  mid : U8
  hi : U8
  command : U8
  deriving DecidableEq, Repr

/-- The drive/head byte's bit for the selected drive. -/
def selectBit (slaveSelected : Bool) : U8 := if slaveSelected then 0x10 else 0

def lbaTaskfile (slaveSelected : Bool) (sector : U32) (count : U16) (command : U8) : Taskfile where
  driveHead := (0xE0 ||| selectBit slaveSelected) ||| ((sector >>> 24) &&& 0xF).setWidth 8
  count := count.setWidth 8
  lo := sector.setWidth 8
  mid := (sector >>> 8).setWidth 8
  hi := (sector >>> 16).setWidth 8
  command := command

def chsTaskfile (slaveSelected : Bool) (cylinder : U32) (head : U8) (sector count : U16)
    (command : U8) : Taskfile where
  driveHead := (0xA0 ||| selectBit slaveSelected) ||| head
  count := count.setWidth 8
  lo := sector.setWidth 8
  mid := (cylinder &&& 0xFF).setWidth 8
  hi := ((cylinder >>> 8) &&& 0xFF).setWidth 8
  command := command

/-- Write a command's registers, the command last. -/
def issue (dev : DevRef) (t : Taskfile) : Prog (AtaState δ) Unit := do
  ataOutb dev ataDriveHead t.driveHead
  ataOutb dev ataError 0
  ataOutb dev ataSectorCount t.count
  ataOutb dev ataLbaLo t.lo
  ataOutb dev ataLbaMid t.mid
  ataOutb dev ataLbaHi t.hi
  ataOutb dev ataCommand t.command

/-- `buffer + c`, a 32-bit pointer. -/
def bufferAddr (buffer : U32) (c : Nat) : Nat := (buffer + BitVec.ofNat 32 c).toNat

/-- One word from the drive into `buffer[c]` and `buffer[c + 1]`. -/
def readWord (dev : DevRef) (buffer : U32) (c : Nat) : Prog (AtaState δ) Nat := do
  let data ← ataInw dev ataData
  onMachine (storeByte (bufferAddr buffer c) (data.extractLsb' 0 8))
  onMachine (storeByte (bufferAddr buffer (c + 1)) (data.extractLsb' 8 8))
  pure (c + 2)

/-- `buffer[c]` and `buffer[c + 1]`, as unsigned bytes, to the drive. -/
def writeWord (dev : DevRef) (buffer : U32) (c : Nat) : Prog (AtaState δ) Nat := do
  let low ← gets fun s => s.machine.mem (bufferAddr buffer c)
  let high ← gets fun s => s.machine.mem (bufferAddr buffer (c + 1))
  ataOutw dev ataData (high ++ low)
  pure (c + 2)

/-- The body of the outer loop of a transfer: the drive is awaited before each sector. -/
def transferPass (dev : DevRef) (count : U16) (word : Nat → Prog (AtaState δ) Nat) (c : Nat) :
    Prog (AtaState δ) (Pass Nat Nat) :=
  if c < 512 * count.toNat then do
    let _ ← ataWait dev
    let c ← repeatN word 256 c
    pure (Pass.again c)
  else pure (Pass.done c)

section Pass

variable {dev : DevRef} {count : U16} {word : Nat → Prog (AtaState δ) Nat} {c c' : Nat}
  {s t : AtaState δ}

theorem transferPass_sector (h : c < 512 * count.toNat) :
    transferPass dev count word c = (do
      let _ ← ataWait dev
      let c ← repeatN word 256 c
      pure (Pass.again c)) :=
  if_pos h

theorem transferPass_done (h : ¬ c < 512 * count.toNat) :
    transferPass dev count word c = pure (Pass.done c) :=
  if_neg h

theorem returns_transferPass_again :
    (transferPass dev count word c).Returns s (.again c') t ↔ c < 512 * count.toNat ∧
      ∃ v u, (ataWait dev).Returns s v u ∧ (repeatN word 256 c).Returns u c' t := by
  by_cases hmore : c < 512 * count.toNat
  · rw [transferPass_sector hmore]
    simp [hmore]
  · rw [transferPass_done hmore]
    simp [hmore]

theorem returns_transferPass_done :
    (transferPass dev count word c).Returns s (.done c') t ↔
      ¬ c < 512 * count.toNat ∧ c' = c ∧ t = s := by
  by_cases hmore : c < 512 * count.toNat
  · rw [transferPass_sector hmore]
    simp [hmore]
  · rw [transferPass_done hmore]
    simp [hmore]

end Pass

/-- The loops of a transfer. The result is the number of bytes moved. -/
def transferLoop (dev : DevRef) (count : U16) (word : Nat → Prog (AtaState δ) Nat) :
    Prog (AtaState δ) U32 := do
  let c ← loop (transferPass dev count word) 0
  pure (BitVec.ofNat 32 c)

/-- A transfer whose registers depend on the drive selected. -/
def transfer (dev : DevRef) (count : U16) (task : Bool → Taskfile)
    (word : Nat → Prog (AtaState δ) Nat) : Prog (AtaState δ) U32 := do
  let d ← gets (AtaState.device dev)
  issue dev (task d.slaveSelected)
  transferLoop dev count word

def ataReadLba (dev : DevRef) (sector : U32) (count : U16) (buffer : U32) :
    Prog (AtaState δ) U32 :=
  transfer dev count (lbaTaskfile · sector count ataCmdReadPio) (readWord dev buffer)

def ataWriteLba (dev : DevRef) (sector : U32) (count : U16) (buffer : U32) :
    Prog (AtaState δ) U32 :=
  transfer dev count (lbaTaskfile · sector count ataCmdWritePio) (writeWord dev buffer)

def ataReadChs (dev : DevRef) (cylinder : U32) (head : U8) (sector count : U16) (buffer : U32) :
    Prog (AtaState δ) U32 :=
  transfer dev count (chsTaskfile · cylinder head sector count ataCmdReadPio) (readWord dev buffer)

def ataWriteChs (dev : DevRef) (cylinder : U32) (head : U8) (sector count : U16) (buffer : U32) :
    Prog (AtaState δ) U32 :=
  transfer dev count (chsTaskfile · cylinder head sector count ataCmdWritePio)
    (writeWord dev buffer)

end MyBios
