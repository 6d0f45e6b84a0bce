import MyBios.Ata.Taskfile

/-!
Two drives on one channel, as a device of the ATA driver.

A drive's contents are bytes, 512 to a sector. A PIO read or write command moves
`sectors` sectors of 256 little-endian words through the data register, starting
at the sector the other registers address. The drive is busy for some time
before each sector: for how many status reads is given by `latency`. A command
that leaves the drive, or any other command, fails.
-/

namespace MyBios

structure Geometry where
  cylinders : Nat
  heads : Nat
  sectors : Nat
  deriving DecidableEq

/-- The number of the sector with cylinder `c`, head `h` and sector `s`. -/
def Geometry.sector (g : Geometry) (c h s : Nat) : Nat := (c * g.heads + h) * g.sectors + s - 1

namespace Taskfile

variable (task : Taskfile)

/-- The drive a command goes to: bit 4 of the drive/head register. -/
def unit : Bool := task.driveHead.getLsbD 4

/-- Bit 6 of the drive/head register selects LBA addressing. -/
def lbaMode : Bool := task.driveHead.getLsbD 6

/-- The number of sectors a command moves; 0 stands for 256. -/
def sectors : Nat := if task.count = 0 then 256 else task.count.toNat

/-- The 28-bit block address in the registers. -/
def lba28 : Nat :=
  (task.driveHead &&& 0xF).toNat * 2 ^ 24 + task.hi.toNat * 2 ^ 16 + task.mid.toNat * 2 ^ 8 +
    task.lo.toNat

/-- The sector that the registers address on a drive of geometry `g`. -/
def sector (g : Geometry) : Nat :=
  if task.lbaMode then task.lba28
  else g.sector (task.mid.toNat + 256 * task.hi.toNat) (task.driveHead &&& 0xF).toNat task.lo.toNat

end Taskfile

/-! ### Register values -/

theorem driveHead_bits (slave : Bool) (x : BitVec 4) :
    ((0xE0 ||| selectBit slave) ||| x.setWidth 8) &&& 0xF = x.setWidth 8 ∧
      ((0xE0 ||| selectBit slave) ||| x.setWidth 8).getLsbD 4 = slave ∧
      ((0xE0 ||| selectBit slave) ||| x.setWidth 8).getLsbD 6 = true := by
  revert slave x
  decide

theorem topNibble (sector : U32) :
    ((sector >>> 24) &&& 0xF).setWidth 8 = (sector.extractLsb' 24 4).setWidth 8 := by
  apply BitVec.eq_of_toNat_eq
  simp only [BitVec.toNat_setWidth, BitVec.toNat_and, BitVec.toNat_ushiftRight,
    BitVec.extractLsb'_toNat]
  have : (0xF : U32).toNat = 2 ^ 4 - 1 := rfl
  rw [this, Nat.and_two_pow_sub_one_eq_mod]

section LbaTaskfile

variable {slave : Bool} {sector : U32} {count : U16} {cmd : U8}

theorem unit_lbaTaskfile : (lbaTaskfile slave sector count cmd).unit = slave := by
  rw [Taskfile.unit, lbaTaskfile, topNibble]
  exact (driveHead_bits slave _).2.1

theorem lbaMode_lbaTaskfile : (lbaTaskfile slave sector count cmd).lbaMode = true := by
  rw [Taskfile.lbaMode, lbaTaskfile, topNibble]
  exact (driveHead_bits slave _).2.2

theorem nibble_lbaTaskfile :
    (lbaTaskfile slave sector count cmd).driveHead &&& 0xF =
      (sector.extractLsb' 24 4).setWidth 8 := by
  rw [lbaTaskfile, topNibble]
  exact (driveHead_bits slave _).1

/-- The four registers hold all 28 bits of the block address. -/
theorem lba28_lbaTaskfile (h : sector.toNat < 2 ^ 28) :
    (lbaTaskfile slave sector count cmd).lba28 = sector.toNat := by
  rw [Taskfile.lba28, nibble_lbaTaskfile]
  simp only [lbaTaskfile, BitVec.toNat_setWidth, BitVec.extractLsb'_toNat,
    BitVec.toNat_ushiftRight, Nat.shiftRight_eq_div_pow]
  omega

theorem sector_lbaTaskfile {g : Geometry} (h : sector.toNat < 2 ^ 28) :
    (lbaTaskfile slave sector count cmd).sector g = sector.toNat := by
  rw [Taskfile.sector, if_pos lbaMode_lbaTaskfile, lba28_lbaTaskfile h]

theorem sectors_lbaTaskfile (hpos : 0 < count.toNat) (hle : count.toNat < 256) :
    (lbaTaskfile slave sector count cmd).sectors = count.toNat := by
  have htoNat : (count.setWidth 8).toNat = count.toNat := by
    rw [BitVec.toNat_setWidth]; omega
  rw [Taskfile.sectors, if_neg, lbaTaskfile, htoNat]
  intro h
  have := congrArg BitVec.toNat h
  rw [lbaTaskfile, htoNat] at this
  simp at this
  omega

end LbaTaskfile

section ChsTaskfile

variable {slave : Bool} {cylinder : U32} {head : U8} {sector count : U16} {cmd : U8}

theorem unit_chsTaskfile :
    (chsTaskfile slave cylinder head sector count cmd).unit = (slave || head.getLsbD 4) := by
  rw [Taskfile.unit, chsTaskfile, BitVec.getLsbD_or, BitVec.getLsbD_or]
  cases slave <;> rfl

theorem lbaMode_chsTaskfile :
    (chsTaskfile slave cylinder head sector count cmd).lbaMode = head.getLsbD 6 := by
  rw [Taskfile.lbaMode, chsTaskfile, BitVec.getLsbD_or, BitVec.getLsbD_or]
  cases slave <;> rfl

/-- Within its fields, a CHS taskfile holds the cylinder, head and sector. -/
theorem sector_chsTaskfile {g : Geometry} (hhead : head.toNat < 16)
    (hcylinder : cylinder.toNat < 2 ^ 16) (hsector : sector.toNat < 2 ^ 8) :
    (chsTaskfile slave cylinder head sector count cmd).sector g =
      g.sector cylinder.toNat head.toNat sector.toNat := by
  have hnibble : ∀ x : U8, x.toNat < 16 → x.getLsbD 6 = false ∧
      ((0xA0 ||| selectBit slave) ||| x) &&& 0xF = x := by
    cases slave <;> decide
  obtain ⟨hmode, hlow⟩ := hnibble head hhead
  have hbyte : (0xFF : U32).toNat = 2 ^ 8 - 1 := rfl
  rw [Taskfile.sector, lbaMode_chsTaskfile, hmode, if_neg (by decide)]
  simp only [chsTaskfile, hlow]
  simp only [BitVec.toNat_setWidth, BitVec.toNat_and, BitVec.toNat_ushiftRight,
    Nat.shiftRight_eq_div_pow, hbyte, Nat.and_two_pow_sub_one_eq_mod]
  congr 1 <;> omega

end ChsTaskfile

theorem count_task {r : Transfer} {slave : Bool} :
    (r.task slave).count = r.count.setWidth 8 ∧ (r.task slave).command = r.command := by
  unfold Transfer.task
  split <;> exact ⟨rfl, rfl⟩

/-! ### The device -/

/-- What the drive is doing. `pos` is the next byte, `left` the number of words
still to move. -/
inductive Phase where
  | idle
  | failed
  | reading (pos left : Nat)
  | writing (pos left : Nat)
  deriving DecidableEq

structure Disk where
  base : U32
  geometry : Bool → Geometry
  blocks : Bool → Nat
  contents : Bool → Nat → U8
  latency : Nat → Nat
  /-- the number of times the drive became busy -/
  delays : Nat
  /-- the number of status reads for which it stays busy -/
  busy : Nat
  regs : Taskfile
  phase : Phase

namespace Disk

variable (d : Disk)

/-- The drive becomes busy. -/
def delay : Disk := { d with busy := d.latency d.delays, delays := d.delays + 1 }

/-- The word at byte `pos` of the selected drive. -/
def word (pos : Nat) : U16 :=
  d.contents d.regs.unit (pos + 1) ++ d.contents d.regs.unit pos

/-- Store a byte on the selected drive. -/
def storeByte (pos : Nat) (v : U8) : Disk :=
  { d with contents := fun u b =>
      if u = d.regs.unit ∧ b = pos then v else d.contents u b }

/-- Take up a command. -/
def command (cmd : U8) : Disk :=
  let d := { d with regs := { d.regs with command := cmd } }
  let start := d.regs.sector (d.geometry d.regs.unit)
  if start + d.regs.sectors ≤ d.blocks d.regs.unit then
    if cmd = ataCmdReadPio then
      { d with phase := .reading (512 * start) (256 * d.regs.sectors) }.delay
    else if cmd = ataCmdWritePio then
      { d with phase := .writing (512 * start) (256 * d.regs.sectors) }.delay
    else { d with phase := .failed }
  else { d with phase := .failed }

/-- After a word: go on, be busy before the next sector, or finish. -/
def advance (next : Nat → Nat → Phase) (pos left : Nat) : Disk :=
  if left = 1 then { d with phase := .idle }
  else if (left - 1) % 256 = 0 then { d with phase := next (pos + 2) (left - 1) }.delay
  else { d with phase := next (pos + 2) (left - 1) }

/-- Read the status register. -/
def statusRead : U8 × Disk :=
  if d.busy = 0 then
    match d.phase with
    | .idle => (0x50, d)
    | .failed => (0x51, d)
    | .reading _ _ | .writing _ _ => (0x58, d)
  else (0x80, { d with busy := d.busy - 1 })

/-- Read the data register. -/
def dataRead : U16 × Disk :=
  if d.busy = 0 then
    match d.phase with
    | .reading pos left => (d.word pos, d.advance .reading pos left)
    | _ => (0xFFFF, d)
  else (0xFFFF, d)

/-- Write the data register. -/
def dataWrite (v : U16) : Disk :=
  if d.busy = 0 then
    match d.phase with
    | .writing pos left =>
      ((d.storeByte pos (v.extractLsb' 0 8)).storeByte (pos + 1) (v.extractLsb' 8 8)).advance
        .writing pos left
    | _ => d
  else d

instance : Bus Disk where
  inb port d :=
    if port = ataPort d.base ataStatus then d.statusRead
    else if port = ataPort d.base ataSectorCount then (d.regs.count, d)
    else (0xFF, d)
  inw port d := if port = ataPort d.base ataData then d.dataRead else (0xFFFF, d)
  outb port v d :=
    if port = ataPort d.base ataCommand then d.command v
    else { d with regs := d.regs.latch d.base port v }
  outw port v d := if port = ataPort d.base ataData then d.dataWrite v else d
  ticks d := (0, d)

/-- Two blank drives of geometry `g` that are never busy. -/
def blank (base : U32) (g : Geometry) : Disk where
  base := base
  geometry := fun _ => g
  blocks := fun _ => g.cylinders * g.heads * g.sectors
  contents := fun _ _ => 0
  latency := fun _ => 0
  delays := 0
  busy := 0
  regs := ⟨0, 0, 0, 0, 0, 0⟩
  phase := .idle

end Disk

/-- The driver when `d` is its only channel and `info` the first drive. -/
def AtaState.booted (d : Disk) (info : AtaDrive) : AtaState Disk where
  machine := ⟨⟨d, []⟩, .zeros⟩
  ataDevices := fun i => if i = 0 then ⟨d.base, 14, false⟩ else ⟨0, 0, false⟩
  numDevices := 1
  devAtaDrives := fun k => if k = 0 then info else AtaDrive.empty

end MyBios
