import MyBios.Ata.Polling
import MyBios.Boot.Drives

/-!
Which drives `hd_init` finds.

`IdeBus` has the two channels of a board behind its ports. A channel has up to two
drives. One that is there is busy for some time after a command, and then answers
`IDENTIFY DEVICE` with 256 words of its own; the status of one that is not there reads
as 0. Without any drive nothing drives the bus, and all ports of the channel read as
`0xFF`.

* `hd_init_finds`: whatever the latencies are and whatever was in the registers, the scan
  ends, counts the drives that are there, and leaves their records in the order of the
  scan, each with the words of its own drive.
-/

namespace MyBios

open Prog Poll AtaState

/-! ### The channels -/

/-- The words of an `IDENTIFY DEVICE` reply. -/
abbrev Identity := { words : List U16 // words.length = 256 }

/-- One channel. `sent` is the number of words that were read of a reply. -/
structure IdeChannel where
  units : Bool → Option Identity
  latency : Nat → Nat
  /-- the number of times a drive became busy -/
  delays : Nat
  /-- the number of status reads for which it stays busy -/
  busy : Nat
  regs : Taskfile
  sent : Option Nat

namespace IdeChannel

variable (ch : IdeChannel)

/-- Some drive is there. -/
def present : Bool := (ch.units false).isSome || (ch.units true).isSome

/-- The drive that the drive/head register selects. -/
def selected : Option Identity := ch.units ch.regs.unit

def statusRead : U8 × IdeChannel :=
  match ch.selected with
  | none => (0, ch)
  | some _ =>
    if ch.busy = 0 then (if ch.sent.isSome then 0x58 else 0x50, ch)
    else (0x80, { ch with busy := ch.busy - 1 })

/-- The next word of a reply. -/
def dataRead : U16 × IdeChannel :=
  match ch.selected, ch.sent with
  | some identity, some n =>
    (identity.val.getD n 0, { ch with sent := if n + 1 = 256 then none else some (n + 1) })
  | _, _ => (0xFFFF, ch)

/-- Take up a command. -/
def command (cmd : U8) : IdeChannel :=
  { ch with
    regs := { ch.regs with command := cmd }
    sent := if cmd = ataCmdIdentify ∧ ch.selected.isSome then some 0 else none
    busy := ch.latency ch.delays
    delays := ch.delays + 1 }

def inb (base : U32) (port : U16) : U8 × IdeChannel :=
  if ¬ ch.present then (0xFF, ch)
  else if port = ataPort base ataStatus then ch.statusRead
  else if port = ataPort base ataSectorCount then (ch.regs.count, ch)
  else (0xFF, ch)

def inw (base : U32) (port : U16) : U16 × IdeChannel :=
  if port = ataPort base ataData then ch.dataRead else (0xFFFF, ch)

def outb (base : U32) (port : U16) (v : U8) : IdeChannel :=
  if port = ataPort base ataCommand then ch.command v
  else { ch with regs := ch.regs.latch base port v }

end IdeChannel

/-- The primary and the secondary channel. -/
structure IdeBus where
  channels : Bool → IdeChannel

def ideBase (secondary : Bool) : U32 := if secondary then 0x170 else 0x1F0

/-- The channel that a port belongs to. -/
def channelOf (port : U16) : Option Bool :=
  if 0x1F0 ≤ port ∧ port < 0x1F8 then some false
  else if 0x170 ≤ port ∧ port < 0x178 then some true
  else none

def IdeBus.put (c : Bool) (ch : IdeChannel) (d : IdeBus) : IdeBus :=
  ⟨Function.update d.channels c ch⟩

instance : Bus IdeBus where
  inb port d :=
    match channelOf port with
    | some c =>
      let r := (d.channels c).inb (ideBase c) port
      (r.1, d.put c r.2)
    | none => (0xFF, d)
  inw port d :=
    match channelOf port with
    | some c =>
      let r := (d.channels c).inw (ideBase c) port
      (r.1, d.put c r.2)
    | none => (0xFFFF, d)
  outb port v d :=
    match channelOf port with
    | some c => d.put c ((d.channels c).outb (ideBase c) port v)
    | none => d
  outw _ _ d := d
  ticks d := (0, d)

/-! ### Accesses to a channel -/

section Access

variable {d : IdeBus} {c : Bool} {ch ch' : IdeChannel} {v : U8}

@[simp] theorem IdeBus.put_channel : (d.put c ch).channels c = ch := Function.update_self _ _ _

theorem IdeBus.put_other {c' : Bool} (h : c' ≠ c) : (d.put c ch).channels c' = d.channels c' :=
  Function.update_of_ne h _ _

@[simp] theorem IdeBus.put_put : (d.put c ch).put c ch' = d.put c ch' :=
  congrArg IdeBus.mk (Function.update_idem _ _ _)

@[simp] theorem IdeBus.put_self : d.put c (d.channels c) = d :=
  congrArg IdeBus.mk (Function.update_eq_self _ _)

section Ports

variable {port : U16}

theorem bus_inb (h : channelOf port = some c) : Bus.inb port d =
    (((d.channels c).inb (ideBase c) port).1, d.put c ((d.channels c).inb (ideBase c) port).2) := by
  simp only [Bus.inb, h]

theorem bus_inw (h : channelOf port = some c) : Bus.inw port d =
    (((d.channels c).inw (ideBase c) port).1, d.put c ((d.channels c).inw (ideBase c) port).2) := by
  simp only [Bus.inw, h]

theorem bus_outb (h : channelOf port = some c) :
    Bus.outb port v d = d.put c ((d.channels c).outb (ideBase c) port v) := by
  simp only [Bus.outb, h]

end Ports

/-- The registers of a channel. -/
theorem channelOf_port (c : Bool) : ∀ reg ∈ ([0, 1, 2, 3, 4, 5, 6, 7] : List U32),
    channelOf (ataPort (ideBase c) reg) = some c := by
  intro reg hreg
  simp only [List.mem_cons, List.not_mem_nil, or_false] at hreg
  rcases hreg with rfl | rfl | rfl | rfl | rfl | rfl | rfl | rfl <;> cases c <;> decide

theorem inb_status (h : (d.channels c).present = true) :
    Bus.inb (statusPort (ideBase c)) d =
      ((d.channels c).statusRead.1, d.put c (d.channels c).statusRead.2) := by
  have hread : (d.channels c).inb (ideBase c) (statusPort (ideBase c)) =
      (d.channels c).statusRead := by
    rw [IdeChannel.inb, if_neg (not_not.mpr h), if_pos (by rfl)]
  have hport : channelOf (statusPort (ideBase c)) = some c :=
    channelOf_port c ataStatus (by decide)
  rw [bus_inb hport, hread]

/-- The sector count register reads back, if a drive is there. -/
theorem inb_sectorCount : Bus.inb (ataPort (ideBase c) ataSectorCount) d =
    (if (d.channels c).present then (d.channels c).regs.count else 0xFF, d) := by
  have hport : ataPort (ideBase c) ataSectorCount ≠ ataPort (ideBase c) ataStatus :=
    fun h => absurd (ataPort_eq_iff.mp h) (by decide)
  have hread : (d.channels c).inb (ideBase c) (ataPort (ideBase c) ataSectorCount) =
      (if (d.channels c).present then (d.channels c).regs.count else 0xFF, d.channels c) := by
    rw [IdeChannel.inb]
    by_cases h : (d.channels c).present = true
    · rw [if_neg (not_not.mpr h), if_neg hport, if_pos rfl, if_pos h]
    · rw [if_pos h, if_neg h]
  rw [bus_inb (channelOf_port c ataSectorCount (by decide)), hread, IdeBus.put_self]

theorem inw_data : Bus.inw (dataPort (ideBase c)) d =
    ((d.channels c).dataRead.1, d.put c (d.channels c).dataRead.2) := by
  have hread : (d.channels c).inw (ideBase c) (dataPort (ideBase c)) = (d.channels c).dataRead :=
    if_pos rfl
  have hport : channelOf (dataPort (ideBase c)) = some c := channelOf_port c ataData (by decide)
  rw [bus_inw hport, hread]

/-! ### What a drive does -/

/-- The status of a drive that is not busy. -/
def IdeChannel.ready (ch : IdeChannel) : U8 := if ch.sent.isSome then 0x58 else 0x50

theorem IdeChannel.notBusy_ready (ch : IdeChannel) : NotBusy ch.ready := by
  unfold IdeChannel.ready
  split <;> decide

theorem IdeChannel.statusRead_ready {ch : IdeChannel} {identity : Identity}
    (hselected : ch.selected = some identity) (hbusy : ch.busy = 0) :
    ch.statusRead = (ch.ready, ch) := by
  rw [IdeChannel.statusRead, hselected]
  exact if_pos hbusy

theorem IdeChannel.statusRead_busy {ch : IdeChannel} {identity : Identity}
    (hselected : ch.selected = some identity) (hbusy : ch.busy ≠ 0) :
    ch.statusRead = (0x80, { ch with busy := ch.busy - 1 }) := by
  rw [IdeChannel.statusRead, hselected]
  exact if_neg hbusy

theorem IdeChannel.statusRead_missing {ch : IdeChannel} (hselected : ch.selected = none) :
    ch.statusRead = (0, ch) := by
  rw [IdeChannel.statusRead, hselected]

/-- Reading the status keeps what is there and the registers, and a busy drive gets on. -/
theorem IdeChannel.statusRead_spec (ch : IdeChannel) :
    ch.statusRead.2.units = ch.units ∧ ch.statusRead.2.regs = ch.regs ∧
      ch.statusRead.2.busy ≤ ch.busy ∧
      (NotBusy ch.statusRead.1 ∨ ch.statusRead.2.busy < ch.busy) := by
  cases hselected : ch.selected with
  | none =>
      rw [statusRead_missing hselected]
      exact ⟨rfl, rfl, Nat.le_refl _, .inl (show NotBusy 0 by decide)⟩
  | some identity =>
      by_cases hbusy : ch.busy = 0
      · rw [statusRead_ready hselected hbusy]
        exact ⟨rfl, rfl, Nat.le_refl _, .inl ch.notBusy_ready⟩
      · rw [statusRead_busy hselected hbusy]
        refine ⟨rfl, rfl, Nat.sub_le _ _, .inr ?_⟩
        show ch.busy - 1 < ch.busy
        omega

/-- A drive that is there gets ready. -/
theorem polled_ready {identity : Identity} (h : (d.channels c).present = true)
    (hselected : (d.channels c).selected = some identity) :
    ∃ vs, Polled (Bus.inb (statusPort (ideBase c))) NotBusy d vs (d.channels c).ready
      (d.put c { d.channels c with busy := 0 }) := by
  induction hn : (d.channels c).busy generalizing d with
  | zero =>
      have hread := inb_status h
      have hidle : { d.channels c with busy := 0 } = d.channels c := by rw [← hn]
      rw [IdeChannel.statusRead_ready hselected hn] at hread
      have hlast : NotBusy (Bus.inb (statusPort (ideBase c)) d).1 := by
        rw [hread]
        exact (d.channels c).notBusy_ready
      have hpolled := Polled.last hlast
      rw [hread] at hpolled
      rw [hidle]
      exact ⟨[], hpolled⟩
  | succ n ih =>
      have hread := inb_status h
      rw [IdeChannel.statusRead_busy hselected (by omega)] at hread
      have hrest := ih (d := d.put c { d.channels c with busy := (d.channels c).busy - 1 })
      simp only [IdeBus.put_channel, IdeBus.put_put] at hrest
      obtain ⟨vs, hpolled⟩ := hrest h hselected (by omega)
      have hagain : ¬ NotBusy (Bus.inb (statusPort (ideBase c)) d).1 := by
        rw [hread]
        show ¬ NotBusy 0x80
        decide
      have hmore : Polled (Bus.inb (statusPort (ideBase c))) NotBusy
          (Bus.inb (statusPort (ideBase c)) d).2 vs (d.channels c).ready
          (d.put c { d.channels c with busy := 0 }) := by
        rw [hread]
        exact hpolled
      exact ⟨_, .more hagain hmore⟩

/-- The words of a reply, one after the other. -/
theorem reply_words {identity : Identity} (hselected : (d.channels c).selected = some identity)
    (hsent : (d.channels c).sent = some 0) {n : Nat} (hn : n ≤ 256) :
    afterWords (dataPort (ideBase c)) n d =
        d.put c { d.channels c with sent := if n = 256 then none else some n } ∧
      wordsFrom (dataPort (ideBase c)) n d = identity.val.take n := by
  induction n with
  | zero =>
      have hnone : { d.channels c with sent := some 0 } = d.channels c := by rw [← hsent]
      rw [if_neg (by decide), hnone, IdeBus.put_self, List.take_zero]
      exact ⟨rfl, rfl⟩
  | succ n ih =>
      obtain ⟨hafter, hwords⟩ := ih (by omega)
      rw [if_neg (by omega)] at hafter
      have hread : (afterWords (dataPort (ideBase c)) n d).channels c =
          { d.channels c with sent := some n } := by rw [hafter, IdeBus.put_channel]
      have hdata : ({ d.channels c with sent := some n } : IdeChannel).dataRead =
          (identity.val.getD n 0,
            { d.channels c with sent := if n + 1 = 256 then none else some (n + 1) }) := by
        unfold IdeChannel.dataRead
        simp only [show ({ d.channels c with sent := some n } : IdeChannel).selected =
          some identity from hselected]
      have hlength := identity.property
      rw [afterWords_succ, wordsFrom, inw_data, hread, hdata, hafter, IdeBus.put_put, hwords]
      refine ⟨rfl, ?_⟩
      rw [List.take_add_one, List.getD_eq_getElem?_getD, List.getElem?_eq_getElem (by omega)]
      rfl

end Access

/-! ### The driver on a channel -/

section Driver

variable {s t u : AtaState IdeBus} {c : Bool} {i k : Fin 4} {slave : Bool}

def AtaState.channel (c : Bool) (s : AtaState IdeBus) : IdeChannel := s.machine.io.dev.channels c

/-- The drives are the same. -/
def SameUnits (s t : AtaState IdeBus) : Prop := ∀ c, (t.channel c).units = (s.channel c).units

/-- `ata_devices[i]` is the channel, on which there is a drive. -/
structure OnChannel (c : Bool) (i : Fin 4) (s : AtaState IdeBus) : Prop where
  base : (s.ataDevices i).base = ideBase c
  present : (s.channel c).present = true

/-- And the driver knows which unit is selected. -/
def KnowsUnit (c : Bool) (i : Fin 4) (s : AtaState IdeBus) : Prop :=
  (s.channel c).regs.unit = (s.ataDevices i).slaveSelected

/-- From `s` to `t` no drive was selected. -/
structure Accessed (c : Bool) (s t : AtaState IdeBus) : Prop where
  units : SameUnits s t
  unit : (t.channel c).regs.unit = (s.channel c).regs.unit
  ataDevices : t.ataDevices = s.ataDevices
  numDevices : t.numDevices = s.numDevices

theorem SameUnits.trans (h : SameUnits s t) (h' : SameUnits t u) : SameUnits s u :=
  fun c => (h' c).trans (h c)

theorem SameUnits.present (h : SameUnits s t) : (t.channel c).present = (s.channel c).present := by
  rw [IdeChannel.present, IdeChannel.present, h c]

theorem Accessed.refl : Accessed c s s := ⟨fun _ => rfl, rfl, rfl, rfl⟩

theorem Accessed.trans (h : Accessed c s t) (h' : Accessed c t u) : Accessed c s u :=
  ⟨h.units.trans h'.units, h'.unit.trans h.unit, h'.ataDevices.trans h.ataDevices,
    h'.numDevices.trans h.numDevices⟩

theorem OnChannel.accessed (h : OnChannel c i s) (ha : Accessed c s t) : OnChannel c i t where
  base := by rw [ha.ataDevices, h.base]
  present := ha.units.present.trans h.present

theorem KnowsUnit.accessed (h : KnowsUnit c i s) (ha : Accessed c s t) : KnowsUnit c i t := by
  rw [KnowsUnit, ha.unit, ha.ataDevices, h]

theorem channel_put {ch : IdeChannel} (hdev : t.machine.io.dev = s.machine.io.dev.put c ch) :
    t.channel c = ch := by
  rw [AtaState.channel, hdev, IdeBus.put_channel]

theorem sameUnits_put {ch : IdeChannel} (hdev : t.machine.io.dev = s.machine.io.dev.put c ch)
    (hunits : ch.units = (s.channel c).units) : SameUnits s t := by
  intro c'
  by_cases hc : c' = c
  · rw [hc, channel_put hdev, hunits]
  · rw [AtaState.channel, hdev, IdeBus.put_other hc]
    rfl

/-- A channel with the same drives and the same unit selected. -/
theorem accessed_put {ch : IdeChannel} (hdev : t.machine.io.dev = s.machine.io.dev.put c ch)
    (hdevices : t.ataDevices = s.ataDevices) (hnum : t.numDevices = s.numDevices)
    (hunits : ch.units = (s.channel c).units)
    (hunit : ch.regs.unit = (s.channel c).regs.unit) : Accessed c s t where
  units := sameUnits_put hdev hunits
  unit := by rw [channel_put hdev, hunit]
  ataDevices := hdevices
  numDevices := hnum

/-- An access does what the devices behind the port do. -/
theorem outb_total (h : (s.ataDevices i).base = ideBase c) {reg : U32} {v : U8} :
    Total (ataOutb (some i) reg v) s fun _ t =>
      t.machine.io.dev = Bus.outb (ataPort (ideBase c) reg) v s.machine.io.dev ∧
        t.ataDevices = s.ataDevices ∧ t.numDevices = s.numDevices := by
  have hbase : (s.device (some i)).base = ideBase c := h
  refine ⟨(), _, returns_ataOutb.mpr rfl, ?_⟩
  rw [hbase]
  exact ⟨rfl, rfl, rfl⟩

theorem inb_total (h : (s.ataDevices i).base = ideBase c) {reg : U32} :
    Total (ataInb (some i) reg) s fun v t =>
      v = (Bus.inb (ataPort (ideBase c) reg) s.machine.io.dev).1 ∧
        t.machine.io.dev = (Bus.inb (ataPort (ideBase c) reg) s.machine.io.dev).2 ∧
          t.ataDevices = s.ataDevices ∧ t.numDevices = s.numDevices := by
  have hbase : (s.device (some i)).base = ideBase c := h
  refine ⟨_, _, returns_ataInb.mpr ⟨rfl, rfl⟩, ?_⟩
  rw [hbase]
  exact ⟨rfl, rfl, rfl, rfl⟩

/-- A write to one of the channel's registers. -/
theorem write_total (h : (s.ataDevices i).base = ideBase c) {reg : U32} {v : U8}
    (hreg : reg ∈ ([0, 1, 2, 3, 4, 5, 6, 7] : List U32)) :
    Total (ataOutb (some i) reg v) s fun _ t =>
      t.machine.io.dev =
          s.machine.io.dev.put c ((s.channel c).outb (ideBase c) (ataPort (ideBase c) reg) v) ∧
        t.ataDevices = s.ataDevices ∧ t.numDevices = s.numDevices := by
  refine (outb_total h).mono ?_
  rintro _ t ⟨hdev, hkept⟩
  rw [bus_outb (channelOf_port c reg hreg)] at hdev
  exact ⟨hdev, hkept⟩

/-- What a write to a register leaves: the others, and what is there. -/
theorem outb_register (h : (s.ataDevices i).base = ideBase c) {reg : U32} {v : U8}
    (hreg : reg ∈ ([ataSectorCount, ataLbaLo, ataLbaMid, ataLbaHi] : List U32)) :
    Total (ataOutb (some i) reg v) s fun _ t => Accessed c s t := by
  have hfacts : reg ∈ ([0, 1, 2, 3, 4, 5, 6, 7] : List U32) ∧
      reg.setWidth 16 ≠ ataCommand.setWidth 16 ∧ reg.setWidth 16 ≠ ataDriveHead.setWidth 16 := by
    simp only [List.mem_cons, List.not_mem_nil, or_false] at hreg
    rcases hreg with rfl | rfl | rfl | rfl <;> decide
  obtain ⟨hmem, hcommand, hhead⟩ := hfacts
  have hunits : ((s.channel c).outb (ideBase c) (ataPort (ideBase c) reg) v).units =
      (s.channel c).units := by
    rw [IdeChannel.outb, if_neg fun e => hcommand (ataPort_eq_iff.mp e)]
  have hunit : ((s.channel c).outb (ideBase c) (ataPort (ideBase c) reg) v).regs.driveHead =
      (s.channel c).regs.driveHead := by
    rw [IdeChannel.outb, if_neg fun e => hcommand (ataPort_eq_iff.mp e), Taskfile.latch,
      if_neg fun e => hhead (ataPort_eq_iff.mp e)]
    split_ifs <;> rfl
  refine (write_total h hmem).mono ?_
  rintro _ t ⟨hdev, hdevices, hnum⟩
  exact accessed_put hdev hdevices hnum hunits (congrArg (fun v => v.getLsbD 4) hunit)

/-- The device control register is not one of the channel's. -/
theorem outb_control (h : (s.ataDevices i).base = ideBase c) {v : U8} :
    Total (ataOutb (some i) 0x206 v) s fun _ t => Accessed c s t := by
  have hport : channelOf (ataPort (ideBase c) 0x206) = none := by
    cases c <;> decide
  have hsame : Bus.outb (ataPort (ideBase c) 0x206) v s.machine.io.dev = s.machine.io.dev := by
    simp only [Bus.outb, hport]
  refine (outb_total h).mono ?_
  rintro _ t ⟨hdev, hdevices, hnum⟩
  rw [hsame, ← IdeBus.put_self (d := s.machine.io.dev) (c := c)] at hdev
  exact accessed_put hdev hdevices hnum rfl rfl

/-- The command is taken up by the drive that is selected, if it is there. -/
theorem outb_identify (h : (s.ataDevices i).base = ideBase c) :
    Total (ataOutb (some i) ataCommand ataCmdIdentify) s fun _ t => Accessed c s t ∧
      ((s.channel c).selected.isSome = true → (t.channel c).sent = some 0) := by
  have houtb : (s.channel c).outb (ideBase c) (ataPort (ideBase c) ataCommand) ataCmdIdentify =
      (s.channel c).command ataCmdIdentify := if_pos rfl
  refine (write_total h (by decide)).mono ?_
  rintro _ t ⟨hdev, hdevices, hnum⟩
  rw [houtb] at hdev
  refine ⟨accessed_put hdev hdevices hnum rfl rfl, ?_⟩
  intro hselected
  rw [channel_put hdev]
  exact if_pos ⟨rfl, hselected⟩

/-- A status read. -/
theorem status_total (h : OnChannel c i s) :
    Total (status (some i)) s fun v t => v = (s.channel c).statusRead.1 ∧ Accessed c s t ∧
      (t.channel c).busy = (s.channel c).statusRead.2.busy := by
  have hread : Bus.inb (ataPort (ideBase c) ataStatus) s.machine.io.dev =
      ((s.channel c).statusRead.1, s.machine.io.dev.put c (s.channel c).statusRead.2) :=
    inb_status h.present
  obtain ⟨hunits, hregs, -, -⟩ := (s.channel c).statusRead_spec
  refine (inb_total h.base).mono ?_
  rintro v t ⟨rfl, hdev, hdevices, hnum⟩
  rw [hread] at hdev ⊢
  refine ⟨rfl, accessed_put hdev hdevices hnum hunits (by rw [hregs]), ?_⟩
  rw [channel_put hdev]

/-- The drive/head register selects a unit. -/
theorem outb_head (slave : Bool) (h : (s.ataDevices i).base = ideBase c) :
    Total (ataOutb (some i) ataDriveHead (0xA0 ||| (if slave then 0x10 else 0))) s fun _ t =>
      SameUnits s t ∧ (t.channel c).regs.unit = slave ∧ t.ataDevices = s.ataDevices := by
  have hport : ataPort (ideBase c) ataDriveHead ≠ ataPort (ideBase c) ataCommand :=
    fun e => absurd (ataPort_eq_iff.mp e) (by decide)
  refine (write_total h (by decide)).mono ?_
  rintro _ t ⟨hdev, hdevices, -⟩
  rw [IdeChannel.outb, if_neg hport, Taskfile.latch, if_pos rfl] at hdev
  refine ⟨sameUnits_put hdev rfl, ?_, hdevices⟩
  rw [channel_put hdev]
  show (0xA0 ||| (if slave then 0x10 else 0) : U8).getLsbD 4 = slave
  cases slave <;> decide

/-- The delay of `ata_drive_select` ends. -/
theorem delay_total (h : OnChannel c i s) :
    Total (loop (fun count => do
      let v ← status (some i)
      if v &&& ataStatusBsy = 0 ∧ count + 1 > 15 then pure (Pass.done ())
      else pure (Pass.again (count + 1))) 0) s fun _ t => Accessed c s t := by
  refine Total.loop (fun count t => (t.channel c).busy + (16 - count))
    (I := fun _ t => Accessed c s t) ?_ .refl
  rintro count t ht
  refine (status_total (h.accessed ht)).bind ?_
  rintro v u ⟨rfl, hu, hbusy⟩
  obtain ⟨-, -, hle, hprogress⟩ := (t.channel c).statusRead_spec
  by_cases hstop : (t.channel c).statusRead.1 &&& ataStatusBsy = 0 ∧ count + 1 > 15
  · rw [if_pos hstop]
    exact total_pure (ht.trans hu)
  · rw [if_neg hstop]
    refine total_pure ⟨ht.trans hu, ?_⟩
    rw [hbusy]
    rcases hprogress with hready | hless
    · -- not busy: the count is what is missing
      have hcount : ¬ count + 1 > 15 := fun hcount => hstop ⟨hready, hcount⟩
      omega
    · omega

/-- A unit is selected, unless the driver takes it for the one that already is. -/
theorem select_total (slave : Bool) (h : OnChannel c i s)
    (hcached : (s.ataDevices i).slaveSelected = slave → (s.channel c).regs.unit = slave) :
    Total (ataDriveSelect (some i) slave) s fun _ t =>
      OnChannel c i t ∧ KnowsUnit c i t ∧ SameUnits s t ∧ (t.channel c).regs.unit = slave := by
  have hget : (gets (AtaState.device (some i))).Returns s (s.ataDevices i) s :=
    returns_gets.mpr ⟨rfl, rfl⟩
  by_cases hslave : (s.ataDevices i).slaveSelected = slave
  · refine ⟨(), s, ?_, h, ?_, fun _ => rfl, hcached hslave⟩
    · rw [ataDriveSelect, hget.bind_iff, if_pos hslave]
      exact returns_pure.mpr ⟨rfl, rfl⟩
    · rw [KnowsUnit, hcached hslave, hslave]
  · obtain ⟨_, t, hhead, hunits, hunit, hdevices⟩ := outb_head slave h.base
    have hchannel : OnChannel c i t :=
      ⟨by rw [hdevices, h.base], hunits.present.trans h.present⟩
    obtain ⟨_, u, hdelay, hu⟩ := delay_total hchannel
    have hset : ((u.setSlaveSelected (some i) slave).ataDevices i) =
        { u.ataDevices i with slaveSelected := slave } := if_pos rfl
    refine ⟨(), u.setSlaveSelected (some i) slave, ?_, ⟨?_, ?_⟩, ?_, hunits.trans hu.units, ?_⟩
    · rw [ataDriveSelect, hget.bind_iff, if_neg hslave, hhead.bind_iff]
      exact hdelay.bind (returns_modify.mpr rfl)
    · rw [hset, ← (hchannel.accessed hu).base]
    · exact (hchannel.accessed hu).present
    · rw [KnowsUnit, hset]
      exact hu.unit.trans hunit
    · exact hu.unit.trans hunit

/-! ### One drive -/

theorem identifyCommand_total (h : OnChannel c i s) (hknows : KnowsUnit c i s) :
    Total (identifyCommand (some i) slave k) s fun _ t =>
      OnChannel c i t ∧ KnowsUnit c i t ∧ SameUnits s t ∧ (t.channel c).regs.unit = slave ∧
        (((s.channel c).units slave).isSome = true → (t.channel c).sent = some 0) := by
  refine Total.modify_bind ?_
  have hset : OnChannel c i (s.setDrive k { s.devAtaDrives k with dev := none }) :=
    ⟨h.base, h.present⟩
  refine (select_total slave hset fun hslave => hknows.trans hslave).bind ?_
  rintro _ t₀ ⟨h₀, hknows₀, hunits, hunit⟩
  refine (outb_control h₀.base).bind ?_
  intro _ t₁ h₁
  refine (outb_register (h₀.accessed h₁).base (by decide)).bind ?_
  intro _ t₂ h₂
  have h02 := h₁.trans h₂
  refine (outb_register (h₀.accessed h02).base (by decide)).bind ?_
  intro _ t₃ h₃
  have h03 := h02.trans h₃
  refine (outb_register (h₀.accessed h03).base (by decide)).bind ?_
  intro _ t₄ h₄
  have h04 := h03.trans h₄
  refine (outb_register (h₀.accessed h04).base (by decide)).bind ?_
  intro _ t₅ h₅
  have h05 := h04.trans h₅
  refine (outb_identify (h₀.accessed h05).base).mono ?_
  rintro _ t ⟨h₆, hsent⟩
  have h06 := h05.trans h₆
  refine ⟨h₀.accessed h06, hknows₀.accessed h06, SameUnits.trans hunits h06.units,
    h06.unit.trans hunit, ?_⟩
  intro hpresent
  refine hsent ?_
  rw [IdeChannel.selected, h05.unit, hunit, h05.units c, hunits c]
  exact hpresent

/-- The devices behind the ports once the words of a reply were read. -/
theorem dev_identified {d : IdeBus} {vs : List U8} :
    (identified s (some i) slave k d vs).machine.io.dev =
      afterWords (dataPort (s.device (some i)).base) 256 d := by
  rw [identified, wordsReadAt]
  generalize 256 = n
  rfl

/-- Without a drive the status is 0, which ends the waiting. -/
theorem identifyReply_missing (h : OnChannel c i s) (hselected : (s.channel c).selected = none) :
    Total (identifyReply (some i) slave k) s fun found t => found = false ∧ Accessed c s t := by
  have hbase : (s.device (some i)).base = ideBase c := h.base
  have hread := inb_status h.present
  rw [← AtaState.channel, IdeChannel.statusRead_missing hselected] at hread
  have hlast : NotBusy (Bus.inb (statusPort (ideBase c)) s.machine.io.dev).1 := by
    rw [hread]
    show NotBusy 0
    decide
  have hpolled := Polled.last hlast
  rw [hread] at hpolled
  refine ⟨false, polledAt s (statusPort (s.device (some i)).base)
    (s.machine.io.dev.put c (s.channel c)) ([] ++ [0]),
    returns_identifyReply.mpr ⟨[], 0, s.machine.io.dev.put c (s.channel c), ?_, ?_⟩, rfl, ?_⟩
  · rw [hbase]
    exact hpolled
  · rw [if_pos rfl]
    exact ⟨rfl, rfl⟩
  · exact accessed_put rfl rfl rfl rfl rfl

/-- A drive that has taken up the command is waited for, and its words fill the record. -/
theorem identifyReply_present (h : OnChannel c i s) {identity : Identity}
    (hselected : (s.channel c).selected = some identity) (hsent : (s.channel c).sent = some 0) :
    Total (identifyReply (some i) slave k) s fun found t => found = true ∧ Accessed c s t ∧
      t.devAtaDrives k = identifyDrive (some i) slave fun j => identity.val.getD j 0 := by
  have hbase : (s.device (some i)).base = ideBase c := h.base
  obtain ⟨vs, hfirst⟩ := polled_ready h.present hselected
  have hready : (s.channel c).ready = 0x58 := by rw [IdeChannel.ready, hsent]; rfl
  rw [← AtaState.channel, hready] at hfirst
  generalize hd : s.machine.io.dev.put c { s.channel c with busy := 0 } = d at hfirst
  have hchannel : d.channels c = { s.channel c with busy := 0 } := by
    rw [← hd, IdeBus.put_channel]
  have hpresent : (d.channels c).present = true := by rw [hchannel]; exact h.present
  have hselected' : (d.channels c).selected = some identity := by rw [hchannel]; exact hselected
  have hsent' : (d.channels c).sent = some 0 := by rw [hchannel]; exact hsent
  -- the second loop ends with its first value
  have hread := inb_status hpresent
  rw [IdeChannel.statusRead_ready hselected' (by rw [hchannel]), IdeBus.put_self] at hread
  have hready' : (d.channels c).ready = 0x58 := by rw [IdeChannel.ready, hsent']; rfl
  rw [hready'] at hread
  have hstop : IdentifyStop (Bus.inb (statusPort (ideBase c)) d).1 := by
    rw [hread]
    show IdentifyStop 0x58
    decide
  have hsecond := Polled.last hstop
  rw [hread] at hsecond
  obtain ⟨hafter, hwords⟩ := reply_words hselected' hsent' (Nat.le_refl 256)
  have hall : identity.val.take 256 = identity.val :=
    List.take_of_length_le (Nat.le_of_eq identity.property)
  refine ⟨true, identified s (some i) slave k d (vs ++ [0x58] ++ ([] ++ [0x58])),
    returns_identifyReply.mpr ⟨vs, 0x58, d, ?_, ?_⟩, rfl, ?_, ?_⟩
  · rw [hbase]
    exact hfirst
  · rw [if_neg (by decide), hbase]
    exact ⟨[], 0x58, d, hsecond, by rw [if_pos (by decide)]; exact ⟨rfl, rfl⟩⟩
  · have hdev : (identified s (some i) slave k d
        (vs ++ [0x58] ++ ([] ++ [0x58]))).machine.io.dev =
          s.machine.io.dev.put c { s.channel c with busy := 0, sent := none } := by
      calc _ = afterWords (dataPort (s.device (some i)).base) 256 d := dev_identified
        _ = afterWords (dataPort (ideBase c)) 256 d := by rw [hbase]
        _ = d.put c { d.channels c with sent := none } := hafter
        _ = _ := by rw [hchannel, ← hd, IdeBus.put_put]
    exact accessed_put hdev rfl rfl rfl rfl
  · rw [← hall, ← hwords, ← hbase]
    exact if_pos rfl

/-- `ata_identify` finds the drive that is there. -/
theorem identify_total (slave : Bool) (k : Fin 4) (h : OnChannel c i s) (hknows : KnowsUnit c i s) :
    Total (ataIdentify (some i) slave k) s fun found t =>
      found = ((s.channel c).units slave).isSome ∧ OnChannel c i t ∧ KnowsUnit c i t ∧
        SameUnits s t ∧ ∀ identity, (s.channel c).units slave = some identity →
          t.devAtaDrives k = identifyDrive (some i) slave fun j => identity.val.getD j 0 := by
  rw [ataIdentify_eq]
  refine (identifyCommand_total h hknows).bind ?_
  rintro _ t ⟨ht, hknowst, hunits, hunit, hsent⟩
  have hselected : (t.channel c).selected = (s.channel c).units slave := by
    rw [IdeChannel.selected, hunit, hunits c]
  cases hthere : (s.channel c).units slave with
  | none =>
      refine (identifyReply_missing ht (hselected.trans hthere)).mono ?_
      rintro found u ⟨rfl, hu⟩
      exact ⟨rfl, ht.accessed hu, hknowst.accessed hu, SameUnits.trans hunits hu.units,
        fun _ hi => nomatch hi⟩
  | some identity =>
      refine (identifyReply_present ht (hselected.trans hthere) (hsent ?_)).mono ?_
      · rw [hthere]
        rfl
      · rintro found u ⟨rfl, hu, hrecord⟩
        refine ⟨rfl, ht.accessed hu, hknowst.accessed hu, SameUnits.trans hunits hu.units, ?_⟩
        rintro _ ⟨⟩
        exact hrecord

/-! ### A channel that is registered -/

theorem detectController_total (h : (s.ataDevices i).base = ideBase c) :
    Total (detectController (some i)) s fun detected t =>
      detected = (s.channel c).present ∧ Accessed c s t := by
  have hcommand : ataPort (ideBase c) ataSectorCount ≠ ataPort (ideBase c) ataCommand :=
    fun e => absurd (ataPort_eq_iff.mp e) (by decide)
  have hhead : ataPort (ideBase c) ataSectorCount ≠ ataPort (ideBase c) ataDriveHead :=
    fun e => absurd (ataPort_eq_iff.mp e) (by decide)
  refine (write_total h (by decide)).bind ?_
  rintro _ u ⟨hdev, hdevices, hnum⟩
  rw [IdeChannel.outb, if_neg hcommand, Taskfile.latch, if_neg hhead, if_pos rfl] at hdev
  refine (inb_total (c := c) (by rw [hdevices, h])).bind ?_
  rintro v t ⟨hv, hdevt, hdevicest, hnumt⟩
  rw [inb_sectorCount, hdev, IdeBus.put_channel] at hv hdevt
  refine total_pure ⟨?_, ?_⟩
  · rw [hv]
    show decide ((if (s.channel c).present then (0xA5 : U8) else 0xFF) = 0xA5) = _
    cases (s.channel c).present <;> decide
  · exact accessed_put hdevt (hdevicest.trans hdevices) (hnumt.trans hnum) rfl rfl

/-- `ata_init` registers a channel on which there is a drive. -/
theorem init_total (irq : U32) (hnum : s.numDevices < 4) :
    Total (ataInit (ideBase c) irq) s fun dev t =>
      SameUnits s t ∧ t.numDevices ≤ s.numDevices + 1 ∧
        if (s.channel c).present then ∃ i, dev = some i ∧ OnChannel c i t ∧ KnowsUnit c i t
        else dev = none := by
  refine Total.gets_bind ?_
  rw [dif_pos hnum]
  refine Total.modify_bind (Total.modify_bind ?_)
  generalize hs₁ : AtaState.setDevice (⟨s.numDevices, hnum⟩ : Fin 4) _ _ = s₁
  have hbase : (s₁.ataDevices ⟨s.numDevices, hnum⟩).base = ideBase c := by
    rw [← hs₁]
    exact congrArg DevAta.base (if_pos rfl)
  have hchannel : ∀ c, s₁.channel c = s.channel c := by
    intro c
    rw [← hs₁]
    rfl
  have hcount : s₁.numDevices = s.numDevices + 1 := by
    rw [← hs₁]
    rfl
  refine (detectController_total hbase).bind ?_
  rintro _ t ⟨rfl, ht⟩
  have hunits : SameUnits s t := fun c => by rw [ht.units c, hchannel c]
  have hpresent : (t.channel c).present = (s₁.channel c).present := ht.units.present
  rw [← hchannel c]
  cases hthere : (s₁.channel c).present with
  | false =>
      refine Total.modify_bind (total_pure ⟨hunits, ?_, rfl⟩)
      show t.numDevices - 1 ≤ s.numDevices + 1
      rw [ht.numDevices, hcount]
      omega
  | true =>
      rw [hthere] at hpresent
      refine Total.modify_bind ?_
      generalize hu : AtaState.setSlaveSelected (some ⟨s.numDevices, hnum⟩) true t = u
      have hselected : (u.ataDevices ⟨s.numDevices, hnum⟩) =
          { t.ataDevices ⟨s.numDevices, hnum⟩ with slaveSelected := true } := by
        rw [← hu]
        exact if_pos rfl
      have hsame : ∀ c, u.channel c = t.channel c := fun c => by rw [← hu]; rfl
      have honu : OnChannel c ⟨s.numDevices, hnum⟩ u := by
        refine ⟨?_, ?_⟩
        · rw [hselected, ← hbase, ← ht.ataDevices]
        · rw [hsame, hpresent]
      -- the new record says slave, so the master is selected for certain
      have hcached : (u.ataDevices ⟨s.numDevices, hnum⟩).slaveSelected = false →
          (u.channel c).regs.unit = false := by
        intro hslave
        rw [hselected] at hslave
        cases hslave
      obtain ⟨_, v, hselect, hchan, hknows, hsameunits, -⟩ := select_total false honu hcached
      have hkept : TablesKept u v := TablesKept.driveSelect _ _ _ hselect .refl
      refine ⟨_, v, hselect.bind (returns_pure.mpr ⟨rfl, rfl⟩), ?_, ?_, ?_⟩
      · intro c'
        rw [hsameunits c', hsame c', hunits c']
      · rw [hkept.numDevices, ← hu]
        show t.numDevices ≤ s.numDevices + 1
        rw [ht.numDevices, hcount]
      · rw [if_pos rfl]
        exact ⟨_, rfl, hchan, hknows⟩

/-! ### The scan -/

/-- The name that the table has for a drive. -/
def atBase (p : Bool × Bool) : U32 × Bool := (ideBase p.1, p.2)

/-- The first records are those of these drives, with the words of each. -/
structure Found (drives : List (Bool × Bool)) (s : AtaState IdeBus) : Prop where
  listed : Listed (drives.map atBase) s
  words : ∀ (k : Fin 4) p, drives[k.val]? = some p → ∃ i identity,
    (s.channel p.1).units p.2 = some identity ∧
      s.devAtaDrives k = identifyDrive (some i) p.2 fun j => identity.val.getD j 0

/-- The drives of a channel. -/
def drivesOn (c : Bool) (s : AtaState IdeBus) : List (Bool × Bool) :=
  [(c, false), (c, true)].filter fun p => ((s.channel p.1).units p.2).isSome

/-- The drives that are there, in the order of the scan. -/
def drivesThere (s : AtaState IdeBus) : List (Bool × Bool) := drivesOn false s ++ drivesOn true s

variable {drives : List (Bool × Bool)}

theorem Found.kept (h : Found drives s) (hunits : SameUnits s t)
    (hnum : s.numDevices ≤ t.numDevices)
    (hbase : ∀ i : Fin 4, i < s.numDevices → (t.ataDevices i).base = (s.ataDevices i).base)
    (hdrives : t.devAtaDrives = s.devAtaDrives) : Found drives t where
  listed := h.listed.kept hnum hbase hdrives
  words := by
    intro k p hp
    obtain ⟨i, identity, hthere, hrecord⟩ := h.words k p hp
    refine ⟨i, identity, ?_, ?_⟩
    · rw [hunits p.1, hthere]
    · rw [hdrives, hrecord]

/-- The records before the one that is replaced. -/
theorem Found.words_replaced (h : Found drives s) (hunits : SameUnits s t) {info : AtaDrive}
    (hrep : Replaced k info s t) (hk : k.val = drives.length) {j : Fin 4} {p : Bool × Bool}
    (hp : drives[j.val]? = some p) : ∃ i identity, (t.channel p.1).units p.2 = some identity ∧
      t.devAtaDrives j = identifyDrive (some i) p.2 fun j => identity.val.getD j 0 := by
  obtain ⟨i, identity, hthere, hrecord⟩ := h.words j p hp
  have hj : j.val < drives.length := (List.getElem?_eq_some_iff.mp hp).1
  have hne : j ≠ k := fun e => by rw [e] at hj; omega
  refine ⟨i, identity, ?_, ?_⟩
  · rw [hunits p.1, hthere]
  · rw [hrep.devAtaDrives, if_neg hne, hrecord]

/-- One drive. -/
theorem scanDrive_total (slave : Bool) (hon : OnChannel c i s) (hknows : KnowsUnit c i s)
    (hfound : Found drives s) (hi : i < s.numDevices) (hlen : drives.length < 4) :
    Total (scanDrive (some i) slave drives.length) s fun r t =>
      r = some (drives ++ if ((s.channel c).units slave).isSome then [(c, slave)] else []).length ∧
        Found (drives ++ if ((s.channel c).units slave).isSome then [(c, slave)] else []) t ∧
        OnChannel c i t ∧ KnowsUnit c i t ∧ SameUnits s t ∧ t.numDevices = s.numDevices := by
  obtain ⟨found, t, hidentify, rfl, hon', hknows', hunits, hrecord⟩ :=
    identify_total slave ⟨drives.length, hlen⟩ hon hknows
  obtain ⟨info, hrep, hinfo⟩ := identify_spec hidentify
  rw [scanDrive, dif_pos hlen]
  refine ⟨_, t, hidentify.bind (returns_pure.mpr ⟨rfl, rfl⟩), ?_, ?_, hon', hknows', hunits,
    hrep.numDevices⟩
  · cases ((s.channel c).units slave).isSome <;> simp
  have hold : ∀ (j : Fin 4) p, drives[j.val]? = some p → ∃ i identity,
      (t.channel p.1).units p.2 = some identity ∧
        t.devAtaDrives j = identifyDrive (some i) p.2 fun j => identity.val.getD j 0 :=
    fun j p => hfound.words_replaced hunits hrep rfl
  have hlength : (drives.map atBase).length = drives.length := List.length_map _
  cases hthere : (s.channel c).units slave with
  | none =>
      rw [hthere] at hinfo
      rw [Option.isSome_none, if_neg Bool.false_ne_true, List.append_nil]
      exact ⟨hfound.listed.none hlength.symm hrep hinfo, hold⟩
  | some identity =>
      rw [hthere] at hinfo
      rw [Option.isSome_some, if_pos rfl]
      refine ⟨?_, ?_⟩
      · rw [List.map_append]
        refine hfound.listed.snoc hlength.symm hrep ⟨⟨i, hinfo.1, ?_, hon'.base⟩, hinfo.2⟩
        rw [hrep.numDevices]
        exact hi
      · intro j p hp
        by_cases hj : j.val < drives.length
        · rw [List.getElem?_append_left hj] at hp
          exact hold j p hp
        · -- the record that was filled last
          have hlast := (List.getElem?_eq_some_iff.mp hp).1
          rw [List.length_append, List.length_singleton] at hlast
          obtain rfl : j = ⟨drives.length, hlen⟩ := Fin.ext (by show j.val = drives.length; omega)
          rw [List.getElem?_concat_length] at hp
          obtain rfl := Option.some.inj hp
          exact ⟨i, identity, (congrFun (hunits c) slave).trans hthere, hrecord identity hthere⟩

/-- What is found on a channel, one unit after the other. -/
theorem drivesOn_eq (c : Bool) (s : AtaState IdeBus) : drivesOn c s =
    (if ((s.channel c).units false).isSome then [(c, false)] else []) ++
      if ((s.channel c).units true).isSome then [(c, true)] else [] := by
  unfold drivesOn
  cases hmaster : ((s.channel c).units false).isSome <;>
    cases hslave : ((s.channel c).units true).isSome <;> simp [hmaster, hslave]

theorem length_drivesOn_le : (drivesOn c s).length ≤ 2 := List.length_filter_le _ _

theorem drivesOn_same (h : SameUnits s t) : drivesOn c t = drivesOn c s := by
  unfold drivesOn
  congr 1
  funext p
  rw [h p.1]

/-- One channel. -/
theorem scanChannel_total (c : Bool) (irq : U32) (hfound : Found drives s)
    (hlen : drives.length ≤ 2) (hnum : s.numDevices < 4) :
    Total (scanChannel (ideBase c) irq drives.length) s fun r t =>
      r = some (drives ++ drivesOn c s).length ∧ Found (drives ++ drivesOn c s) t ∧
        SameUnits s t ∧ t.numDevices ≤ s.numDevices + 1 := by
  obtain ⟨dev, u, hinit, hunits, hone, hcase⟩ := init_total (c := c) irq hnum
  obtain ⟨hmore, hbase, hdrives, hnew⟩ := init_spec hinit
  have hfound₀ : Found drives u := hfound.kept hunits hmore hbase hdrives
  cases hpresent : (s.channel c).present with
  | false =>
      rw [hpresent, if_neg Bool.false_ne_true] at hcase
      subst hcase
      have hnone : drivesOn c s = [] := by
        rw [IdeChannel.present, Bool.or_eq_false_iff] at hpresent
        rw [drivesOn_eq, hpresent.1, hpresent.2]
        rfl
      rw [hnone, List.append_nil]
      exact ⟨_, u, hinit.bind (returns_pure.mpr ⟨rfl, rfl⟩), rfl, hfound₀, hunits, hone⟩
  | true =>
      rw [hpresent, if_pos rfl] at hcase
      obtain ⟨i, rfl, hon, hknows⟩ := hcase
      have hi := (hnew i rfl).1
      obtain ⟨_, v, hmaster, rfl, hfound₁, hon₁, hknows₁, hunits₁, hnum₁⟩ :=
        scanDrive_total false hon hknows hfound₀ hi (by omega)
      rw [hunits c] at hmaster hfound₁
      have hlen₁ : (drives ++ if ((s.channel c).units false).isSome then [(c, false)]
          else []).length < 4 := by
        rw [List.length_append]
        split
        · rw [List.length_singleton]
          omega
        · rw [List.length_nil]
          omega
      obtain ⟨_, w, hslave, rfl, hfound₂, -, -, hunits₂, hnum₂⟩ :=
        scanDrive_total true hon₁ hknows₁ hfound₁ (by rw [hnum₁]; exact hi) hlen₁
      rw [hunits₁ c, hunits c, List.append_assoc, ← drivesOn_eq] at hslave hfound₂
      refine ⟨_, w, hinit.bind (hmaster.bind hslave), rfl, hfound₂,
        (hunits.trans hunits₁).trans hunits₂, ?_⟩
      rw [hnum₂, hnum₁]
      exact hone

/-- The scan ends, and finds the drives that are there. -/
theorem hd_init_finds (hnum : s.numDevices = 0) (hfree : ∀ k, (s.devAtaDrives k).dev = none) :
    Total hdInit s fun r t => r = some (drivesThere s).length ∧ Found (drivesThere s) t ∧
      SameUnits s t := by
  have hempty : Found [] s :=
    ⟨⟨fun _ _ hp => (nomatch hp), fun k _ => hfree k⟩, fun _ _ hp => (nomatch hp)⟩
  obtain ⟨_, u, hprimary, rfl, hfound, hunits, hone⟩ :=
    scanChannel_total false 14 hempty (Nat.zero_le _) (by omega)
  rw [List.nil_append] at hprimary hfound
  obtain ⟨_, t, hsecondary, rfl, hfound', hunits', -⟩ :=
    scanChannel_total true 15 hfound length_drivesOn_le (by omega)
  rw [drivesOn_same hunits] at hsecondary hfound'
  exact ⟨_, t, hprimary.bind hsecondary, rfl, hfound', hunits.trans hunits'⟩

end Driver

/-! ### Two drives on two channels -/

/-- A channel with one drive, which is busy longer each time. -/
def oneDrive (slave : Bool) (word : U16) : IdeChannel where
  units unit := if unit = slave then some ⟨List.replicate 256 word, List.length_replicate⟩ else none
  latency n := n
  delays := 0
  busy := 0
  regs := ⟨0, 0, 0, 0, 0, 0⟩
  sent := none

/-- Only a slave on the primary channel, and only a master on the secondary one. -/
def twoDrives : AtaState IdeBus where
  machine := ⟨⟨⟨fun c => if c then oneDrive false 2 else oneDrive true 1⟩, []⟩, .zeros⟩
  ataDevices := fun _ => ⟨0, 0, false⟩
  numDevices := 0
  devAtaDrives := fun _ => .empty

theorem hd_init_finds_two : Total hdInit twoDrives fun r t =>
    r = some 2 ∧ Found [(false, true), (true, false)] t ∧ SameUnits twoDrives t :=
  hd_init_finds rfl fun _ => rfl

end MyBios
