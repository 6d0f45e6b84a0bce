import MyBios.Ata.Driver

/-!
What the ATA driver leaves on the bus.

A command is the values of the taskfile registers at a write to the command
register; `commands` reads them off a port log. After `issue` the driver only
polls and moves data, which writes no register.

* `commands_writes`: the writes of `issue` are one command, the taskfile.
* `Transfer.run_spec`: each of the four transfer functions issues its taskfile,
  then writes no register, and changes none of the driver's statics.
-/

namespace MyBios

open Prog

/-! ### Ports -/

/-- Different registers below 2^16 have different ports, whatever the base. -/
theorem ataPort_eq_iff {base r r' : U32} :
    ataPort base r = ataPort base r' ↔ r.setWidth 16 = r'.setWidth 16 := by
  rw [ataPort, ataPort, BitVec.setWidth_add _ _ (by omega), BitVec.setWidth_add _ _ (by omega)]
  exact BitVec.add_right_inj _

namespace AtaState

variable {δ : Type} {s : AtaState δ} {io : Ports δ} {dev : DevRef}

def setPorts (io : Ports δ) (s : AtaState δ) : AtaState δ :=
  { s with machine := { s.machine with io := io } }

@[simp] theorem log_setPorts : (s.setPorts io).log = io.log := rfl
@[simp] theorem io_setPorts : (s.setPorts io).machine.io = io := rfl

@[simp] theorem device_setPorts : (s.setPorts io).device dev = s.device dev := by
  cases dev <;> rfl

end AtaState

open AtaState

variable {δ : Type} {s t : AtaState δ} {dev : DevRef} {reg : U32}

/-! ### What polling and moving data leave alone -/

/-- The access stores no byte in a register. -/
def PortEvent.keepsRegisters : PortEvent → Bool
  | .outb _ _ => false
  | _ => true

/-- Since `s₀` no register was written and the driver's statics are the same. -/
structure RegistersKept (s₀ s : AtaState δ) : Prop where
  log : ∃ data, s.log = s₀.log ++ data ∧ ∀ e ∈ data, e.keepsRegisters = true
  ataDevices : s.ataDevices = s₀.ataDevices
  numDevices : s.numDevices = s₀.numDevices
  devAtaDrives : s.devAtaDrives = s₀.devAtaDrives

namespace RegistersKept

variable {s₀ : AtaState δ}

theorem refl : RegistersKept s₀ s₀ := ⟨⟨[], by simp⟩, rfl, rfl, rfl⟩

theorem snoc {io : Ports δ} {e : PortEvent} (h : RegistersKept s₀ s)
    (hlog : io.log = s.log ++ [e]) (he : e.keepsRegisters = true) :
    RegistersKept s₀ (s.setPorts io) := by
  obtain ⟨⟨data, hdata, hkept⟩, hdevices, hnum, hdrives⟩ := h
  refine ⟨⟨data ++ [e], ?_, ?_⟩, hdevices, hnum, hdrives⟩
  · rw [log_setPorts, hlog, hdata, List.append_assoc]
  · intro e' he'
    rcases List.mem_append.mp he' with he' | he'
    · exact hkept e' he'
    · rwa [List.mem_singleton.mp he']

theorem gets {α : Type} {f : AtaState δ → α} : Keeps (RegistersKept s₀) (Prog.gets f) :=
  fun s a t h hs => by rwa [(returns_gets.mp h).2]

theorem storeByte {addr : Nat} {v : U8} :
    Keeps (RegistersKept s₀) (onMachine (MyBios.storeByte addr v)) := fun s u t h hs => by
  obtain ⟨m, hm, rfl⟩ := returns_zoom.mp h
  rw [returns_storeByte.mp hm]
  exact ⟨hs.log, hs.ataDevices, hs.numDevices, hs.devAtaDrives⟩

end RegistersKept

/-! ### Register accesses -/

variable [Bus δ]

omit [Bus δ] in
/-- An access to a register of the device goes to the ports, and leaves the rest. -/
theorem returns_access {α : Type} {p : DevAta → Io δ α} {a : α} :
    (gets (AtaState.device dev) >>= fun d => onMachine (onPorts (p d))).Returns s a t ↔
      ∃ io, (p (s.device dev)).Returns s.machine.io a io ∧ t = s.setPorts io := by
  simp only [onMachine, returns_bind, returns_gets, returns_zoom, returns_onPorts]
  constructor
  · rintro ⟨d, s', ⟨rfl, rfl⟩, m, ⟨io, haccess, rfl⟩, rfl⟩
    exact ⟨io, haccess, rfl⟩
  · rintro ⟨io, haccess, rfl⟩
    exact ⟨_, s, ⟨rfl, rfl⟩, _, ⟨io, haccess, rfl⟩, rfl⟩

@[simp] theorem returns_ataOutb {v : U8} {u : Unit} :
    (ataOutb dev reg v).Returns s u t ↔
      t = s.setPorts ⟨Bus.outb (ataPort (s.device dev).base reg) v s.machine.io.dev,
        s.log ++ [.outb (ataPort (s.device dev).base reg) v]⟩ := by
  rw [ataOutb, returns_access]
  simp only [returns_outb, exists_eq_left]
  rfl

@[simp] theorem returns_ataInb {v : U8} :
    (ataInb dev reg).Returns s v t ↔
      (Bus.inb (ataPort (s.device dev).base reg) s.machine.io.dev).1 = v ∧
      t = s.setPorts ⟨(Bus.inb (ataPort (s.device dev).base reg) s.machine.io.dev).2,
        s.log ++ [.inb (ataPort (s.device dev).base reg) v]⟩ := by
  rw [ataInb, returns_access]
  simp only [returns_inb, and_assoc, exists_and_left, exists_eq_left]
  rfl

@[simp] theorem returns_ataInw {v : U16} :
    (ataInw dev reg).Returns s v t ↔
      (Bus.inw (ataPort (s.device dev).base reg) s.machine.io.dev).1 = v ∧
      t = s.setPorts ⟨(Bus.inw (ataPort (s.device dev).base reg) s.machine.io.dev).2,
        s.log ++ [.inw (ataPort (s.device dev).base reg) v]⟩ := by
  rw [ataInw, returns_access]
  simp only [returns_inw, and_assoc, exists_and_left, exists_eq_left]
  rfl

@[simp] theorem returns_ataOutw {v : U16} {u : Unit} :
    (ataOutw dev reg v).Returns s u t ↔
      t = s.setPorts ⟨Bus.outw (ataPort (s.device dev).base reg) v s.machine.io.dev,
        s.log ++ [.outw (ataPort (s.device dev).base reg) v]⟩ := by
  rw [ataOutw, returns_access]
  simp only [returns_outw, exists_eq_left]
  rfl

/-! ### Polling and moving data -/

namespace RegistersKept

variable {s₀ : AtaState δ}

theorem inb : Keeps (RegistersKept s₀) (ataInb dev reg) := fun s v t h hs => by
  rw [(returns_ataInb.mp h).2]
  exact hs.snoc rfl rfl

theorem inw : Keeps (RegistersKept s₀) (ataInw dev reg) := fun s v t h hs => by
  rw [(returns_ataInw.mp h).2]
  exact hs.snoc rfl rfl

theorem outw {v : U16} : Keeps (RegistersKept s₀) (ataOutw dev reg v) := fun s u t h hs => by
  rw [returns_ataOutw.mp h]
  exact hs.snoc rfl rfl

theorem wait : Keeps (RegistersKept s₀) (ataWait dev) :=
  Keeps.loop fun _ => inb.bind fun _ => keeps_pure.ite (keeps_pure.ite keeps_pure)

theorem readWord {buffer : U32} {c : Nat} :
    Keeps (RegistersKept s₀) (readWord dev buffer c) :=
  inw.bind fun _ => storeByte.bind fun _ => storeByte.bind fun _ => keeps_pure

theorem writeWord {buffer : U32} {c : Nat} :
    Keeps (RegistersKept s₀) (writeWord dev buffer c) :=
  gets.bind fun _ => gets.bind fun _ => outw.bind fun _ => keeps_pure

theorem transferPass {count : U16} {word : Nat → Prog (AtaState δ) Nat}
    (hword : ∀ c, Keeps (RegistersKept s₀) (word c)) (c : Nat) :
    Keeps (RegistersKept s₀) (transferPass dev count word c) :=
  (wait.bind fun _ => (Keeps.repeatN hword).bind fun _ => keeps_pure).ite keeps_pure

theorem transferLoop {count : U16} {word : Nat → Prog (AtaState δ) Nat}
    (hword : ∀ c, Keeps (RegistersKept s₀) (word c)) :
    Keeps (RegistersKept s₀) (transferLoop dev count word) :=
  (Keeps.loop (transferPass hword)).bind fun _ => keeps_pure

theorem identifyWait : Keeps (RegistersKept s₀) (identifyWait dev) :=
  Keeps.loop fun _ => inb.bind fun _ =>
    keeps_pure.ite (keeps_pure.ite (keeps_pure.ite keeps_pure))

theorem identifyRead : Keeps (RegistersKept s₀) (identifyRead dev) :=
  Keeps.repeatN fun _ => inw.bind fun _ => keeps_pure

end RegistersKept

/-! ### Commands -/

namespace Taskfile

/-- The port writes of `issue`. -/
def writes (base : U32) (task : Taskfile) : List PortEvent :=
  [.outb (ataPort base ataDriveHead) task.driveHead, .outb (ataPort base ataError) 0,
    .outb (ataPort base ataSectorCount) task.count, .outb (ataPort base ataLbaLo) task.lo,
    .outb (ataPort base ataLbaMid) task.mid, .outb (ataPort base ataLbaHi) task.hi,
    .outb (ataPort base ataCommand) task.command]

/-- The registers after a write that is no command. -/
def latch (base : U32) (port : U16) (v : U8) (task : Taskfile) : Taskfile :=
  if port = ataPort base ataDriveHead then { task with driveHead := v }
  else if port = ataPort base ataSectorCount then { task with count := v }
  else if port = ataPort base ataLbaLo then { task with lo := v }
  else if port = ataPort base ataLbaMid then { task with mid := v }
  else if port = ataPort base ataLbaHi then { task with hi := v }
  else task

end Taskfile

/-- The commands issued on a channel: the registers at each command write. -/
def commandsFrom (base : U32) (task : Taskfile) : List PortEvent → List Taskfile
  | [] => []
  | .outb port v :: es =>
    if port = ataPort base ataCommand then
      { task with command := v } :: commandsFrom base { task with command := v } es
    else commandsFrom base (task.latch base port v) es
  | _ :: es => commandsFrom base task es

def commands (base : U32) (log : List PortEvent) : List Taskfile :=
  commandsFrom base ⟨0, 0, 0, 0, 0, 0⟩ log

/-- The commands issued on the channel at `base` between two states. -/
def commandsSince (base : U32) (s t : AtaState δ) : List Taskfile :=
  commands base (t.log.drop s.log.length)

theorem commandsFrom_kept {base : U32} {task : Taskfile} :
    ∀ {data : List PortEvent}, (∀ e ∈ data, e.keepsRegisters = true) →
      commandsFrom base task data = []
  | [], _ => rfl
  | e :: data, h => by
      have hrest : commandsFrom base task data = [] :=
        commandsFrom_kept fun e he => h e (List.mem_cons_of_mem _ he)
      cases e with
      | outb port v =>
          exact absurd (h _ (List.mem_cons_self ..)) (by simp [PortEvent.keepsRegisters])
      | _ => exact hrest

/-- What `issue` writes is one command, whatever the registers held. -/
theorem commands_writes {base : U32} {task : Taskfile} {data : List PortEvent}
    (h : ∀ e ∈ data, e.keepsRegisters = true) :
    commands base (task.writes base ++ data) = [task] := by
  simp [commands, Taskfile.writes, commandsFrom, Taskfile.latch, ataPort_eq_iff, ataDriveHead,
    ataError, ataSectorCount, ataLbaLo, ataLbaMid, ataLbaHi, ataCommand, commandsFrom_kept h]

/-- The byte in the drive/head register of a channel. -/
def driveHeadByte (base : U32) (log : List PortEvent) : Option U8 :=
  lastWrite (ataPort base ataDriveHead) log

theorem writesTo_kept {port : U16} {data : List PortEvent}
    (h : ∀ e ∈ data, e.keepsRegisters = true) : writesTo port data = [] := by
  rw [writesTo, List.filterMap_eq_nil_iff]
  intro e he
  have hkept := h e he
  cases e with
  | outb p v => simp [PortEvent.keepsRegisters] at hkept
  | _ => rfl

theorem driveHeadByte_kept {base : U32} {log data : List PortEvent}
    (h : ∀ e ∈ data, e.keepsRegisters = true) :
    driveHeadByte base (log ++ data) = driveHeadByte base log := by
  rw [driveHeadByte, lastWrite, writesTo_append, writesTo_kept h, List.append_nil]
  rfl

theorem driveHeadByte_writes {base : U32} {log : List PortEvent} {task : Taskfile} :
    driveHeadByte base (log ++ task.writes base) = some task.driveHead := by
  simp [driveHeadByte, lastWrite, writesTo, Taskfile.writes, PortEvent.writtenTo, ataPort_eq_iff,
    ataDriveHead, ataError, ataSectorCount, ataLbaLo, ataLbaMid, ataLbaHi, ataCommand]

/-! ### Transfers -/

/-- The drive after the register writes of a command. -/
def Taskfile.issued (base : U32) (task : Taskfile) (d : δ) : δ :=
  let d := Bus.outb (ataPort base ataDriveHead) task.driveHead d
  let d := Bus.outb (ataPort base ataError) 0 d
  let d := Bus.outb (ataPort base ataSectorCount) task.count d
  let d := Bus.outb (ataPort base ataLbaLo) task.lo d
  let d := Bus.outb (ataPort base ataLbaMid) task.mid d
  let d := Bus.outb (ataPort base ataLbaHi) task.hi d
  Bus.outb (ataPort base ataCommand) task.command d

/-- `issue` writes the taskfile, and that is all. -/
theorem returns_issue {task : Taskfile} {u : Unit} :
    (issue dev task).Returns s u t ↔
      t = s.setPorts ⟨task.issued (s.device dev).base s.machine.io.dev,
        s.log ++ task.writes (s.device dev).base⟩ := by
  simp only [issue, returns_bind, returns_ataOutb, exists_eq_left, exists_const, device_setPorts,
    io_setPorts, log_setPorts, Taskfile.writes, Taskfile.issued, List.append_assoc,
    List.cons_append, List.nil_append]
  rfl

/-- A transfer issues its taskfile and then writes no register. -/
theorem transfer_spec {count : U16} {task : Bool → Taskfile}
    {word : Nat → Prog (AtaState δ) Nat} {c : U32}
    (hword : ∀ s₀ c, Keeps (RegistersKept s₀) (word c))
    (h : (transfer dev count task word).Returns s c t) :
    ∃ data, t.log = s.log ++ ((task (s.device dev).slaveSelected).writes (s.device dev).base ++
        data) ∧ (∀ e ∈ data, e.keepsRegisters = true) ∧ t.ataDevices = s.ataDevices ∧
      t.numDevices = s.numDevices ∧ t.devAtaDrives = s.devAtaDrives := by
  obtain ⟨_, s₁, hget, h⟩ := returns_bind.mp h
  obtain ⟨rfl, rfl⟩ := returns_gets.mp hget
  obtain ⟨⟨⟩, s₂, hissue, hloop⟩ := returns_bind.mp h
  obtain rfl := returns_issue.mp hissue
  obtain ⟨⟨data, hdata, hkept⟩, hdevices, hnum, hdrives⟩ :=
    RegistersKept.transferLoop (hword _) _ _ _ hloop .refl
  refine ⟨data, ?_, hkept, hdevices, hnum, hdrives⟩
  rw [hdata, log_setPorts, List.append_assoc]

/-- Where a transfer starts. -/
inductive Address where
  | lba (sector : U32)
  | chs (cylinder : U32) (head : U8) (sector : U16)

/-- A call of one of the four transfer functions. -/
structure Transfer where
  write : Bool
  address : Address
  count : U16
  buffer : U32

namespace Transfer

def run (r : Transfer) (dev : DevRef) : Prog (AtaState δ) U32 :=
  match r.address, r.write with
  | .lba sector, false => ataReadLba dev sector r.count r.buffer
  | .lba sector, true => ataWriteLba dev sector r.count r.buffer
  | .chs cylinder head sector, false => ataReadChs dev cylinder head sector r.count r.buffer
  | .chs cylinder head sector, true => ataWriteChs dev cylinder head sector r.count r.buffer

def command (r : Transfer) : U8 := if r.write then ataCmdWritePio else ataCmdReadPio

def task (r : Transfer) (slaveSelected : Bool) : Taskfile :=
  match r.address with
  | .lba sector => lbaTaskfile slaveSelected sector r.count r.command
  | .chs cylinder head sector => chsTaskfile slaveSelected cylinder head sector r.count r.command

/-- The four functions are one transfer each. -/
theorem run_eq (r : Transfer) (dev : DevRef) :
    r.run (δ := δ) dev = transfer dev r.count r.task
      (if r.write then writeWord dev r.buffer else readWord dev r.buffer) := by
  obtain ⟨write, address, count, buffer⟩ := r
  cases address with
  | lba sector => cases write <;> rfl
  | chs cylinder head sector => cases write <;> rfl

/-- `transfer_spec` for the four functions. -/
theorem run_spec {r : Transfer} {c : U32} (h : (r.run dev).Returns s c t) :
    ∃ data, t.log = s.log ++ ((r.task (s.device dev).slaveSelected).writes (s.device dev).base ++
        data) ∧ (∀ e ∈ data, e.keepsRegisters = true) ∧ t.ataDevices = s.ataDevices ∧
      t.numDevices = s.numDevices ∧ t.devAtaDrives = s.devAtaDrives := by
  rw [run_eq] at h
  refine transfer_spec (fun _ _ => ?_) h
  split
  · exact .writeWord
  · exact .readWord

/-- The one command of a transfer. -/
theorem run_command {r : Transfer} {c : U32} (h : (r.run dev).Returns s c t) :
    commandsSince (s.device dev).base s t = [r.task (s.device dev).slaveSelected] := by
  obtain ⟨data, hlog, hkept, -⟩ := r.run_spec h
  rw [commandsSince, hlog, List.drop_left]
  exact commands_writes hkept

end Transfer

end MyBios
