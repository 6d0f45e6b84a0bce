import MyBios.Ata.RoundTrip
import MyBios.Bios.Disk
import MyBios.Lib.Lts

/-!
The cached drive selection of a channel.

`ata_drive_select` writes the drive/head register only when `slave_selected`
changes, so every other write to that register has to carry the same bit 4. The
calls on a channel are the steps of a transition system; `handle` is what the
latest successful `ata_init` returned, and the later calls are made with it.

* `selection_agrees`: as long as the heads of CHS transfers stay out of bits 4
  and 6, the register agrees with `slave_selected` after every call, and CHS
  transfers run in CHS mode.
* `selection_fails`: the head of a CHS transfer reaches the register unmasked.
-/

namespace MyBios

open Prog Lts AtaState

variable {δ : Type} {base : U32} {i j : Fin 4} {s t : AtaState δ}

/-! ### Agreement -/

/-- Handle `i` is of this channel, and bit 4 of the drive/head register is its
`slave_selected`. -/
structure Agrees (base : U32) (i : Fin 4) (s : AtaState δ) : Prop where
  base_eq : (s.ataDevices i).base = base
  allocated : i < s.numDevices
  selected : ∃ b, driveHeadByte base s.log = some b ∧
    b.getLsbD 4 = (s.ataDevices i).slaveSelected

/-- It depends on the devices, their number and the register. -/
theorem Agrees.congr (h : Agrees base i s) (hdevices : t.ataDevices i = s.ataDevices i)
    (hnum : s.numDevices ≤ t.numDevices)
    (hbyte : driveHeadByte base t.log = driveHeadByte base s.log) : Agrees base i t where
  base_eq := by rw [hdevices]; exact h.base_eq
  allocated := Nat.lt_of_lt_of_le h.allocated hnum
  selected := by rw [hdevices, hbyte]; exact h.selected

theorem Agrees.registersKept (h : Agrees base i s) (hkept : RegistersKept s t) :
    Agrees base i t := by
  obtain ⟨⟨data, hlog, hdata⟩, hdevices, hnum, -⟩ := hkept
  exact h.congr (by rw [hdevices]) (Nat.le_of_eq hnum.symm) (by rw [hlog, driveHeadByte_kept hdata])

/-- A program that only polls and moves data keeps the agreement. -/
theorem agrees_of_kept {α : Type} {p : Prog (AtaState δ) α}
    (h : ∀ s₀, Keeps (RegistersKept s₀) p) : Keeps (Agrees base i) p :=
  fun s a t hr hs => hs.registersKept (h s s a t hr .refl)

variable [Bus δ]

/-- Writing another register keeps it. -/
theorem outb_agrees {reg : U32} {v : U8} (hreg : reg.setWidth 16 ≠ ataDriveHead.setWidth 16) :
    Keeps (Agrees base i) (ataOutb (δ := δ) (some i) reg v) := by
  intro s u t h hs
  rw [returns_ataOutb.mp h]
  refine hs.congr rfl (Nat.le_refl _) ?_
  have hport : ataPort base reg ≠ ataPort base ataDriveHead := fun e => hreg (ataPort_eq_iff.mp e)
  have hbase : (s.device (some i)).base = base := hs.base_eq
  simp [driveHeadByte, lastWrite, writesTo, PortEvent.writtenTo, hbase, hport]

/-- What `ata_drive_select` does when it has to select. -/
theorem driveSelect_spec {slave : Bool} (hbase : (s.ataDevices i).base = base)
    (hne : (s.ataDevices i).slaveSelected ≠ slave)
    (h : (ataDriveSelect (some i) slave).Returns s () t) :
    driveHeadByte base t.log = some (0xA0 ||| (if slave then 0x10 else 0)) ∧
      t.ataDevices = (fun k => if k = i then { s.ataDevices i with slaveSelected := slave }
        else s.ataDevices k) ∧
      t.numDevices = s.numDevices ∧ t.devAtaDrives = s.devAtaDrives := by
  obtain ⟨d, s₁, hget, h⟩ := returns_bind.mp h
  obtain ⟨rfl, hs₁⟩ := returns_gets.mp hget
  rw [hs₁, if_neg (show ¬ (AtaState.device (some i) s).slaveSelected = slave from hne)] at h
  obtain ⟨⟨⟩, s₂, hout, h⟩ := returns_bind.mp h
  obtain ⟨⟨⟩, s₃, hloop, hset⟩ := returns_bind.mp h
  have hkept : RegistersKept s₂ s₃ :=
    (Keeps.loop fun _ => RegistersKept.inb.bind fun _ => keeps_pure.ite keeps_pure) _ _ _ hloop
      .refl
  obtain ⟨⟨data, hlog, hdata⟩, hdevices, hnum, hdrives⟩ := hkept
  rw [returns_ataOutb] at hout
  subst hout
  rw [returns_modify.mp hset]
  refine ⟨?_, ?_, hnum, hdrives⟩
  · show driveHeadByte base s₃.log = _
    have hport : (s.device (some i)).base = base := hbase
    rw [hlog, driveHeadByte_kept hdata]
    simp [driveHeadByte, lastWrite, writesTo, PortEvent.writtenTo, hport]
  · show (fun k => if k = i then { s₃.ataDevices i with slaveSelected := slave }
      else s₃.ataDevices k) = _
    rw [hdevices]
    rfl

/-- The drive/head byte of `ata_drive_select` has bit 4 for the slave. -/
theorem driveSelect_bit {slave : Bool} :
    (0xA0 ||| (if slave then 0x10 else 0) : U8).getLsbD 4 = slave := by
  cases slave <;> rfl

theorem driveSelect_agrees {slave : Bool} :
    Keeps (Agrees base i) (ataDriveSelect (δ := δ) (some i) slave) := by
  intro s u t h hs
  by_cases hcached : (s.ataDevices i).slaveSelected = slave
  · obtain ⟨d, s₁, hget, h⟩ := returns_bind.mp h
    obtain ⟨rfl, hs₁⟩ := returns_gets.mp hget
    rw [hs₁, if_pos (show (AtaState.device (some i) s).slaveSelected = slave from hcached)] at h
    rw [(returns_pure.mp h).2]
    exact hs
  · obtain ⟨hbyte, hdevices, hnum, -⟩ := driveSelect_spec hs.base_eq hcached h
    have hdev : t.ataDevices i = { s.ataDevices i with slaveSelected := slave } := by
      rw [hdevices]; exact if_pos rfl
    exact
      { base_eq := by rw [hdev]; exact hs.base_eq
        allocated := by rw [hnum]; exact hs.allocated
        selected := ⟨_, hbyte, by rw [hdev]; exact driveSelect_bit⟩ }

theorem identify_agrees {slave : Bool} {info : Fin 4} :
    Keeps (Agrees base i) (ataIdentify (δ := δ) (some i) slave info) := by
  have setDrive : ∀ drive : AtaState δ → AtaDrive, Keeps (Agrees base i)
      (modify fun s => s.setDrive info (drive s)) := fun drive =>
    keeps_modify fun s hs => hs.congr rfl (Nat.le_refl _) rfl
  refine (setDrive _).bind fun _ => driveSelect_agrees.bind fun _ => ?_
  -- the six registers that IDENTIFY writes leave the drive/head register alone
  refine (outb_agrees (by decide)).bind fun _ => (outb_agrees (by decide)).bind fun _ => ?_
  refine (outb_agrees (by decide)).bind fun _ => (outb_agrees (by decide)).bind fun _ => ?_
  refine (outb_agrees (by decide)).bind fun _ => (outb_agrees (by decide)).bind fun _ => ?_
  refine (agrees_of_kept fun _ => .wait).bind fun s => keeps_pure.ite ?_
  refine (agrees_of_kept fun _ => .identifyWait).bind fun ready => Keeps.ite ?_ keeps_pure
  exact (agrees_of_kept fun _ => .identifyRead).bind fun words =>
    (setDrive fun _ => _).bind fun _ => keeps_pure

/-! ### Registering a channel -/

/-- `detect_controller` writes the sector count register only. -/
theorem returns_detectController {detected : Bool}
    (h : (detectController (some i)).Returns s detected t) :
    ∃ io, t = s.setPorts io ∧
      driveHeadByte (s.ataDevices i).base io.log = driveHeadByte (s.ataDevices i).base s.log := by
  simp only [detectController, returns_bind, returns_ataOutb, returns_ataInb, returns_pure] at h
  obtain ⟨_, _, rfl, v, _, ⟨hv, rfl⟩, -, rfl⟩ := h
  refine ⟨_, rfl, ?_⟩
  have hport : ataPort (s.ataDevices i).base ataSectorCount ≠
      ataPort (s.ataDevices i).base ataDriveHead :=
    fun e => absurd (ataPort_eq_iff.mp e) (by decide)
  simp [driveHeadByte, lastWrite, writesTo, PortEvent.writtenTo, device, hport]

/-- What `ata_init` does: a controller that is found takes the next element of
`ata_devices` and is selected; otherwise the elements in use stay as they were. -/
theorem init_cases {irq : U32} {dev : DevRef} (h : (ataInit base irq).Returns s dev t) :
    (∃ (i : Fin 4) (u : AtaState δ), dev = some i ∧ u.ataDevices i = ⟨base, irq, true⟩ ∧
      i < u.numDevices ∧ (ataDriveSelect (some i) false).Returns u () t) ∨
    (dev = none ∧ (∀ i : Fin 4, i < s.numDevices → t.ataDevices i = s.ataDevices i) ∧
      t.numDevices = s.numDevices ∧ driveHeadByte base t.log = driveHeadByte base s.log) := by
  obtain ⟨n, s₁, hget, h⟩ := returns_bind.mp h
  obtain ⟨rfl, hs₁⟩ := returns_gets.mp hget
  rw [hs₁] at h
  split at h
  · rename_i hlt
    obtain ⟨⟨⟩, s₂, hcount, h⟩ := returns_bind.mp h
    obtain ⟨⟨⟩, s₃, hset, h⟩ := returns_bind.mp h
    obtain ⟨detected, s₄, hdetect, h⟩ := returns_bind.mp h
    rw [returns_modify] at hcount hset
    obtain ⟨io, hs₄, hbyte⟩ := returns_detectController hdetect
    have hslot : s₃.ataDevices ⟨s.numDevices, hlt⟩ =
        { s.ataDevices ⟨s.numDevices, hlt⟩ with base := base, irq := irq } := by
      rw [hset, hcount]; exact if_pos rfl
    split at h
    · obtain ⟨⟨⟩, u, htrue, h⟩ := returns_bind.mp h
      obtain ⟨⟨⟩, _, hselect, h⟩ := returns_bind.mp h
      obtain ⟨rfl, rfl⟩ := returns_pure.mp h
      rw [returns_modify] at htrue
      refine .inl ⟨_, u, rfl, ?_, ?_, hselect⟩
      · have hu : u.ataDevices ⟨s.numDevices, hlt⟩ =
            { s₃.ataDevices ⟨s.numDevices, hlt⟩ with slaveSelected := true } := by
          rw [htrue, hs₄]; exact if_pos rfl
        rw [hu, hslot]
      · rw [htrue, hs₄]
        show s.numDevices < s₃.numDevices
        rw [hset, hcount]
        exact Nat.lt_succ_self _
    · obtain ⟨⟨⟩, s₅, hback, h⟩ := returns_bind.mp h
      obtain ⟨rfl, rfl⟩ := returns_pure.mp h
      rw [returns_modify] at hback
      refine .inr ⟨rfl, fun i hi => ?_, ?_, ?_⟩
      · rw [hback, hs₄, hset, hcount]
        exact if_neg fun e => absurd (congrArg Fin.val e) (Nat.ne_of_lt hi)
      · rw [hback, hs₄, hset, hcount]
        rfl
      · rw [hslot, hset, hcount] at hbyte
        rw [hback, hs₄]
        exact hbyte
  · obtain ⟨rfl, rfl⟩ := returns_pure.mp h
    exact .inr ⟨rfl, fun _ _ => rfl, rfl, rfl⟩

theorem init_agrees {irq : U32} {dev : DevRef} (h : (ataInit base irq).Returns s dev t) :
    (∀ i, dev = some i → Agrees base i t) ∧
      (dev = none → ∀ i, Agrees base i s → Agrees base i t) := by
  rcases init_cases h with ⟨i, u, rfl, hslot, hlt, hselect⟩ | ⟨rfl, hdevices, hnum, hbyte⟩
  · -- `slave_selected = true` makes `ata_drive_select` write the register
    obtain ⟨hbyte, hdevices, hnum, -⟩ :=
      driveSelect_spec (by rw [hslot]) (by rw [hslot]; exact Bool.noConfusion) hselect
    have hdev : t.ataDevices i = { u.ataDevices i with slaveSelected := false } := by
      rw [hdevices]; exact if_pos rfl
    refine ⟨?_, fun hnone => by cases hnone⟩
    rintro _ ⟨rfl⟩
    exact
      { base_eq := by rw [hdev, hslot]
        allocated := by rw [hnum]; exact hlt
        selected := ⟨_, hbyte, by rw [hdev]; exact driveSelect_bit⟩ }
  · refine ⟨(by intro _ hi; cases hi), ?_⟩
    intro _ i hi
    exact hi.congr (hdevices i hi.allocated) (Nat.le_of_eq hnum.symm) hbyte

/-! ### Transfers -/

def Address.head : Address → Option U8
  | .lba _ => none
  | .chs _ head _ => some head

/-- Bit 4 of a transfer's drive/head byte. -/
theorem unit_task {r : Transfer} {slave : Bool} :
    (r.task slave).unit = (slave || (r.address.head.getD 0).getLsbD 4) := by
  obtain ⟨write, address, count, buffer⟩ := r
  cases address with
  | lba sector => exact unit_lbaTaskfile.trans (by simp [Address.head])
  | chs cylinder head sector => exact unit_chsTaskfile

/-- Where a transfer leaves the register. -/
theorem transfer_byte {r : Transfer} {c : U32} (h : (r.run (some i)).Returns s c t) :
    driveHeadByte (s.ataDevices i).base t.log =
      some (r.task (s.ataDevices i).slaveSelected).driveHead := by
  obtain ⟨data, hlog, hdata, -⟩ := r.run_spec h
  rw [hlog, ← List.append_assoc, driveHeadByte_kept hdata]
  exact driveHeadByte_writes

/-- A head in the field of a drive/head byte: bit 6 is clear, and bit 4 is clear
unless the slave is selected. -/
def HeadInField (slave : Bool) (head : U8) : Prop :=
  head.getLsbD 6 = false ∧ (head.getLsbD 4 = true → slave = true)

theorem transfer_agrees {r : Transfer} {c : U32}
    (hhead : ∀ head, r.address.head = some head → HeadInField (s.ataDevices i).slaveSelected head)
    (h : (r.run (some i)).Returns s c t) (hs : Agrees base i s) : Agrees base i t := by
  have hbyte := transfer_byte h
  obtain ⟨data, -, -, hdevices, hnum, -⟩ := r.run_spec h
  refine ⟨by rw [hdevices]; exact hs.base_eq, by rw [hnum]; exact hs.allocated, ?_⟩
  rw [hs.base_eq] at hbyte
  refine ⟨_, hbyte, unit_task.trans ?_⟩
  rw [hdevices]
  cases hr : r.address.head with
  | none => simp
  | some head =>
      obtain ⟨-, hbit⟩ := hhead head hr
      cases hb : head.getLsbD 4 with
      | false => rw [Option.getD_some, hb, Bool.or_false]
      | true => rw [Option.getD_some, hb, Bool.or_true, hbit hb]

/-! ### Sequences of calls -/

/-- The driver, and the handle that its callers use. -/
structure AtaSystem (δ : Type) where
  state : AtaState δ
  handle : DevRef

inductive Call where
  | init (irq : U32)
  | identify (slave : Bool) (info : Fin 4)
  | driveSelect (slave : Bool)
  | transfer (r : Transfer)
  /-- INT 13h AH=02 or AH=03 -/
  | int13 (frame : ItrFrameRealMode)

/-- The transfer that a call makes. -/
def AtaState.transferOf (s : AtaState δ) : Call → Option Transfer
  | .transfer r => some r
  | .int13 frame => if frame.dl = 0x80 then some (int13Transfer (s.devAtaDrives 0) frame) else none
  | _ => none

/-- A call on the channel at `base`. INT 13h uses the channel of the first drive. -/
inductive CallStep (base : U32) : AtaSystem δ → Call → AtaSystem δ → Prop where
  | init {s t irq dev h} : (ataInit base irq).Returns s dev t →
      CallStep base ⟨s, h⟩ (.init irq) ⟨t, dev.or h⟩
  | identify {s t i slave info ready} : (ataIdentify (some i) slave info).Returns s ready t →
      CallStep base ⟨s, some i⟩ (.identify slave info) ⟨t, some i⟩
  | driveSelect {s t i slave} : (ataDriveSelect (some i) slave).Returns s () t →
      CallStep base ⟨s, some i⟩ (.driveSelect slave) ⟨t, some i⟩
  | transfer {s t i r c} : (Transfer.run r (some i)).Returns s c t →
      CallStep base ⟨s, some i⟩ (.transfer r) ⟨t, some i⟩
  | int13 {s t i frame reply} : IsTransfer frame →
      (frame.dl = 0x80 → (s.devAtaDrives 0).dev = some i) →
      (biosHandleDiskInterrupt frame).Returns s reply t →
      CallStep base ⟨s, some i⟩ (.int13 frame) ⟨t, some i⟩

/-- The condition: the head of a CHS transfer lies in its field. -/
def CallInField (s : AtaSystem δ) (c : Call) : Prop :=
  ∀ r head, s.state.transferOf c = some r → r.address.head = some head →
    HeadInField (s.state.device s.handle).slaveSelected head

/-- After the calls `cs`, the drive/head register selects the drive that the
driver believes is selected, and a last call that was a CHS transfer left it in
CHS mode. -/
structure Selected (base : U32) (cs : List Call) (s : AtaSystem δ) : Prop where
  unit : ∀ i, s.handle = some i → ∃ b, driveHeadByte base s.state.log = some b ∧
    b.getLsbD 4 = (s.state.ataDevices i).slaveSelected
  mode : ∀ c r head b, cs.getLast? = some c → s.state.transferOf c = some r →
    r.address.head = some head → driveHeadByte base s.state.log = some b → b.getLsbD 6 = false

/-- The invariant of a run. -/
def HandleAgrees (base : U32) (s : AtaSystem δ) : Prop :=
  ∀ i, s.handle = some i → Agrees base i s.state

/-- A CHS transfer runs in CHS mode if its head does not set bit 6. -/
theorem transfer_mode {r : Transfer} {c : U32} {head : U8} (hr : r.address.head = some head)
    (hbit : head.getLsbD 6 = false) (h : (r.run (some i)).Returns s c t)
    (hbase : (s.ataDevices i).base = base) :
    ∀ b, driveHeadByte base t.log = some b → b.getLsbD 6 = false := by
  intro b hb
  rw [← hbase, transfer_byte h] at hb
  obtain ⟨rfl⟩ := hb
  obtain ⟨write, address, count, buffer⟩ := r
  cases address with
  | lba sector => cases hr
  | chs cylinder head' sector =>
      obtain ⟨rfl⟩ := hr
      exact lbaMode_chsTaskfile.trans hbit

variable {S T : AtaSystem δ} {c : Call}

/-- What a transfer does to the agreement and to the mode. -/
theorem transfer_call {r : Transfer} {n : U32} (hs : Agrees base i s)
    (hin : ∀ head, r.address.head = some head → HeadInField (s.ataDevices i).slaveSelected head)
    (h : (r.run (some i)).Returns s n t) :
    Agrees base i t ∧ ∀ head b, r.address.head = some head →
      driveHeadByte base t.log = some b → b.getLsbD 6 = false :=
  ⟨transfer_agrees hin h hs, fun head b hr hb => transfer_mode hr (hin head hr).1 h hs.base_eq b hb⟩

/-- One call keeps the invariant, and a CHS transfer runs in CHS mode. -/
theorem callStep_agrees (hin : CallInField S c) (h : CallStep base S c T)
    (hs : HandleAgrees base S) :
    HandleAgrees base T ∧ ∀ r head b, T.state.transferOf c = some r → r.address.head = some head →
      driveHeadByte base T.state.log = some b → b.getLsbD 6 = false := by
  cases h with
  | @init s t irq dev handle h =>
      obtain ⟨hsome, hnone⟩ := init_agrees h
      refine ⟨?_, fun r _ _ hr => nomatch hr⟩
      cases dev with
      | none => exact fun i hi => hnone rfl i (hs i hi)
      | some j => exact hsome
  | identify h =>
      refine ⟨?_, fun r _ _ hr => nomatch hr⟩
      rintro _ ⟨rfl⟩
      exact identify_agrees _ _ _ h (hs _ rfl)
  | driveSelect h =>
      refine ⟨?_, fun r _ _ hr => nomatch hr⟩
      rintro _ ⟨rfl⟩
      exact driveSelect_agrees _ _ _ h (hs _ rfl)
  | @transfer s t i r n h =>
      obtain ⟨hagree, hmode⟩ := transfer_call (hs i rfl) (fun head => hin r head rfl) h
      constructor
      · rintro _ ⟨rfl⟩
        exact hagree
      · rintro _ head b ⟨rfl⟩
        exact hmode head b
  | @int13 s t i frame reply hah hdev h =>
      by_cases hdl : frame.dl = 0x80
      · obtain ⟨-, n, hrun⟩ := (transfer_reply hah hdl).mp h
        have hdrives : t.devAtaDrives = s.devAtaDrives := by
          obtain ⟨_, -, -, -, -, hdrives⟩ := Transfer.run_spec hrun
          exact hdrives
        rw [hdev hdl] at hrun
        obtain ⟨hagree, hmode⟩ :=
          transfer_call (hs i rfl) (fun head => hin _ head (if_pos hdl)) hrun
        constructor
        · rintro _ ⟨rfl⟩
          exact hagree
        · intro r head b hr
          rw [transferOf, if_pos hdl, hdrives] at hr
          obtain ⟨rfl⟩ := hr
          exact hmode head b
      · obtain ⟨-, rfl⟩ := (absent_reply hah hdl).mp h
        refine ⟨hs, ?_⟩
        intro r _ _ hr
        rw [transferOf, if_neg hdl] at hr
        cases hr

/-- As long as the heads of CHS transfers lie in their field, the register and
the cached selection agree after every call. -/
theorem selection_agrees {cs : List Call}
    (run : Run (Guarded CallInField (CallStep base)) ⟨s, none⟩ cs T) : Selected base cs T := by
  have hinv : HandleAgrees base T ∧ ∀ c r head b, cs.getLast? = some c →
      T.state.transferOf c = some r → r.address.head = some head →
      driveHeadByte base T.state.log = some b → b.getLsbD 6 = false := by
    refine run.invariant (I := fun cs S => HandleAgrees base S ∧ ∀ c r head b,
      cs.getLast? = some c → S.state.transferOf c = some r → r.address.head = some head →
      driveHeadByte base S.state.log = some b → b.getLsbD 6 = false) ⟨?_, ?_⟩ ?_
    · intro i hi
      cases hi
    · intro c r head b hc
      cases hc
    · rintro cs S c T ⟨hs, -⟩ ⟨hin, hstep⟩
      obtain ⟨hagree, hmode⟩ := callStep_agrees hin hstep hs
      refine ⟨hagree, ?_⟩
      intro c' r head b hlast
      rw [List.getLast?_concat] at hlast
      obtain ⟨rfl⟩ := hlast
      exact hmode r head b
  exact ⟨fun i hi => (hinv.1 i hi).selected, hinv.2⟩

/-! ### Runs on a disk -/

/-- Before the first `ata_init`: two small drives on one channel. -/
def AtaState.fresh : AtaState Disk :=
  { AtaState.booted (.blank 0x1F0 ⟨4, 4, 4⟩) .empty with numDevices := 0 }

/-- Read one sector at cylinder 0, sector 1. -/
def readSector (head : U8) : Transfer := ⟨false, .chs 0 head 1, 1, 0x10000⟩

/-- The controller is found, and the drives are as they were. -/
theorem fresh_init :
    ∃ t, (ataInit 0x1F0 14).Returns AtaState.fresh (some 0) t ∧
      t.ataDevices 0 = ⟨0x1F0, 14, false⟩ ∧ t.disk.base = 0x1F0 ∧
      t.disk.geometry = (fun _ => ⟨4, 4, 4⟩) ∧ t.disk.blocks = fun _ => 64 :=
  ⟨_, ⟨20, rfl⟩, rfl, rfl, rfl, rfl⟩

/-- With `head` in the low 4 bits, the read that follows returns. -/
theorem fresh_read (head : U8) (hhead : head = 0 ∨ head = 0x10) :
    ∃ s n t, (ataInit 0x1F0 14).Returns AtaState.fresh (some 0) s ∧
      s.ataDevices 0 = ⟨0x1F0, 14, false⟩ ∧ ((readSector head).run (some 0)).Returns s n t := by
  obtain ⟨s, hinit, hdev, hbase, hgeometry, hblocks⟩ := fresh_init
  have hfits : ((readSector head).task false).sectors = 1 ∧
      ((readSector head).task false).sector ⟨4, 4, 4⟩ + 1 ≤ 64 := by
    rcases hhead with rfl | rfl <;> decide
  obtain ⟨n, t, hread⟩ := Transfer.run_total (s := s) (i := 0) (r := readSector head)
    { attached := by rw [hbase, hdev]
      count_pos := Nat.one_pos
      sectors := by rw [hdev]; exact hfits.1
      fits := by rw [hdev, hgeometry, hblocks]; exact hfits.2 }
  exact ⟨s, n, t, hinit, hdev, hread⟩

/-- A read of head 0 right after `ata_init`. -/
theorem selection_agrees_one :
    ∃ T : AtaSystem Disk, Run (Guarded CallInField (CallStep 0x1F0)) ⟨AtaState.fresh, none⟩
        [.init 14, .transfer (readSector 0)] T ∧
      Selected 0x1F0 [.init 14, .transfer (readSector 0)] T := by
  obtain ⟨s, n, t, hinit, -, hread⟩ := fresh_read 0 (.inl rfl)
  have init : Guarded CallInField (CallStep 0x1F0) ⟨AtaState.fresh, none⟩ (.init 14)
      ⟨s, some 0⟩ := ⟨(fun _ _ h => nomatch h), .init hinit⟩
  have read : Guarded CallInField (CallStep 0x1F0) ⟨s, some 0⟩ (.transfer (readSector 0))
      ⟨t, some 0⟩ := by
    refine ⟨?_, .transfer hread⟩
    rintro r head ⟨rfl⟩ ⟨rfl⟩
    exact ⟨rfl, (nomatch ·)⟩
  exact ⟨_, (Run.nil.snoc init).snoc read, selection_agrees ((Run.nil.snoc init).snoc read)⟩

/-- A read of head 16 sets bit 4 of the register, and goes to the slave. -/
theorem selection_fails :
    ¬ ∀ (s : AtaState Disk) (cs : List Call) (T : AtaSystem Disk),
      Run (CallStep 0x1F0) ⟨s, none⟩ cs T → Selected 0x1F0 cs T := by
  intro h
  obtain ⟨s, n, t, hinit, hdev, hread⟩ := fresh_read 0x10 (.inr rfl)
  have init : CallStep 0x1F0 ⟨AtaState.fresh, none⟩ (.init 14) ⟨s, some 0⟩ := .init hinit
  obtain ⟨b, hb, hbit⟩ := (h _ _ _ ((Run.nil.snoc init).snoc (.transfer hread))).unit 0 rfl
  have hbyte := transfer_byte hread
  obtain ⟨_, -, -, hdevices, -⟩ := Transfer.run_spec hread
  rw [hdev] at hbyte
  obtain ⟨rfl⟩ := hb.symm.trans hbyte
  rw [hdevices, hdev] at hbit
  exact absurd hbit (by decide)

end MyBios
