import MyBios.Ata.RoundTrip
import MyBios.Interrupt.Frame

/-!
INT 13h (`bios_handle_disk_interrupt`).

Only `DL = 0x80`, the first entry of `dev_ata_drives`, is served. The frame is
passed by value: the guest's buffer is taken not to overlap it.

* `transfer_reply`: for AH=02 and 03 with `DL = 0x80` the handler makes one call
  of a transfer function and always reports success.
* `status_told_iff`: so carry and AH tell the caller what happened exactly when
  the drive exists, the count is not 0 and the channel has the drive selected;
  for other values of DL, exactly when carry was set on entry.
-/

namespace MyBios

open Prog

variable {δ : Type} [Bus δ]

/-! ### The request in the frame -/

/-- Ten bits: CH, and the two top bits of CL above it. -/
def int13Cylinder (frame : ItrFrameRealMode) : U32 :=
  frame.ch.setWidth 32 ||| ((frame.cl &&& 0xC0).setWidth 32 <<< 2)

def int13Head (frame : ItrFrameRealMode) : U8 := frame.dh

def int13Sector (frame : ItrFrameRealMode) : U8 := frame.cl &&& 0x3F

/-- The buffer `ES:BX`. -/
def int13Buffer (frame : ItrFrameRealMode) : U32 :=
  (frame.es.setWidth 32 <<< 4) + frame.bx.setWidth 32

/-- `(cylinder * (info->heads + 1) + head) * info->sectors + sector - 1`. -/
def int13Lba (info : AtaDrive) (frame : ItrFrameRealMode) : U32 :=
  (int13Cylinder frame * (info.heads.setWidth 32 + 1) + (int13Head frame).setWidth 32) *
    info.sectors.setWidth 32 + (int13Sector frame).setWidth 32 - 1

def AtaDrive.lba28 (info : AtaDrive) : Bool := info.flags &&& ataDriveLba28 ≠ 0

def AtaDrive.slave (info : AtaDrive) : Bool := info.flags &&& ataDriveSlave ≠ 0

/-! ### The replies -/

/-- The geometry, as AH=08 packs it. -/
def parametersReply (info : AtaDrive) (frame : ItrFrameRealMode) : ItrFrameRealMode :=
  let sectorsPerTrack : U8 := info.sectors.setWidth 8
  let heads : U8 := info.heads.setWidth 8
  let cylinders : U32 := info.cylinders.setWidth 32
  ((((frame.setAh 0).setCh ((cylinders &&& 0xFF).setWidth 8)).setCl
    (sectorsPerTrack ||| (((cylinders >>> 8) &&& 0x3) <<< 6).setWidth 8)).setDh heads).setDl 1
      |>.clearCarry

/-- Success, with the number of sectors in AL. -/
def transferReply (frame : ItrFrameRealMode) : ItrFrameRealMode :=
  (frame.clearCarry.setAl frame.al).setAh 0x00

/-! ### The handler -/

/-- `bios_handle_disk_interrupt`. -/
def biosHandleDiskInterrupt (frame : ItrFrameRealMode) :
    Prog (AtaState δ) ItrFrameRealMode :=
  if frame.ah = 0x8 then
    if frame.dl = 0x80 then do
      let info ← gets fun s => s.devAtaDrives 0
      pure (parametersReply info frame)
    else pure (frame.setCarry.setAl 0x01)
  else if frame.ah = 0x2 then
    if frame.dl = 0x80 then do
      let info ← gets fun s => s.devAtaDrives 0
      let _ ← (if info.lba28 then
          ataReadLba info.dev (int13Lba info frame) (frame.al.setWidth 16) (int13Buffer frame)
        else
          ataReadChs info.dev (int13Cylinder frame) (int13Head frame)
            ((int13Sector frame).setWidth 16) (frame.al.setWidth 16) (int13Buffer frame))
      pure (transferReply frame)
    else pure frame
  else if frame.ah = 0x3 then
    if frame.dl = 0x80 then do
      let info ← gets fun s => s.devAtaDrives 0
      let _ ← (if info.lba28 then
          ataWriteLba info.dev (int13Lba info frame) (frame.al.setWidth 16) (int13Buffer frame)
        else
          ataWriteChs info.dev (int13Cylinder frame) (int13Head frame)
            ((int13Sector frame).setWidth 16) (frame.al.setWidth 16) (int13Buffer frame))
      pure (transferReply frame)
    else pure frame
  else if frame.ah = 0x0 then pure (frame.clearCarry.setAl 0x00)
  else pure ((frame.setAl 0x01).setCarry)

/-- AH=02 or AH=03. -/
def IsTransfer (frame : ItrFrameRealMode) : Prop := frame.ah = 0x2 ∨ frame.ah = 0x3

/-- The call that AH=02 and AH=03 make. -/
def int13Transfer (info : AtaDrive) (frame : ItrFrameRealMode) : Transfer where
  write := frame.ah = 0x3
  address :=
    if info.lba28 then .lba (int13Lba info frame)
    else .chs (int13Cylinder frame) (int13Head frame) ((int13Sector frame).setWidth 16)
  count := frame.al.setWidth 16
  buffer := int13Buffer frame

variable {s t : AtaState δ} {frame reply : ItrFrameRealMode}

/-- A request for the drive is one transfer, and its reply reports success. -/
theorem biosHandleDiskInterrupt_transfer (hah : IsTransfer frame) (hdl : frame.dl = 0x80) :
    biosHandleDiskInterrupt (δ := δ) frame = (do
      let info ← gets fun s => s.devAtaDrives 0
      let _ ← (int13Transfer info frame).run info.dev
      pure (transferReply frame)) := by
  rcases hah with hah | hah
  · have hcall : ∀ info : AtaDrive, (int13Transfer info frame).run (δ := δ) info.dev =
        if info.lba28 then
          ataReadLba info.dev (int13Lba info frame) (frame.al.setWidth 16) (int13Buffer frame)
        else
          ataReadChs info.dev (int13Cylinder frame) (int13Head frame)
            ((int13Sector frame).setWidth 16) (frame.al.setWidth 16) (int13Buffer frame) := by
      intro info
      cases hlba : info.lba28 <;> simp [int13Transfer, Transfer.run, hah, hlba]
    simp only [hcall]
    rw [biosHandleDiskInterrupt, if_neg (by rw [hah]; decide), if_pos hah, if_pos hdl]
  · have hcall : ∀ info : AtaDrive, (int13Transfer info frame).run (δ := δ) info.dev =
        if info.lba28 then
          ataWriteLba info.dev (int13Lba info frame) (frame.al.setWidth 16) (int13Buffer frame)
        else
          ataWriteChs info.dev (int13Cylinder frame) (int13Head frame)
            ((int13Sector frame).setWidth 16) (frame.al.setWidth 16) (int13Buffer frame) := by
      intro info
      cases hlba : info.lba28 <;> simp [int13Transfer, Transfer.run, hah, hlba]
    simp only [hcall]
    rw [biosHandleDiskInterrupt, if_neg (by rw [hah]; decide), if_neg (by rw [hah]; decide),
      if_pos hah, if_pos hdl]

theorem transfer_reply (hah : IsTransfer frame) (hdl : frame.dl = 0x80) :
    (biosHandleDiskInterrupt frame).Returns s reply t ↔
      reply = transferReply frame ∧
        ∃ c, ((int13Transfer (s.devAtaDrives 0) frame).run (s.devAtaDrives 0).dev).Returns
          s c t := by
  rw [biosHandleDiskInterrupt_transfer hah hdl]
  simp only [returns_bind, returns_gets, returns_pure]
  constructor
  · rintro ⟨_, s₁, ⟨rfl, hs₁⟩, c, s₂, hrun, hreply, hs₂⟩
    rw [hs₁] at hrun
    rw [hs₂]
    exact ⟨hreply, c, hrun⟩
  · rintro ⟨hreply, c, hrun⟩
    exact ⟨_, s, ⟨rfl, rfl⟩, c, t, hrun, hreply, rfl⟩

/-- For another drive number the handler does nothing. -/
theorem absent_reply (hah : IsTransfer frame) (hdl : frame.dl ≠ 0x80) :
    (biosHandleDiskInterrupt frame).Returns s reply t ↔ reply = frame ∧ t = s := by
  have h8 : frame.ah ≠ 0x8 := by
    rcases hah with h | h <;> rw [h] <;> decide
  unfold biosHandleDiskInterrupt
  rw [if_neg h8]
  rcases hah with h | h
  · rw [if_pos h, if_neg hdl, returns_pure]
  · rw [if_neg (by rw [h]; decide), if_pos h, if_neg hdl, returns_pure]

/-! ### What the caller is told -/

/-- `DL` names an entry of the table with a channel, and a command to move
exactly `AL` sectors was issued to that drive. -/
def Served (s : AtaState δ) (frame : ItrFrameRealMode) (t : AtaState δ) : Prop :=
  ∃ k i : Fin 4, frame.dl.toNat = 0x80 + k ∧ (s.devAtaDrives k).dev = some i ∧
    ∃ task ∈ commandsSince (s.ataDevices i).base s t,
      task.command = (if frame.ah = 0x2 then ataCmdReadPio else ataCmdWritePio) ∧
        task.sectors = frame.al.toNat ∧ task.unit = (s.devAtaDrives k).slave

/-- Carry is clear if the request was served; otherwise it is set and AH says
why. -/
structure StatusTold (s : AtaState δ) (frame : ItrFrameRealMode) (t : AtaState δ)
    (reply : ItrFrameRealMode) : Prop where
  success : reply.carry = false ↔ Served s frame t
  failure : ¬ Served s frame t → reply.ah ≠ 0

/-- The drive/head byte of the request selects the drive that `info` describes:
the channel's selection does, or, with CHS addressing, bit 4 of DH does. -/
def SelectsDrive (s : AtaState δ) (frame : ItrFrameRealMode) (i : Fin 4) (info : AtaDrive) : Prop :=
  ((s.ataDevices i).slaveSelected || (!info.lba28 && frame.dh.getLsbD 4)) = info.slave

/-- The condition of `status_told_iff`. -/
def Tellable (s : AtaState δ) (frame : ItrFrameRealMode) : Prop :=
  if frame.dl = 0x80 then
    frame.al ≠ 0 ∧ ∃ i, (s.devAtaDrives 0).dev = some i ∧
      SelectsDrive s frame i (s.devAtaDrives 0)
  else frame.carry = true

/-- The drive that the command of a request goes to. -/
theorem unit_int13Transfer {info : AtaDrive} {slave : Bool} :
    ((int13Transfer info frame).task slave).unit =
      (slave || (!info.lba28 && frame.dh.getLsbD 4)) := by
  unfold int13Transfer Transfer.task
  cases info.lba28 with
  | true => simp [unit_lbaTaskfile]
  | false => simp [unit_chsTaskfile, int13Head]

/-- A command moves as many sectors as its count says, unless that is 0. -/
theorem sectors_eq_count {task : Taskfile} {n : U8} (h : task.count = n) :
    task.sectors = n.toNat ↔ n ≠ 0 := by
  rw [Taskfile.sectors, h]
  split
  · rename_i hn
    simp [hn]
  · exact iff_of_true rfl ‹_›

theorem served_iff {c : U32} (hah : IsTransfer frame) (hdl : frame.dl = 0x80)
    (h : ((int13Transfer (s.devAtaDrives 0) frame).run (s.devAtaDrives 0).dev).Returns s c t) :
    Served s frame t ↔ frame.al ≠ 0 ∧ ∃ i, (s.devAtaDrives 0).dev = some i ∧
      SelectsDrive s frame i (s.devAtaDrives 0) := by
  have hcommand : (int13Transfer (s.devAtaDrives 0) frame).command =
      if frame.ah = 0x2 then ataCmdReadPio else ataCmdWritePio := by
    rcases hah with hah | hah <;> simp [int13Transfer, Transfer.command, hah]
  have hcount : (int13Transfer (s.devAtaDrives 0) frame).count.setWidth 8 = frame.al := by
    rw [int13Transfer, BitVec.setWidth_setWidth_of_le _ (by omega), BitVec.setWidth_eq]
  constructor
  · rintro ⟨k, i, hk, hdev, task, htask, -, hsectors, hunit⟩
    have hk0 : k = 0 := by
      rw [hdl] at hk
      exact Fin.ext (by simpa using hk.symm)
    subst hk0
    rw [hdev] at h
    have hcommands : commandsSince (s.ataDevices i).base s t = [_] := Transfer.run_command h
    rw [hcommands, List.mem_singleton] at htask
    subst htask
    refine ⟨(sectors_eq_count (count_task.1.trans hcount)).mp hsectors, i, hdev, ?_⟩
    rw [unit_int13Transfer] at hunit
    exact hunit
  · rintro ⟨hal, i, hdev, hunit⟩
    rw [hdev] at h
    have hcommands : commandsSince (s.ataDevices i).base s t = [_] := Transfer.run_command h
    refine ⟨0, i, by rw [hdl]; rfl, hdev, _, ?_, count_task.2.trans hcommand,
      (sectors_eq_count (count_task.1.trans hcount)).mpr hal, unit_int13Transfer.trans hunit⟩
    rw [hcommands]
    exact List.mem_singleton_self _

/-- The caller is told the truth exactly under `Tellable`. -/
theorem status_told_iff (hah : IsTransfer frame)
    (h : (biosHandleDiskInterrupt frame).Returns s reply t) :
    StatusTold s frame t reply ↔ Tellable s frame := by
  unfold Tellable
  split
  · rename_i hdl
    obtain ⟨rfl, c, hrun⟩ := (transfer_reply hah hdl).mp h
    have hcarry : (transferReply frame).carry = false := by simp [transferReply]
    have hahReply : (transferReply frame).ah = 0 := by simp [transferReply]
    rw [← served_iff hah hdl hrun]
    constructor
    · intro told
      exact told.success.mp hcarry
    · intro served
      exact ⟨iff_of_true hcarry served, fun hn => absurd served hn⟩
  · rename_i hdl
    obtain ⟨rfl, rfl⟩ := (absent_reply hah hdl).mp h
    have hnot : ¬ Served t reply t := by
      rintro ⟨k, i, -, -, task, htask, -⟩
      rw [commandsSince, List.drop_length] at htask
      cases htask
    have hne : reply.ah ≠ 0 := by
      rcases hah with h | h <;> rw [h] <;> decide
    constructor
    · intro told
      exact eq_true_of_ne_false fun hcarry => hnot (told.success.mp hcarry)
    · intro hcarry
      exact ⟨iff_of_false (by rw [hcarry]; decide) hnot, fun _ => hne⟩

/-- On the disk, a request in range returns. -/
theorem int13_returns {s : AtaState Disk} (hah : IsTransfer frame) (hdl : frame.dl = 0x80)
    {i : Fin 4} (hdev : (s.devAtaDrives 0).dev = some i)
    (hr : InRange s i ((int13Transfer (s.devAtaDrives 0) frame).task (s.ataDevices i).slaveSelected)
      (frame.al.setWidth 16)) :
    ∃ t, (biosHandleDiskInterrupt frame).Returns s (transferReply frame) t := by
  obtain ⟨c, t, hrun⟩ := Transfer.run_total (r := int13Transfer (s.devAtaDrives 0) frame) hr
  exact ⟨t, (transfer_reply hah hdl).mpr ⟨rfl, c, by rwa [hdev]⟩⟩

/-- A drive of 4 cylinders, 4 heads and 4 sectors, with or without LBA. -/
def smallDrive (lba : Bool) : AtaDrive :=
  { AtaDrive.empty with
    cylinders := 4, heads := 4, sectors := 4, blocks28 := 64
    flags := if lba then ataDriveLba28 else 0, dev := some 0 }

def smallMachine (lba : Bool) : AtaState Disk := .booted (.blank 0x1F0 ⟨4, 4, 4⟩) (smallDrive lba)

/-- Read one sector at cylinder `c`, head 1, sector 1 of the first drive. -/
def readRequest (c : U8) : ItrFrameRealMode :=
  { ItrFrameRealMode.zeros with eax := 0x0201, ecx := setHi8 0x0001 c, edx := 0x0180 }

/-- A read from the drive: the caller is told that it succeeded. -/
theorem status_told_iff_small :
    ∃ t, (biosHandleDiskInterrupt (readRequest 0)).Returns (smallMachine true)
        (transferReply (readRequest 0)) t ∧
      StatusTold (smallMachine true) (readRequest 0) t (transferReply (readRequest 0)) := by
  have hah : IsTransfer (readRequest 0) := .inl (by decide)
  obtain ⟨t, h⟩ := int13_returns (s := smallMachine true) hah (by decide) rfl
    ⟨rfl, by decide, by decide, by decide⟩
  refine ⟨t, h, (status_told_iff hah h).mpr ?_⟩
  rw [Tellable, if_pos (by decide)]
  exact ⟨by decide, 0, rfl, by rw [SelectsDrive]; decide⟩

/-- A read from drive `0x81` with carry clear on entry reports success. -/
theorem status_told_fails :
    ¬ ∀ (s t : AtaState Disk) (frame reply : ItrFrameRealMode), IsTransfer frame →
      (biosHandleDiskInterrupt frame).Returns s reply t → StatusTold s frame t reply := by
  intro h
  have hah : IsTransfer { ItrFrameRealMode.zeros with
      eax := 0x0201, ecx := 0x0001, edx := 0x0081 } := .inl (by decide)
  have run := (absent_reply (s := AtaState.booted (.blank 0x1F0 ⟨4, 4, 4⟩) .empty) hah
    (by decide)).mpr ⟨rfl, rfl⟩
  obtain ⟨k, i, -, -, task, htask, -⟩ := (h _ _ _ _ hah run).success.mp (by decide)
  rw [commandsSince, List.drop_length] at htask
  cases htask

end MyBios
