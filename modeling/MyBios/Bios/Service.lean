import MyBios.Bios.Addressing
import MyBios.Lib.Refinement

/-!
INT 13h as a disk.

Its callers see memory and the bytes of one drive. `Store` has these two, and
`Store.answer` says what a request does to them: AH=02 copies sectors to a buffer,
AH=03 copies a buffer to sectors, and nothing else moves data. Which sectors is said
by `blockOf`, where the LBA path counts one head too many.

* `service_refines`: for all sequences of requests, and of stores by the callers in
  between, the handler over the ATA driver and a disk does what `Store.answer` says.
* `reads_last_write`: a byte that is read is the one last written to that place.
* `sectors_refine`: callers that move single sectors inside the geometry see a map
  from cylinder, head and sector to the sector's bytes. The additional head does not
  matter to them, since it gives different sectors different places.
-/

namespace MyBios

open Prog

/-! ### The abstract disk -/

/-- Memory and the bytes of the drive. -/
structure Store where
  mem : ByteMem
  disk : Nat → U8

/-- The position of address `a` in a buffer. -/
def bufferIndex (buffer : U32) (a : Nat) : Nat := (BitVec.ofNat 32 a - buffer).toNat

namespace Store

variable (σ : Store)

/-- Copy `n` bytes of the drive to a buffer. -/
def fetch (start n : Nat) (buffer : U32) : Store :=
  { σ with mem := fun a =>
      if a < 2 ^ 32 ∧ bufferIndex buffer a < n then σ.disk (start + bufferIndex buffer a)
      else σ.mem a }

/-- Copy `n` bytes of a buffer to the drive. -/
def put (start n : Nat) (buffer : U32) : Store :=
  { σ with disk := fun b =>
      if start ≤ b ∧ b < start + n then σ.mem (bufferAddr buffer (b - start)) else σ.disk b }

end Store

/-- The block of an address on a drive. -/
def AtaDrive.block (info : AtaDrive) (p : Chs) : Nat :=
  if info.lba28 then info.geometry.chsLba p else info.geometry.sector p.1.1 p.1.2 p.2

/-- The first block of a request. -/
def blockOf (info : AtaDrive) (frame : ItrFrameRealMode) : Nat := info.block (requestChs frame)

instance {frame : ItrFrameRealMode} : Decidable (IsTransfer frame) :=
  inferInstanceAs (Decidable (_ ∨ _))

/-- The reply to a request that moves no data. -/
def plainReply (info : AtaDrive) (frame : ItrFrameRealMode) : ItrFrameRealMode :=
  if frame.ah = 0x8 then
    if frame.dl = 0x80 then parametersReply info frame else frame.setCarry.setAl 0x01
  else if IsTransfer frame then frame
  else if frame.ah = 0x0 then frame.clearCarry.setAl 0x00
  else (frame.setAl 0x01).setCarry

/-- What a caller does: INT 13h, or a store to memory. -/
inductive DiskRequest where
  | int13 (frame : ItrFrameRealMode)
  | store (addr : Nat) (v : U8)

/-- What a request does, and the frame after it. -/
def Store.answer (info : AtaDrive) (σ : Store) :
    DiskRequest → Option ItrFrameRealMode × Store
  | .int13 frame =>
    if IsTransfer frame ∧ frame.dl = 0x80 then
      (some (transferReply frame),
        if frame.ah = 0x2 then
          σ.fetch (512 * blockOf info frame) (512 * frame.al.toNat) (int13Buffer frame)
        else σ.put (512 * blockOf info frame) (512 * frame.al.toNat) (int13Buffer frame))
    else (some (plainReply info frame), σ)
  | .store addr v => (none, { σ with mem := σ.mem.write8 addr v })

/-- A request for a drive of `blocks` sectors that the drive can do: not 0 sectors,
sectors counted from 1, without LBA no more than 16 heads, and all on the drive. -/
structure Serviceable (info : AtaDrive) (blocks : Nat) (frame : ItrFrameRealMode) : Prop where
  count_pos : 1 ≤ frame.al.toNat
  sector_pos : 1 ≤ (int13Sector frame).toNat
  head : info.lba28 = false → frame.dh.toNat < 16
  fits : blockOf info frame + frame.al.toNat ≤ blocks

/-- The requests that are admitted; those that move no data always are. -/
def DiskRequest.Admitted (info : AtaDrive) (blocks : Nat) (_ : Store) : DiskRequest → Prop
  | .int13 frame => IsTransfer frame → frame.dl = 0x80 → Serviceable info blocks frame
  | .store _ _ => True

/-! ### The driver that implements it -/

/-- The program behind a request. -/
def DiskRequest.run {δ : Type} [Bus δ] :
    DiskRequest → Prog (AtaState δ) (Option ItrFrameRealMode)
  | .int13 frame => do
    let reply ← biosHandleDiskInterrupt frame
    pure (some reply)
  | .store addr v => do
    onMachine (storeByte addr v)
    pure none

/-- The first drive is `info`, with `blocks` sectors on the channel `i`, whose
selected drive it is. `other` are the bytes of the other drive. -/
structure Represents (info : AtaDrive) (i : Fin 4) (blocks : Nat) (other : Nat → U8)
    (σ : Store) (s : AtaState Disk) : Prop where
  first : s.devAtaDrives 0 = info
  dev : info.dev = some i
  selected : (s.ataDevices i).slaveSelected = info.slave
  attached : s.disk.base = (s.ataDevices i).base
  geometry : s.disk.geometry info.slave = info.geometry
  blocks : s.disk.blocks info.slave = blocks
  mem : s.machine.mem = σ.mem
  contents : s.disk.contents info.slave = σ.disk
  other : s.disk.contents (!info.slave) = other

variable {info : AtaDrive} {i : Fin 4} {blocks : Nat} {other : Nat → U8} {σ : Store}
  {s t : AtaState Disk} {frame : ItrFrameRealMode}

/-! ### The commands of the requests -/

/-- The taskfile of a request on the drive `info`. -/
def requestTask (info : AtaDrive) (frame : ItrFrameRealMode) : Taskfile :=
  (int13Transfer info frame).task info.slave

/-- A head below 16 sets neither the drive nor the mode. -/
theorem head_bits {h : U8} (hh : h.toNat < 16) : h.getLsbD 4 = false ∧ h.getLsbD 6 = false :=
  ⟨Nat.testBit_lt_two_pow (by omega), Nat.testBit_lt_two_pow (by omega)⟩

/-- The command goes to the drive, with the count of the request. -/
theorem requestTask_spec (h : Serviceable info blocks frame) :
    (requestTask info frame).unit = info.slave ∧
      (requestTask info frame).sectors = frame.al.toNat := by
  constructor
  · rw [requestTask, unit_int13Transfer]
    cases hlba : info.lba28 with
    | true => simp
    | false =>
        rw [(head_bits (h.head hlba)).1]
        simp
  · have hcount : (requestTask info frame).count = frame.al := by
      rw [requestTask, count_task.1, int13Transfer, BitVec.setWidth_setWidth_of_le _ (by omega),
        BitVec.setWidth_eq]
    refine (sectors_eq_count hcount).mpr ?_
    rintro hzero
    have hpos := h.count_pos
    simp [hzero] at hpos

/-- And it starts at the sector that `blockOf` gives. -/
theorem sector_requestTask (hg : info.geometry.Addressable) (h : Serviceable info blocks frame) :
    (requestTask info frame).sector info.geometry = blockOf info frame := by
  unfold requestTask int13Transfer Transfer.task blockOf AtaDrive.block
  cases hlba : info.lba28 with
  | true =>
      simp only [if_true]
      rw [sector_lbaTaskfile (int13Lba_lt hg h.sector_pos), toNat_int13Lba hg h.sector_pos]
      rfl
  | false =>
      have hC : (int13Cylinder frame).toNat < 1024 := int13Cylinder_lt
      have hS : (int13Sector frame).toNat < 64 := int13Sector_lt
      have hwidth : ((int13Sector frame).setWidth 16).toNat = (int13Sector frame).toNat := by
        rw [BitVec.toNat_setWidth]
        omega
      have hH : (int13Head frame).toNat < 16 := h.head hlba
      simp only [Bool.false_eq_true, if_false]
      rw [sector_chsTaskfile hH (by omega) (by omega), hwidth, int13Head, requestChs]

/-- So the command of a serviceable request is in range. -/
theorem Represents.inRange (hg : info.geometry.Addressable)
    (hs : Represents info i blocks other σ s) (h : Serviceable info blocks frame) :
    InRange s i ((int13Transfer info frame).task (s.ataDevices i).slaveSelected)
      (frame.al.setWidth 16) := by
  obtain ⟨hunit, hsectors⟩ := requestTask_spec h
  have hcount : (frame.al.setWidth 16).toNat = frame.al.toNat :=
    BitVec.toNat_setWidth_of_le (by decide)
  have hpos := h.count_pos
  rw [hs.selected]
  exact
    { attached := hs.attached
      count_pos := by omega
      sectors := by rw [hcount]; exact hsectors
      fits := by
        show (requestTask info frame).sector (s.disk.geometry (requestTask info frame).unit) + _ ≤
          s.disk.blocks (requestTask info frame).unit
        rw [hunit, hs.geometry, hs.blocks, hcount, sector_requestTask hg h]
        exact h.fits }

/-! ### What the transfers do -/

/-- The addresses of a buffer, by their position. -/
theorem bufferAddr_eq_iff {buffer : U32} {a k : Nat} (hk : k < 2 ^ 32) :
    a = bufferAddr buffer k ↔ a < 2 ^ 32 ∧ k = bufferIndex buffer a := by
  unfold bufferAddr bufferIndex
  constructor
  · rintro rfl
    refine ⟨(buffer + BitVec.ofNat 32 k).isLt, ?_⟩
    rw [BitVec.ofNat_toNat, BitVec.setWidth_eq, BitVec.add_comm, BitVec.add_sub_cancel,
      BitVec.toNat_ofNat]
    omega
  · rintro ⟨ha, rfl⟩
    rw [BitVec.ofNat_toNat, BitVec.setWidth_eq, BitVec.add_comm, BitVec.sub_add_cancel,
      BitVec.toNat_ofNat]
    omega

/-- Memory with a buffer filled is the memory of `Store.fetch`. -/
theorem filled_eq_fetch {buffer : U32} {start n : Nat} {mem : ByteMem} (hn : n ≤ 2 ^ 32)
    (h : Filled buffer (fun k => σ.disk (start + k)) σ.mem n mem) :
    mem = (σ.fetch start n buffer).mem := by
  funext a
  simp only [Store.fetch]
  split
  · rename_i hin
    have haddr : a = bufferAddr buffer (bufferIndex buffer a) :=
      (bufferAddr_eq_iff (by omega)).mpr ⟨hin.1, rfl⟩
    calc mem a = mem (bufferAddr buffer (bufferIndex buffer a)) := by rw [← haddr]
      _ = σ.disk (start + bufferIndex buffer a) := h.filled _ hin.2
  · rename_i hout
    refine h.other a fun k hk haddr => hout ?_
    obtain ⟨ha, rfl⟩ := (bufferAddr_eq_iff (by omega)).mp haddr
    exact ⟨ha, hk⟩

/-- A read command, with the state that it leaves. -/
theorem transfer_read_fetched {task : Bool → Taskfile} {count : U16} {buffer : U32}
    (hr : InRange s i (task (s.ataDevices i).slaveSelected) count)
    (hcmd : (task (s.ataDevices i).slaveSelected).command = ataCmdReadPio) :
    Total (transfer (some i) count task (readWord (some i) buffer)) s fun _ t =>
      Fetched s { s.disk with regs := task (s.ataDevices i).slaveSelected } buffer
        (startByte s (task (s.ataDevices i).slaveSelected)) (256 * count.toNat)
        (256 * count.toNat) t := by
  have hpos := hr.count_pos
  have hle := hr.count_le
  refine (transfer_total (P := fun d => Fetched s d buffer
      (startByte s (task (s.ataDevices i).slaveSelected)) (256 * count.toNat))
    hr (.inl ⟨hcmd, rfl⟩) ?_ (fun d j t hd h => h.wait hd)
    (fun d j t hd hj h => h.step hd hj ⟨_, rfl⟩ (by omega))).mono fun _ _ h => h.2
  intro d busy delays t ht
  refine ⟨busy, delays, s.machine.mem, ?_, Filled.zero⟩
  rw [phaseAfter, if_pos (by omega)]
  exact ht

/-- A state that differs in memory, the disk and the port log only. -/
theorem Represents.moved {mem : ByteMem} {d : Disk} {σ' : Store}
    (hs : Represents info i blocks other σ s) (ht : OnDisk (s.setMem mem) d t)
    (hbase : d.base = s.disk.base) (hgeometry : d.geometry = s.disk.geometry)
    (hblocks : d.blocks = s.disk.blocks) (hmem : mem = σ'.mem)
    (hcontents : d.contents info.slave = σ'.disk) (hother : d.contents (!info.slave) = other) :
    Represents info i blocks other σ' t := by
  obtain ⟨log, rfl⟩ := ht
  exact
    { first := hs.first
      dev := hs.dev
      selected := hs.selected
      attached := hbase.trans hs.attached
      geometry := (congrFun hgeometry _).trans hs.geometry
      blocks := (congrFun hblocks _).trans hs.blocks
      mem := hmem
      contents := hcontents
      other := hother }

/-- A request for the drive moves the data that `Store.answer` moves. -/
theorem Represents.transfer (hg : info.geometry.Addressable)
    (hs : Represents info i blocks other σ s) (hah : IsTransfer frame)
    (h : Serviceable info blocks frame) :
    Total ((int13Transfer info frame).run (some i)) s fun _ t =>
      Represents info i blocks other
        (if frame.ah = 0x2 then
          σ.fetch (512 * blockOf info frame) (512 * frame.al.toNat) (int13Buffer frame)
        else σ.put (512 * blockOf info frame) (512 * frame.al.toNat) (int13Buffer frame)) t := by
  have hr := hs.inRange hg h
  obtain ⟨hunit, -⟩ := requestTask_spec h
  have hstart : startByte s ((int13Transfer info frame).task (s.ataDevices i).slaveSelected) =
      512 * blockOf info frame := by
    rw [startByte, hs.selected]
    show 512 * (requestTask info frame).sector (s.disk.geometry (requestTask info frame).unit) = _
    rw [hunit, hs.geometry, sector_requestTask hg h]
  have htask : ((int13Transfer info frame).task (s.ataDevices i).slaveSelected).unit =
      info.slave := by
    rw [hs.selected]
    exact hunit
  have hcount : (frame.al.setWidth 16).toNat = frame.al.toNat :=
    BitVec.toNat_setWidth_of_le (by decide)
  rw [Transfer.run_eq]
  rcases hah with hah | hah
  · -- the drive to the buffer
    have hread : (int13Transfer info frame).write = false := by simp [int13Transfer, hah]
    have hcmd : ((int13Transfer info frame).task (s.ataDevices i).slaveSelected).command =
        ataCmdReadPio := by rw [count_task.2, Transfer.command, hread]; rfl
    rw [hread, if_neg (by decide), if_pos hah]
    refine (transfer_read_fetched hr hcmd).mono ?_
    rintro _ t ⟨busy, delays, mem, ht, hmem⟩
    have hal := frame.al.isLt
    have hbytes : 2 * (256 * (frame.al.setWidth 16).toNat) = 512 * frame.al.toNat := by
      rw [hcount]
      omega
    simp only [htask, hstart, hbytes, hs.contents, hs.mem] at hmem
    refine hs.moved ht rfl rfl rfl (filled_eq_fetch (by omega) hmem) hs.contents hs.other
  · -- the buffer to the drive
    have hwrite : (int13Transfer info frame).write = true := by simp [int13Transfer, hah]
    have hcmd : ((int13Transfer info frame).task (s.ataDevices i).slaveSelected).command =
        ataCmdWritePio := by rw [count_task.2, Transfer.command, hwrite]; rfl
    rw [hwrite, if_pos rfl, if_neg (by rw [hah]; decide)]
    refine (transfer_write_total _ _ hr hcmd).mono ?_
    rintro _ t ⟨-, d, ht, hbase, hblocks, hgeometry, hcontents⟩
    rw [htask, hstart, hcount, hs.mem] at hcontents
    have hstate : OnDisk (s.setMem s.machine.mem) d t := ht
    refine hs.moved hstate hbase hgeometry hblocks hs.mem ?_ ?_
    · rw [hcontents]
      funext b
      simp only [overwrite, Store.put, true_and, hs.contents]
      rfl
    · rw [hcontents]
      funext b
      rw [overwrite, if_neg (by simp), hs.other]

/-! ### The refinement -/

/-- A request that moves no data leaves everything as it is. -/
theorem returns_plain {δ : Type} [Bus δ] {s : AtaState δ}
    (h : ¬ (IsTransfer frame ∧ frame.dl = 0x80)) :
    (biosHandleDiskInterrupt frame).Returns s (plainReply (s.devAtaDrives 0) frame) s := by
  by_cases hah : IsTransfer frame
  · have hdl : frame.dl ≠ 0x80 := fun hdl => h ⟨hah, hdl⟩
    have hplain : plainReply (s.devAtaDrives 0) frame = frame := by
      have h8 : frame.ah ≠ 0x8 := by rcases hah with h | h <;> simp [h]
      rw [plainReply, if_neg h8, if_pos hah]
    rw [hplain]
    exact (absent_reply hah hdl).mpr ⟨rfl, rfl⟩
  · have h2 : frame.ah ≠ 0x2 := fun h => hah (.inl h)
    have h3 : frame.ah ≠ 0x3 := fun h => hah (.inr h)
    unfold biosHandleDiskInterrupt plainReply
    rw [if_neg h2, if_neg h3, if_neg hah]
    split
    · split
      · exact returns_bind.mpr ⟨_, s, returns_gets.mpr ⟨rfl, rfl⟩, returns_pure.mpr ⟨rfl, rfl⟩⟩
      · exact returns_pure.mpr ⟨rfl, rfl⟩
    · split
      · exact returns_pure.mpr ⟨rfl, rfl⟩
      · exact returns_pure.mpr ⟨rfl, rfl⟩

/-- One request. -/
theorem refines_store (hg : info.geometry.Addressable) :
    Refines (Represents info i blocks other) (DiskRequest.Admitted info blocks)
      (Store.answer info) DiskRequest.run where
  step := by
    intro σ s request hs hok
    cases request with
    | int13 frame =>
        by_cases h : IsTransfer frame ∧ frame.dl = 0x80
        · obtain ⟨c, t, hrun, ht⟩ := hs.transfer hg h.1 (hok h.1 h.2)
          have hreturns : (biosHandleDiskInterrupt frame).Returns s (transferReply frame) t :=
            (transfer_reply h.1 h.2).mpr ⟨rfl, c, by rw [hs.first, hs.dev]; exact hrun⟩
          refine ⟨some (transferReply frame), t,
            returns_bind.mpr ⟨_, t, hreturns, returns_pure.mpr ⟨rfl, rfl⟩⟩, ?_⟩
          simp only [Store.answer, if_pos h]
          exact ⟨trivial, ht⟩
        · have hreturns := returns_plain (s := s) h
          rw [hs.first] at hreturns
          refine ⟨some (plainReply info frame), s,
            returns_bind.mpr ⟨_, s, hreturns, returns_pure.mpr ⟨rfl, rfl⟩⟩, ?_⟩
          simp only [Store.answer, if_neg h]
          exact ⟨trivial, hs⟩
    | store addr v =>
        refine ⟨none, s.setMem (s.machine.mem.write8 addr v), returns_bind.mpr
          ⟨(), _, returns_storeByte_onMachine.mpr rfl, returns_pure.mpr ⟨rfl, rfl⟩⟩, rfl, ?_⟩
        have hstate : OnDisk (s.setMem (s.machine.mem.write8 addr v)) s.disk
            (s.setMem (s.machine.mem.write8 addr v)) := ⟨s.log, rfl⟩
        exact hs.moved hstate rfl rfl rfl (congrArg (ByteMem.write8 · addr v) hs.mem)
          hs.contents hs.other

/-- However the callers use the drive, and whatever they store in between: the replies
and the final state are those of the abstract disk. -/
theorem service_refines {requests : List DiskRequest} (hg : info.geometry.Addressable)
    (hs : Represents info i blocks other σ s)
    (hok : Admissible (Store.answer info) (DiskRequest.Admitted info blocks) σ requests) :
    Total (serve DiskRequest.run requests) s fun replies t =>
      replies = (answers (Store.answer info) σ requests).1 ∧
        Represents info i blocks other (stateAfter (Store.answer info) σ requests) t :=
  (refines_store hg).serve hs hok

/-- The blank drive of 64 sectors. -/
theorem represents_smallMachine :
    Represents (smallDrive true) 0 64 (fun _ => 0) ⟨.zeros, fun _ => 0⟩ (smallMachine true) where
  first := rfl
  dev := rfl
  selected := rfl
  attached := rfl
  geometry := rfl
  blocks := rfl
  mem := rfl
  contents := rfl
  other := rfl

theorem addressable_smallDrive : (smallDrive true).geometry.Addressable :=
  ⟨by decide, by decide, by decide, by decide⟩

/-- Write one sector at cylinder `c`, head 1, sector 1 of the first drive. -/
def writeRequest (c : U8) : ItrFrameRealMode := (readRequest c).setAh 0x3

theorem serviceable_smallDrive :
    Serviceable (smallDrive true) 64 (readRequest 1) ∧
      Serviceable (smallDrive true) 64 (writeRequest 1) :=
  ⟨⟨by decide, by decide, by decide, by decide⟩, ⟨by decide, by decide, by decide, by decide⟩⟩

/-- A store, a write, another store and a read. -/
def storeAndRead : List DiskRequest :=
  [.store 3 0x5A, .int13 (writeRequest 1), .store 3 0, .int13 (readRequest 1)]

theorem admissible_storeAndRead (σ : Store) :
    Admissible (Store.answer (smallDrive true)) (DiskRequest.Admitted (smallDrive true) 64) σ
      storeAndRead :=
  ⟨trivial, fun _ _ => serviceable_smallDrive.2, trivial, fun _ _ => serviceable_smallDrive.1,
    trivial⟩

theorem service_refines_small :
    Total (serve DiskRequest.run storeAndRead) (smallMachine true) fun replies t =>
      replies = (answers (Store.answer (smallDrive true)) ⟨.zeros, fun _ => 0⟩ storeAndRead).1 ∧
        Represents (smallDrive true) 0 64 (fun _ => 0)
          (stateAfter (Store.answer (smallDrive true)) ⟨.zeros, fun _ => 0⟩ storeAndRead) t :=
  service_refines addressable_smallDrive represents_smallMachine (admissible_storeAndRead _)

/-! ### Reading what was written -/

/-- A request for the drive that moves byte `b` of it, as byte `k` of its buffer. -/
structure Carries (info : AtaDrive) (frame : ItrFrameRealMode) (b k : Nat) : Prop where
  drive : frame.dl = 0x80
  start : b = 512 * blockOf info frame + k
  lt : k < 512 * frame.al.toNat

/-- The request writes byte `b` of the drive. -/
def DiskRequest.Writes (info : AtaDrive) (b : Nat) : DiskRequest → Prop
  | .int13 frame => frame.ah = 0x3 ∧ ∃ k, Carries info frame b k
  | .store _ _ => False

variable {b j k : Nat} {w r : ItrFrameRealMode}

/-- A write leaves the byte of its buffer. -/
theorem disk_answer_write (hah : w.ah = 0x3) (hw : Carries info w b j) :
    (σ.answer info (.int13 w)).2.disk b = σ.mem (bufferAddr (int13Buffer w) j) := by
  have htransfer : IsTransfer w ∧ w.dl = 0x80 := ⟨.inr hah, hw.drive⟩
  have hne : w.ah ≠ 0x2 := by simp [hah]
  have hlt := hw.lt
  obtain rfl := hw.start
  simp only [Store.answer, if_pos htransfer, if_neg hne, Store.put]
  rw [if_pos (by omega), Nat.add_sub_cancel_left]

/-- Other requests leave the byte. -/
theorem disk_answer_other {request : DiskRequest} (h : ¬ request.Writes info b) :
    (σ.answer info request).2.disk b = σ.disk b := by
  cases request with
  | store addr v => rfl
  | int13 frame =>
      by_cases htransfer : IsTransfer frame ∧ frame.dl = 0x80
      · simp only [Store.answer, if_pos htransfer]
        split
        · rfl
        · rename_i hne
          have hah : frame.ah = 0x3 := htransfer.1.resolve_left hne
          refine if_neg fun hin => h ⟨hah, b - 512 * blockOf info frame, htransfer.2, ?_, ?_⟩
          · omega
          · omega
      · simp only [Store.answer, if_neg htransfer]

/-- A read leaves the byte of the drive in its buffer. -/
theorem mem_answer_read (hah : r.ah = 0x2) (hr : Carries info r b k) :
    (σ.answer info (.int13 r)).2.mem (bufferAddr (int13Buffer r) k) = σ.disk b := by
  have htransfer : IsTransfer r ∧ r.dl = 0x80 := ⟨.inl hah, hr.drive⟩
  have hlt := hr.lt
  have hal := r.al.isLt
  obtain rfl := hr.start
  have hpos : bufferAddr (int13Buffer r) k < 2 ^ 32 ∧
      k = bufferIndex (int13Buffer r) (bufferAddr (int13Buffer r) k) :=
    (bufferAddr_eq_iff (by omega)).mp rfl
  obtain ⟨haddr, hindex⟩ := hpos
  simp only [Store.answer, if_pos htransfer, if_pos hah, Store.fetch]
  rw [← hindex, if_pos ⟨haddr, hlt⟩]

/-- Whatever was done before, and between the two unless it wrote the byte again: a
read gives the byte that the write took from memory. -/
theorem reads_last_write {before between : List DiskRequest} (hg : info.geometry.Addressable)
    (hs : Represents info i blocks other σ s)
    (hok : Admissible (Store.answer info) (DiskRequest.Admitted info blocks) σ
      (before ++ .int13 w :: (between ++ [.int13 r])))
    (hwrite : w.ah = 0x3) (hw : Carries info w b j) (hread : r.ah = 0x2) (hr : Carries info r b k)
    (hnone : ∀ request ∈ between, ¬ request.Writes info b) :
    Total (serve DiskRequest.run before) s fun _ t =>
      Total (serve DiskRequest.run (.int13 w :: (between ++ [.int13 r]))) t fun _ u =>
        u.machine.mem (bufferAddr (int13Buffer r) k) =
          t.machine.mem (bufferAddr (int13Buffer w) j) := by
  obtain ⟨hbefore, hafter⟩ := admissible_append.mp hok
  refine ((refines_store hg).serve hs hbefore).mono ?_
  rintro _ t ⟨-, ht⟩
  refine ((refines_store hg).serve ht hafter).mono ?_
  rintro _ u ⟨-, hu⟩
  generalize stateAfter (Store.answer info) σ before = τ at ht hu
  have hkept : (stateAfter (Store.answer info) (τ.answer info (.int13 w)).2 between).disk b =
      τ.mem (bufferAddr (int13Buffer w) j) :=
    stateAfter_invariant (I := fun τ' : Store => τ'.disk b = τ.mem (bufferAddr (int13Buffer w) j))
      (fun _ q hq hb => (disk_answer_other (hnone q hq)).trans hb) (disk_answer_write hwrite hw)
  have hlast : stateAfter (Store.answer info) τ (.int13 w :: (between ++ [.int13 r])) =
      ((stateAfter (Store.answer info) (τ.answer info (.int13 w)).2 between).answer info
        (.int13 r)).2 := by
    rw [← List.cons_append, stateAfter_append]
    rfl
  rw [hu.mem, ht.mem, hlast, mem_answer_read hread hr, hkept]

/-- The byte at address 3 comes back, although it was cleared after the write. -/
theorem reads_last_write_small :
    Total (serve DiskRequest.run [.store 3 0x5A]) (smallMachine true) fun _ t =>
      Total (serve DiskRequest.run
        (.int13 (writeRequest 1) :: ([.store 3 0] ++ [.int13 (readRequest 1)]))) t fun _ u =>
          u.machine.mem (bufferAddr (int13Buffer (readRequest 1)) 3) =
            t.machine.mem (bufferAddr (int13Buffer (writeRequest 1)) 3) :=
  have written : Carries (smallDrive true) (writeRequest 1) (512 * 24 + 3) 3 :=
    ⟨by decide, by decide, by decide⟩
  reads_last_write addressable_smallDrive represents_smallMachine (admissible_storeAndRead _)
    (by decide) written (by decide) ⟨by decide, by decide, by decide⟩
    fun request h => by rw [List.mem_singleton.mp h]; exact not_false

/-! ### Sectors by cylinder, head and sector -/

/-- The addresses inside a geometry. -/
def Geometry.inside (g : Geometry) : Set Chs :=
  {p | p.1.1 < 1024 ∧ p.1.2 < g.heads ∧ 1 ≤ p.2 ∧ p.2 ≤ g.sectors}

/-- Memory, and what the sectors hold. -/
structure SectorStore where
  mem : ByteMem
  sector : Chs → Nat → U8

/-- A request for one sector moves the sector at its address. -/
def SectorStore.answer (info : AtaDrive) (τ : SectorStore) :
    DiskRequest → Option ItrFrameRealMode × SectorStore
  | .int13 frame =>
    if IsTransfer frame ∧ frame.dl = 0x80 then
      (some (transferReply frame),
        if frame.ah = 0x2 then
          { τ with mem := fun a =>
              if a < 2 ^ 32 ∧ bufferIndex (int13Buffer frame) a < 512 then
                τ.sector (requestChs frame) (bufferIndex (int13Buffer frame) a)
              else τ.mem a }
        else
          { τ with sector := Function.update τ.sector (requestChs frame) fun k =>
              τ.mem (bufferAddr (int13Buffer frame) k) })
    else (some (plainReply info frame), τ)
  | .store addr v => (none, { τ with mem := τ.mem.write8 addr v })

/-- The requests for one sector of the geometry that is on the drive. -/
def DiskRequest.Single (info : AtaDrive) (blocks : Nat) (_ : SectorStore) : DiskRequest → Prop
  | .int13 frame => IsTransfer frame → frame.dl = 0x80 →
      frame.al = 1 ∧ requestChs frame ∈ info.geometry.inside ∧ blockOf info frame < blocks
  | .store _ _ => True

/-- The store has each sector of the geometry at its block. -/
structure SectorStore.On (info : AtaDrive) (τ : SectorStore) (σ : Store) : Prop where
  mem : σ.mem = τ.mem
  sector : ∀ p ∈ info.geometry.inside, ∀ k < 512, σ.disk (512 * info.block p + k) = τ.sector p k

/-- Different addresses have different blocks, also on the LBA path. -/
theorem injOn_block : Set.InjOn info.block info.geometry.inside := by
  cases hlba : info.lba28 with
  | true =>
      have hblock : info.block = info.geometry.chsLba := by
        funext p
        rw [AtaDrive.block, if_pos hlba]
      rw [hblock]
      refine info.geometry.numbers_chsLba.inj.mono ?_
      rintro p ⟨hc, hh, hn⟩
      exact ⟨hc, Nat.le_of_lt hh, hn⟩
  | false =>
      have digits := ((numbers_range 0 1024).prod (numbers_range 0 info.geometry.heads)).prod
        (numbers_range 1 info.geometry.sectors)
      have numbered : Numbers Chs.Before info.geometry.inside
          (1024 * info.geometry.heads * info.geometry.sectors) info.block := by
        refine digits.congr ?_ ?_
        · rintro ⟨⟨c, h⟩, n⟩
          simp only [Geometry.inside, Set.mem_ofPred_eq, Set.mem_prod]
          omega
        · rintro ⟨⟨c, h⟩, n⟩ ⟨-, -, hn, -⟩
          simp only [AtaDrive.block, hlba, Bool.false_eq_true, if_false, Geometry.sector,
            Nat.sub_zero]
          exact Nat.add_sub_assoc hn _
      exact numbered.inj

/-- One request of the store, as a request of the sectors. -/
theorem abstracts_sectors :
    Abstracts (SectorStore.On info) (DiskRequest.Single info blocks) (SectorStore.answer info)
      (Store.answer info) where
  step := by
    intro τ σ request hon hok
    cases request with
    | store addr v =>
        refine ⟨rfl, ?_, hon.sector⟩
        simp only [Store.answer, SectorStore.answer, hon.mem]
    | int13 frame =>
        by_cases h : IsTransfer frame ∧ frame.dl = 0x80
        · obtain ⟨hal, hhas, -⟩ := hok h.1 h.2
          have hcount : 512 * frame.al.toNat = 512 := by rw [hal]; rfl
          simp only [Store.answer, SectorStore.answer, if_pos h, hcount]
          refine ⟨trivial, ?_⟩
          split
          · refine ⟨?_, hon.sector⟩
            funext a
            simp only [Store.fetch]
            split
            · rename_i hin
              exact hon.sector _ hhas _ hin.2
            · rw [hon.mem]
          · refine ⟨hon.mem, fun p hp k hk => ?_⟩
            simp only [Store.put]
            by_cases hsame : p = requestChs frame
            · subst hsame
              rw [Function.update_self]
              have hblock : info.block (requestChs frame) = blockOf info frame := rfl
              rw [hblock, if_pos (by omega), Nat.add_sub_cancel_left, hon.mem]
            · have hblock : info.block p ≠ blockOf info frame :=
                fun heq => hsame (injOn_block hp hhas heq)
              rw [Function.update_of_ne hsame, if_neg (by omega)]
              exact hon.sector p hp k hk
        · simp only [Store.answer, SectorStore.answer, if_neg h]
          exact ⟨trivial, hon⟩

/-- A request for one sector of the geometry is serviceable. -/
theorem admitted_of_single (hg : info.geometry.Standard) {σ : Store} {τ : SectorStore}
    {request : DiskRequest} (h : request.Single info blocks τ) :
    request.Admitted info blocks σ := by
  cases request with
  | store addr v => trivial
  | int13 frame =>
      intro hah hdl
      obtain ⟨hal, hhas, hblock⟩ := h hah hdl
      have hcount : frame.al.toNat = 1 := by rw [hal]; rfl
      have hheads := hg.heads_le
      have hhead : frame.dh.toNat < info.geometry.heads := hhas.2.1
      exact ⟨by omega, hhas.2.2.1, fun _ => by omega, by omega⟩

/-- Requests for single sectors see the sectors by cylinder, head and sector. -/
theorem sectors_refine {τ : SectorStore} {requests : List DiskRequest}
    (hg : info.geometry.Standard) (hon : τ.On info σ) (hs : Represents info i blocks other σ s)
    (hok : Admissible (SectorStore.answer info) (DiskRequest.Single info blocks) τ requests) :
    Total (serve DiskRequest.run requests) s fun replies t =>
      replies = (answers (SectorStore.answer info) τ requests).1 ∧
        ∃ σ', (stateAfter (SectorStore.answer info) τ requests).On info σ' ∧
          Represents info i blocks other σ' t :=
  ((refines_store hg.addressable).trans abstracts_sectors fun _ _ _ _ =>
    admitted_of_single hg).serve ⟨σ, hon, hs⟩ hok

theorem sectors_refine_small :
    Total (serve DiskRequest.run storeAndRead) (smallMachine true) fun replies t =>
      replies = (answers (SectorStore.answer (smallDrive true)) ⟨.zeros, fun _ _ => 0⟩
          storeAndRead).1 ∧
        ∃ σ', (stateAfter (SectorStore.answer (smallDrive true)) ⟨.zeros, fun _ _ => 0⟩
            storeAndRead).On (smallDrive true) σ' ∧
          Represents (smallDrive true) 0 64 (fun _ => 0) σ' t := by
  have single : ∀ frame, frame = readRequest 1 ∨ frame = writeRequest 1 → frame.al = 1 ∧
      requestChs frame ∈ (smallDrive true).geometry.inside ∧
        blockOf (smallDrive true) frame < 64 := by
    rintro frame (rfl | rfl)
    · exact ⟨by decide, ⟨by decide, by decide, by decide, by decide⟩, by decide⟩
    · exact ⟨by decide, ⟨by decide, by decide, by decide, by decide⟩, by decide⟩
  exact sectors_refine ⟨by decide, by decide, by decide, by decide⟩ ⟨rfl, fun _ _ _ _ => rfl⟩
    represents_smallMachine
    ⟨trivial, fun _ _ => single _ (.inr rfl), trivial, fun _ _ => single _ (.inl rfl), trivial⟩

end MyBios
