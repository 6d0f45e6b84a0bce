import MyBios.Ata.Disk

/-!
Writing sectors and reading them back.

The transfer loops move one word at a time; after `j` words the drive stands at
byte `2 * j` of the transfer. `transferLoop_total` is the induction over both
loops, for any property of the state that is indexed by the number of words
moved: it need only survive the wait for the drive and advance with each word.

* `transfer_write_total`, `transfer_read_total`: a transfer in range returns and
  moves exactly the addressed bytes.
* `write_then_read`: a write followed by a read of the same sectors fills the
  destination with the bytes written and changes no other sector.
-/

namespace MyBios

open Prog AtaState

/-! ### The driver on the disk -/

/-- The disk of a state. -/
def AtaState.disk (s : AtaState Disk) : Disk := s.machine.io.dev

@[simp] theorem setPorts_setPorts {s : AtaState Disk} {io io' : Ports Disk} :
    (s.setPorts io).setPorts io' = s.setPorts io' := rfl

/-- State `t` is `s` with the disk in state `d` and some port log. -/
def OnDisk (s : AtaState Disk) (d : Disk) (t : AtaState Disk) : Prop :=
  ∃ log, t = s.setPorts ⟨d, log⟩

variable {s t : AtaState Disk} {dev : DevRef} {d : Disk}

theorem OnDisk.refl : OnDisk s s.disk s := ⟨s.log, rfl⟩

theorem OnDisk.disk (h : OnDisk s d t) : t.disk = d := by
  obtain ⟨log, rfl⟩ := h
  rfl

theorem OnDisk.mem (h : OnDisk s d t) : t.machine.mem = s.machine.mem := by
  obtain ⟨log, rfl⟩ := h
  rfl

theorem total_status (h : OnDisk s d t)
    (hd : d.base = (s.device dev).base) :
    Total (status dev) t fun v u => v = d.statusRead.1 ∧ OnDisk s d.statusRead.2 u := by
  obtain ⟨log, rfl⟩ := h
  have hbus : Bus.inb (ataPort (s.device dev).base ataStatus) d = d.statusRead := by
    rw [← hd]
    exact if_pos rfl
  refine ⟨_, _, returns_ataInb.mpr ⟨rfl, rfl⟩, ?_⟩
  rw [device_setPorts, io_setPorts, hbus]
  exact ⟨rfl, _, rfl⟩

theorem total_inw (h : OnDisk s d t)
    (hd : d.base = (s.device dev).base) :
    Total (ataInw dev ataData) t fun v u => v = d.dataRead.1 ∧ OnDisk s d.dataRead.2 u := by
  obtain ⟨log, rfl⟩ := h
  have hbus : Bus.inw (ataPort (s.device dev).base ataData) d = d.dataRead := by
    rw [← hd]
    exact if_pos rfl
  refine ⟨_, _, returns_ataInw.mpr ⟨rfl, rfl⟩, ?_⟩
  rw [device_setPorts, io_setPorts, hbus]
  exact ⟨rfl, _, rfl⟩

theorem total_outw {v : U16} (h : OnDisk s d t)
    (hd : d.base = (s.device dev).base) :
    Total (ataOutw dev ataData v) t fun _ u => OnDisk s (d.dataWrite v) u := by
  obtain ⟨log, rfl⟩ := h
  have hbus : Bus.outw (ataPort (s.device dev).base ataData) v d = d.dataWrite v := by
    rw [← hd]
    exact if_pos rfl
  refine ⟨(), _, returns_ataOutw.mpr rfl, ?_⟩
  rw [device_setPorts, io_setPorts, hbus]
  exact ⟨_, rfl⟩

/-- Waiting ends when the drive is no longer busy, and changes nothing else. -/
theorem total_wait (h : OnDisk s d t)
    (hd : d.base = (s.device dev).base) :
    Total (ataWait dev) t fun _ u => OnDisk s { d with busy := 0 } u := by
  refine Total.loop (fun _ u => u.disk.busy)
    (I := fun _ u => ∃ b, OnDisk s { d with busy := b } u) ?_ ⟨d.busy, h⟩
  rintro ⟨⟩ u ⟨b, hu⟩
  refine (total_status hu hd).bind ?_
  rintro v u' ⟨rfl, hu'⟩
  cases b with
  | zero =>
      -- not busy: the status is one of the three of a drive at rest
      rcases hphase : d.phase with _ | _ | ⟨pos, left⟩ | ⟨pos, left⟩
      all_goals
        simp only [Disk.statusRead, hphase, if_true] at hu' ⊢
        rw [if_neg (by decide), if_pos (by decide)]
        exact total_pure hu'
  | succ b =>
      simp only [Disk.statusRead, Nat.succ_ne_zero, if_false] at hu' ⊢
      rw [if_neg (by decide), if_neg (by decide)]
      refine total_pure ⟨⟨b, hu'⟩, ?_⟩
      rw [hu.disk, hu'.disk]
      exact Nat.lt_succ_self b

/-- The disk after the register writes of a command. -/
theorem issued_eq {task : Taskfile} :
    task.issued d.base d = { d with regs := task }.command task.command := by
  have hlatched : ∀ cmd, { d with regs := { task with command := cmd } }.command task.command =
      { d with regs := task }.command task.command := fun _ => rfl
  rw [← hlatched d.regs.command]
  simp [Taskfile.issued, Bus.outb, Taskfile.latch, ataPort_eq_iff, ataDriveHead, ataError,
    ataSectorCount, ataLbaLo, ataLbaMid, ataLbaHi, ataCommand]

/-- The disk after `issue`. -/
theorem total_issue {task : Taskfile} (h : OnDisk s d t)
    (hd : d.base = (s.device dev).base) :
    Total (issue dev task) t fun _ u =>
      OnDisk s ({ d with regs := task }.command task.command) u := by
  obtain ⟨log, rfl⟩ := h
  refine ⟨(), _, returns_issue.mpr rfl, ?_⟩
  rw [device_setPorts, io_setPorts, setPorts_setPorts, ← hd, issued_eq]
  exact ⟨_, rfl⟩

/-! ### The transfer loops -/

/-- Both loops of a transfer of `count` sectors. `P j` is what holds after `j`
words: waiting for the drive keeps it, and one word takes it from `j` to `j + 1`,
leaving the drive busy after the last word of a sector only. -/
theorem transferLoop_total {P : Nat → AtaState Disk → Prop} {count : U16}
    {word : Nat → Prog (AtaState Disk) Nat}
    (wait : ∀ j s, P j s → Total (ataWait dev) s fun _ t => P j t ∧ t.disk.busy = 0)
    (step : ∀ j s, j < 256 * count.toNat → P j s → s.disk.busy = 0 →
      Total (word (2 * j)) s fun c t =>
        c = 2 * (j + 1) ∧ P (j + 1) t ∧ (¬ 256 ∣ j + 1 → t.disk.busy = 0))
    (init : P 0 s) :
    Total (transferLoop dev count word) s fun c t =>
      c = BitVec.ofNat 32 (512 * count.toNat) ∧ P (256 * count.toNat) t := by
  refine Total.bind (R := fun c t => c = 512 * count.toNat ∧ P (256 * count.toNat) t)
    (Total.loop (fun c _ => 512 * count.toNat - c)
      (I := fun c t => ∃ k ≤ count.toNat, c = 512 * k ∧ P (256 * k) t) ?_
      ⟨0, Nat.zero_le _, rfl, init⟩)
    fun c t h => total_pure ⟨by rw [h.1], h.2⟩
  rintro _ s ⟨k, hk, rfl, hP⟩
  by_cases hlast : k = count.toNat
  · subst hlast
    rw [transferPass_done (Nat.lt_irrefl _)]
    exact total_pure ⟨rfl, hP⟩
  · rw [transferPass_sector (by omega)]
    refine (wait _ s hP).bind ?_
    intro _ t ht
    -- one sector: after `r` of its words
    have sector : Total (repeatN word 256 (512 * k)) t fun c t =>
        c = 2 * (256 * k + 256) ∧ P (256 * k + 256) t ∧ (256 < 256 → t.disk.busy = 0) :=
      Total.repeatN (I := fun r c t => c = 2 * (256 * k + r) ∧ P (256 * k + r) t ∧
        (r < 256 → t.disk.busy = 0))
      (fun r c t hr ⟨hc, hP, hbusy⟩ => by
        rw [hc]
        refine (step _ t (by omega) hP (hbusy hr)).mono fun c u ⟨hc, hP, hready⟩ => ?_
        exact ⟨hc, hP, fun hlt => hready (by omega)⟩)
      ⟨by omega, ht.1, fun _ => ht.2⟩
    refine sector.bind ?_
    intro c u h
    obtain ⟨hc, hP, -⟩ := h
    have hnext : 256 * (k + 1) = 256 * k + 256 := Nat.mul_succ ..
    have hmore : k + 1 ≤ count.toNat := by omega
    have hcount : c = 512 * (k + 1) := by rw [hc, ← hnext, ← Nat.mul_assoc]
    rw [← hnext] at hP
    refine total_pure (Q := fun pass t => _) ⟨⟨k + 1, hmore, hcount, hP⟩, ?_⟩
    omega

/-! ### The drive during a transfer -/

/-- What the drive does after `j` of `total` words. -/
def phaseAfter (next : Nat → Nat → Phase) (start total j : Nat) : Phase :=
  if j < total then next (start + 2 * j) (total - j) else .idle

/-- One word later. The drive may have become busy at the end of a sector. -/
theorem advance_phaseAfter (next : Nat → Nat → Phase) (start : Nat) {total j : Nat}
    (hj : j < total) (hsectors : 256 ∣ total) :
    ∃ busy delays, d.advance next (start + 2 * j) (total - j) =
        { d with phase := phaseAfter next start total (j + 1), busy := busy, delays := delays } ∧
      (¬ 256 ∣ j + 1 → busy = d.busy) := by
  unfold Disk.advance phaseAfter
  by_cases hlast : total - j = 1
  · rw [if_pos hlast, if_neg (by omega)]
    exact ⟨d.busy, d.delays, rfl, fun _ => rfl⟩
  · have hpos : start + 2 * j + 2 = start + 2 * (j + 1) := by omega
    have hleft : total - j - 1 = total - (j + 1) := by omega
    rw [if_neg hlast, if_pos (show j + 1 < total by omega), hpos, hleft]
    split
    · exact ⟨_, _, rfl, fun hend => absurd (by omega) hend⟩
    · exact ⟨d.busy, d.delays, rfl, fun _ => rfl⟩

/-- A read or write command that stays on the drive is taken up. -/
theorem command_fits {task : Taskfile} {next : Nat → Nat → Phase}
    (hfit : task.sector (d.geometry task.unit) + task.sectors ≤ d.blocks task.unit)
    (hnext : task.command = ataCmdReadPio ∧ next = .reading ∨
      task.command = ataCmdWritePio ∧ next = .writing) :
    ∃ busy delays, { d with regs := task }.command task.command =
      { d with
        regs := task
        phase := next (512 * task.sector (d.geometry task.unit)) (256 * task.sectors)
        busy := busy
        delays := delays } := by
  unfold Disk.command
  rw [if_pos hfit]
  rcases hnext with ⟨hcmd, rfl⟩ | ⟨hcmd, rfl⟩
  · rw [if_pos hcmd]
    exact ⟨_, _, rfl⟩
  · rw [if_neg (by rw [hcmd]; decide), if_pos hcmd]
    exact ⟨_, _, rfl⟩

/-- Contents with `n` bytes of one drive replaced. -/
def overwrite (contents : Bool → Nat → U8) (unit : Bool) (start : Nat) (bytes : Nat → U8)
    (n : Nat) (u : Bool) (b : Nat) : U8 :=
  if u = unit ∧ start ≤ b ∧ b < start + n then bytes (b - start) else contents u b

theorem overwrite_zero {contents : Bool → Nat → U8} {unit : Bool} {start : Nat}
    {bytes : Nat → U8} : overwrite contents unit start bytes 0 = contents := by
  funext u b
  exact if_neg (by omega)

/-- Storing two more bytes. -/
theorem overwrite_word {unit : Bool} {start n : Nat} {bytes : Nat → U8}
    {contents : Bool → Nat → U8} (hd : d.contents = overwrite contents unit start bytes n)
    (hunit : d.regs.unit = unit) :
    (d.storeByte (start + n) (bytes n)).storeByte (start + n + 1) (bytes (n + 1)) =
      { d with contents := overwrite contents unit start bytes (n + 2) } := by
  subst hunit
  unfold Disk.storeByte
  congr 1
  funext u b
  show (if u = d.regs.unit ∧ b = start + n + 1 then bytes (n + 1)
    else if u = d.regs.unit ∧ b = start + n then bytes n else d.contents u b) = _
  rw [hd]
  unfold overwrite
  by_cases hu : u = d.regs.unit
  · by_cases hb₁ : b = start + n + 1
    · rw [if_pos ⟨hu, hb₁⟩, if_pos ⟨hu, by omega, by omega⟩, hb₁]
      congr 1
      omega
    · rw [if_neg fun h => hb₁ h.2]
      by_cases hb₀ : b = start + n
      · rw [if_pos ⟨hu, hb₀⟩, if_pos ⟨hu, by omega, by omega⟩, hb₀]
        congr 1
        omega
      · rw [if_neg fun h => hb₀ h.2]
        exact if_congr (and_congr_right fun _ => by omega) rfl rfl
  · rw [if_neg fun h => hu h.1, if_neg fun h => hu h.1, if_neg fun h => hu h.1,
      if_neg fun h => hu h.1]

/-! ### Memory -/

theorem bufferAddr_inj {buffer : U32} {a b : Nat} (ha : a < 2 ^ 32) (hb : b < 2 ^ 32)
    (h : bufferAddr buffer a = bufferAddr buffer b) : a = b := by
  have h' := (BitVec.add_right_inj buffer).mp (BitVec.eq_of_toNat_eq h)
  have := congrArg BitVec.toNat h'
  rw [BitVec.toNat_ofNat, BitVec.toNat_ofNat] at this
  omega

def AtaState.setMem (mem : ByteMem) (s : AtaState Disk) : AtaState Disk :=
  { s with machine := { s.machine with mem := mem } }

theorem returns_storeByte_onMachine {addr : Nat} {v : U8} {u : Unit} :
    (onMachine (storeByte addr v)).Returns s u t ↔ t = s.setMem (s.machine.mem.write8 addr v) := by
  simp only [onMachine, returns_zoom, returns_storeByte]
  constructor
  · rintro ⟨m, rfl, rfl⟩
    rfl
  · rintro rfl
    exact ⟨_, rfl, rfl⟩

/-- Memory `mem` is `before` with the first `n` bytes of the buffer filled. -/
structure Filled (buffer : U32) (bytes : Nat → U8) (before : ByteMem) (n : Nat) (mem : ByteMem) :
    Prop where
  filled : ∀ b < n, mem (bufferAddr buffer b) = bytes b
  other : ∀ a, (∀ b < n, a ≠ bufferAddr buffer b) → mem a = before a

theorem Filled.zero {buffer : U32} {bytes : Nat → U8} {before : ByteMem} :
    Filled buffer bytes before 0 before :=
  ⟨fun _ h => absurd h (Nat.not_lt_zero _), fun _ _ => rfl⟩

/-- Storing the next byte. -/
theorem Filled.push {buffer : U32} {bytes : Nat → U8} {before mem : ByteMem} {n : Nat}
    (h : Filled buffer bytes before n mem) (hn : n < 2 ^ 32) :
    Filled buffer bytes before (n + 1) (mem.write8 (bufferAddr buffer n) (bytes n)) := by
  constructor
  · intro b hb
    by_cases hbn : b = n
    · rw [hbn, ByteMem.write8_same]
    · rw [ByteMem.write8_other fun e => hbn (bufferAddr_inj (by omega) hn e)]
      exact h.filled b (by omega)
  · intro a ha
    rw [ByteMem.write8_other (ha n (Nat.lt_succ_self n))]
    exact h.other a fun b hb => ha b (by omega)

/-! ### Writing -/

/-- The state after `j` words of a write. `d` is the disk that took the command
up, and the bytes come from memory. -/
def Written (s : AtaState Disk) (d : Disk) (buffer : U32) (start total j : Nat)
    (t : AtaState Disk) : Prop :=
  ∃ busy delays, OnDisk s
    { d with
      contents := overwrite d.contents d.regs.unit start
        (fun k => s.machine.mem (bufferAddr buffer k)) (2 * j)
      phase := phaseAfter .writing start total j
      busy := busy
      delays := delays } t

theorem Written.wait {buffer : U32} {start total j : Nat} (hd : d.base = (s.device dev).base)
    (h : Written s d buffer start total j t) :
    Total (ataWait dev) t fun _ u => Written s d buffer start total j u ∧ u.disk.busy = 0 := by
  obtain ⟨busy, delays, h⟩ := h
  exact (total_wait h hd).mono fun _ u hu => ⟨⟨0, delays, hu⟩, congrArg Disk.busy hu.disk⟩

/-- The drive takes a word. -/
theorem dataWrite_word (unit : Bool) (contents : Bool → Nat → U8) (bytes : Nat → U8)
    {start total j : Nat} (hbusy : d.busy = 0)
    (hphase : d.phase = phaseAfter .writing start total j) (hunit : d.regs.unit = unit)
    (hcontents : d.contents = overwrite contents unit start bytes (2 * j)) (hj : j < total)
    (hsectors : 256 ∣ total) :
    ∃ busy delays, d.dataWrite (bytes (2 * j + 1) ++ bytes (2 * j)) =
        { d with
          contents := overwrite contents unit start bytes (2 * (j + 1))
          phase := phaseAfter .writing start total (j + 1)
          busy := busy
          delays := delays } ∧
      (¬ 256 ∣ j + 1 → busy = 0) := by
  obtain ⟨busy, delays, hadvance, hready⟩ := advance_phaseAfter
    (d := { d with contents := overwrite contents unit start bytes (2 * j + 2) })
    .writing start hj hsectors
  refine ⟨busy, delays, ?_, fun hend => (hready hend).trans hbusy⟩
  rw [phaseAfter, if_pos hj] at hphase
  have hlow : (bytes (2 * j + 1) ++ bytes (2 * j) : U16).extractLsb' 0 8 = bytes (2 * j) :=
    BitVec.extractLsb'_append_eq_right
  have hhigh : (bytes (2 * j + 1) ++ bytes (2 * j) : U16).extractLsb' 8 8 = bytes (2 * j + 1) :=
    BitVec.extractLsb'_append_eq_left
  rw [Disk.dataWrite, if_pos hbusy, hphase]
  simp only [hlow, hhigh, overwrite_word hcontents hunit, hadvance]
  rfl

theorem Written.step {buffer : U32} {start total j : Nat} (hd : d.base = (s.device dev).base)
    (hj : j < total) (hsectors : 256 ∣ total) (h : Written s d buffer start total j t)
    (hready : t.disk.busy = 0) :
    Total (writeWord dev buffer (2 * j)) t fun c u =>
      c = 2 * (j + 1) ∧ Written s d buffer start total (j + 1) u ∧
        (¬ 256 ∣ j + 1 → u.disk.busy = 0) := by
  obtain ⟨busy, delays, h⟩ := h
  rw [h.disk] at hready
  obtain ⟨busy', delays', hword, hbusy⟩ := dataWrite_word d.regs.unit d.contents
    (fun k => s.machine.mem (bufferAddr buffer k)) hready rfl rfl rfl hj hsectors
  refine Total.gets_bind (Total.gets_bind ?_)
  rw [h.mem]
  refine (total_outw h hd).bind ?_
  intro _ u hu
  rw [hword] at hu
  exact total_pure ⟨rfl, ⟨busy', delays', hu⟩, fun hend =>
    (congrArg Disk.busy hu.disk).trans (hbusy hend)⟩

/-! ### Reading -/

/-- The state after `j` words of a read. -/
def Fetched (s : AtaState Disk) (d : Disk) (buffer : U32) (start total j : Nat)
    (t : AtaState Disk) : Prop :=
  ∃ busy delays mem, OnDisk (s.setMem mem)
    { d with phase := phaseAfter .reading start total j, busy := busy, delays := delays } t ∧
    Filled buffer (fun k => d.contents d.regs.unit (start + k)) s.machine.mem (2 * j) mem

theorem Fetched.wait {i : Fin 4} {buffer : U32} {start total j : Nat}
    (hd : d.base = (s.device (some i)).base) (h : Fetched s d buffer start total j t) :
    Total (ataWait (some i)) t fun _ u =>
      Fetched s d buffer start total j u ∧ u.disk.busy = 0 := by
  obtain ⟨busy, delays, mem, h, hmem⟩ := h
  exact (total_wait h hd).mono fun _ u hu =>
    ⟨⟨0, delays, mem, hu, hmem⟩, congrArg Disk.busy hu.disk⟩

/-- The drive gives a word. -/
theorem dataRead_word {start total j : Nat} (hbusy : d.busy = 0)
    (hphase : d.phase = phaseAfter .reading start total j) (hj : j < total)
    (hsectors : 256 ∣ total) :
    d.dataRead.1 = d.word (start + 2 * j) ∧
      ∃ busy delays, d.dataRead.2 =
          { d with
            phase := phaseAfter .reading start total (j + 1), busy := busy, delays := delays } ∧
        (¬ 256 ∣ j + 1 → busy = 0) := by
  obtain ⟨busy, delays, hadvance, hready⟩ :=
    advance_phaseAfter (d := d) .reading start hj hsectors
  rw [phaseAfter, if_pos hj] at hphase
  rw [Disk.dataRead, if_pos hbusy, hphase]
  exact ⟨rfl, busy, delays, hadvance, fun hend => (hready hend).trans hbusy⟩

theorem total_storeByte {addr : Nat} {v : U8} (h : OnDisk s d t) :
    Total (onMachine (storeByte addr v)) t fun _ u =>
      OnDisk (s.setMem (s.machine.mem.write8 addr v)) d u := by
  obtain ⟨log, rfl⟩ := h
  exact ⟨(), _, returns_storeByte_onMachine.mpr rfl, log, rfl⟩

theorem Fetched.step {i : Fin 4} {buffer : U32} {start total j : Nat}
    (hd : d.base = (s.device (some i)).base) (hj : j < total) (hsectors : 256 ∣ total)
    (hsize : 2 * total < 2 ^ 32) (h : Fetched s d buffer start total j t)
    (hready : t.disk.busy = 0) :
    Total (readWord (some i) buffer (2 * j)) t fun c u =>
      c = 2 * (j + 1) ∧ Fetched s d buffer start total (j + 1) u ∧
        (¬ 256 ∣ j + 1 → u.disk.busy = 0) := by
  obtain ⟨busy, delays, mem, h, hmem⟩ := h
  rw [h.disk] at hready
  obtain ⟨hword, busy', delays', hread, hbusy⟩ := dataRead_word hready rfl hj hsectors
  refine (total_inw h hd).bind ?_
  rintro data u ⟨hdata, hu⟩
  rw [hread] at hu
  rw [hword] at hdata
  have hlow : data.extractLsb' 0 8 = d.contents d.regs.unit (start + 2 * j) := by
    rw [hdata]
    exact BitVec.extractLsb'_append_eq_right
  have hhigh : data.extractLsb' 8 8 = d.contents d.regs.unit (start + (2 * j + 1)) := by
    rw [hdata]
    exact BitVec.extractLsb'_append_eq_left
  refine (total_storeByte hu).bind fun _ u hu => (total_storeByte hu).bind fun _ u hu => ?_
  rw [hlow, hhigh] at hu
  exact total_pure ⟨rfl, ⟨busy', delays', _, hu, (hmem.push (by omega)).push (by omega)⟩,
    fun hend => (congrArg Disk.busy hu.disk).trans (hbusy hend)⟩

/-! ### Whole transfers -/

/-- A command for the channel's disk that moves `count` sectors and stays on the
drive. -/
structure InRange (s : AtaState Disk) (i : Fin 4) (task : Taskfile) (count : U16) : Prop where
  attached : s.disk.base = (s.ataDevices i).base
  count_pos : 0 < count.toNat
  sectors : task.sectors = count.toNat
  fits : task.sector (s.disk.geometry task.unit) + count.toNat ≤ s.disk.blocks task.unit

/-- The byte at which a command starts. -/
def startByte (s : AtaState Disk) (task : Taskfile) : Nat :=
  512 * task.sector (s.disk.geometry task.unit)

theorem InRange.count_le {i : Fin 4} {task : Taskfile} {count : U16} (h : InRange s i task count) :
    count.toNat ≤ 256 := by
  rw [← h.sectors, Taskfile.sectors]
  have := task.count.isLt
  split <;> omega

variable {i : Fin 4} {count : U16} {buffer : U32}

/-- Any transfer: `next` is its phase and `P` its invariant. -/
theorem transfer_total {task : Bool → Taskfile} {next : Nat → Nat → Phase}
    {word : Nat → Prog (AtaState Disk) Nat} {P : Disk → Nat → AtaState Disk → Prop}
    (hr : InRange s i (task (s.ataDevices i).slaveSelected) count)
    (hnext : (task (s.ataDevices i).slaveSelected).command = ataCmdReadPio ∧ next = .reading ∨
      (task (s.ataDevices i).slaveSelected).command = ataCmdWritePio ∧ next = .writing)
    (init : ∀ d busy delays t, OnDisk s
        { d with
          phase := next (startByte s (task (s.ataDevices i).slaveSelected)) (256 * count.toNat)
          busy := busy
          delays := delays } t →
      P d 0 t)
    (wait : ∀ d j t, d.base = (s.ataDevices i).base → P d j t →
      Total (ataWait (some i)) t fun _ u => P d j u ∧ u.disk.busy = 0)
    (step : ∀ d j t, d.base = (s.ataDevices i).base → j < 256 * count.toNat → P d j t →
      t.disk.busy = 0 → Total (word (2 * j)) t fun c u =>
        c = 2 * (j + 1) ∧ P d (j + 1) u ∧ (¬ 256 ∣ j + 1 → u.disk.busy = 0)) :
    Total (transfer (some i) count task word) s fun c t =>
      c = BitVec.ofNat 32 (512 * count.toNat) ∧
        P { s.disk with regs := task (s.ataDevices i).slaveSelected } (256 * count.toNat) t := by
  refine Total.gets_bind ?_
  have hdevice : s.device (some i) = s.ataDevices i := rfl
  rw [hdevice]
  have hbase : s.disk.base = (s.device (some i)).base := hr.attached
  refine (total_issue .refl hbase).bind ?_
  intro _ t ht
  obtain ⟨busy, delays, hcommand⟩ := command_fits (d := s.disk)
    (by rw [hr.sectors]; exact hr.fits) hnext
  rw [hcommand, hr.sectors] at ht
  exact transferLoop_total (fun j t => wait _ j t hr.attached)
    (fun j t hj => step _ j t hr.attached hj) (init _ busy delays t ht)

/-- A write command replaces the addressed bytes of its drive. -/
theorem transfer_write_total (task : Bool → Taskfile) (buffer : U32)
    (hr : InRange s i (task (s.ataDevices i).slaveSelected) count)
    (hcmd : (task (s.ataDevices i).slaveSelected).command = ataCmdWritePio) :
    Total (transfer (some i) count task (writeWord (some i) buffer)) s fun c t =>
      c = BitVec.ofNat 32 (512 * count.toNat) ∧
        ∃ d, OnDisk s d t ∧ d.base = s.disk.base ∧ d.blocks = s.disk.blocks ∧
          d.geometry = s.disk.geometry ∧
          d.contents = overwrite s.disk.contents (task (s.ataDevices i).slaveSelected).unit
            (startByte s (task (s.ataDevices i).slaveSelected))
            (fun k => s.machine.mem (bufferAddr buffer k)) (512 * count.toNat) := by
  have hpos := hr.count_pos
  refine (transfer_total (P := fun d => Written s d buffer
      (startByte s (task (s.ataDevices i).slaveSelected)) (256 * count.toNat))
    hr (.inr ⟨hcmd, rfl⟩) ?_ (fun d j t hd h => h.wait hd)
    (fun d j t hd hj h =>
      have hbase : d.base = (s.device (some i)).base := hd
      Written.step hbase hj ⟨_, rfl⟩ h)).mono ?_
  · intro d busy delays t ht
    refine ⟨busy, delays, ?_⟩
    rw [Nat.mul_zero, overwrite_zero, phaseAfter, if_pos (by omega)]
    exact ht
  · rintro c t ⟨hc, busy, delays, ht⟩
    have hbytes : 2 * (256 * count.toNat) = 512 * count.toNat := by omega
    exact ⟨hc, _, ht, rfl, rfl, rfl, by simp only [hbytes]⟩

/-- A read command fills the buffer with the addressed bytes of its drive. -/
theorem transfer_read_total (task : Bool → Taskfile) (buffer : U32)
    (hr : InRange s i (task (s.ataDevices i).slaveSelected) count)
    (hcmd : (task (s.ataDevices i).slaveSelected).command = ataCmdReadPio) :
    Total (transfer (some i) count task (readWord (some i) buffer)) s fun c t =>
      c = BitVec.ofNat 32 (512 * count.toNat) ∧ t.disk.contents = s.disk.contents ∧
        Filled buffer
          (fun k => s.disk.contents (task (s.ataDevices i).slaveSelected).unit
            (startByte s (task (s.ataDevices i).slaveSelected) + k))
          s.machine.mem (512 * count.toNat) t.machine.mem := by
  have hpos := hr.count_pos
  have hle := hr.count_le
  refine (transfer_total (P := fun d => Fetched s d buffer
      (startByte s (task (s.ataDevices i).slaveSelected)) (256 * count.toNat))
    hr (.inl ⟨hcmd, rfl⟩) ?_ (fun d j t hd h => h.wait hd)
    (fun d j t hd hj h => h.step hd hj ⟨_, rfl⟩ (by omega))).mono ?_
  · intro d busy delays t ht
    refine ⟨busy, delays, s.machine.mem, ?_, Filled.zero⟩
    rw [phaseAfter, if_pos (by omega)]
    exact ht
  · rintro c t ⟨hc, busy, delays, mem, ht, hmem⟩
    have hbytes : 2 * (256 * count.toNat) = 512 * count.toNat := by omega
    rw [hbytes] at hmem
    exact ⟨hc, by rw [ht.disk], by rw [ht.mem]; exact hmem⟩

/-- So every call of a transfer function in range returns. -/
theorem Transfer.run_total {r : Transfer}
    (hr : InRange s i (r.task (s.ataDevices i).slaveSelected) r.count) :
    ∃ c t, (r.run (some i)).Returns s c t := by
  have hcmd : (r.task (s.ataDevices i).slaveSelected).command = r.command := count_task.2
  rw [Transfer.run_eq]
  cases hwrite : r.write with
  | false =>
      rw [Transfer.command, hwrite] at hcmd
      obtain ⟨c, t, h, -⟩ := transfer_read_total r.task r.buffer hr hcmd
      exact ⟨c, t, h⟩
  | true =>
      rw [Transfer.command, hwrite] at hcmd
      obtain ⟨c, t, h, -⟩ := transfer_write_total r.task r.buffer hr hcmd
      exact ⟨c, t, h⟩

/-! ### Writing and reading back -/

/-- Sectors by LBA on the drive that the channel has selected. -/
structure LbaRange (s : AtaState Disk) (i : Fin 4) (sector : U32) (count : U16) : Prop where
  attached : s.disk.base = (s.ataDevices i).base
  count_pos : 0 < count.toNat
  count_lt : count.toNat < 256
  lba : sector.toNat < 2 ^ 28
  fits : sector.toNat + count.toNat ≤ s.disk.blocks (s.ataDevices i).slaveSelected

variable {sector : U32}

theorem LbaRange.inRange {cmd : U8} (h : LbaRange s i sector count) :
    InRange s i (lbaTaskfile (s.ataDevices i).slaveSelected sector count cmd) count where
  attached := h.attached
  count_pos := h.count_pos
  sectors := sectors_lbaTaskfile h.count_pos h.count_lt
  fits := by
    rw [sector_lbaTaskfile h.lba, unit_lbaTaskfile]
    exact h.fits

theorem LbaRange.startByte {cmd : U8} (h : LbaRange s i sector count) :
    startByte s (lbaTaskfile (s.ataDevices i).slaveSelected sector count cmd) =
      512 * sector.toNat := by
  rw [MyBios.startByte, sector_lbaTaskfile h.lba]

/-- The sectors `[sector, sector + count)` of a drive, by byte. -/
def InSectors (sector : U32) (count : U16) (b : Nat) : Prop :=
  512 * sector.toNat ≤ b ∧ b < 512 * (sector.toNat + count.toNat)

/-- A write and then a read of the same sectors: both return, with the number of
bytes; the destination holds the bytes written; the rest of both drives is as
before. -/
theorem write_then_read (src dst : U32) (hr : LbaRange s i sector count) :
    ∃ c t c' u, (ataWriteLba (some i) sector count src).Returns s c t ∧
      (ataReadLba (some i) sector count dst).Returns t c' u ∧
      c.toNat = 512 * count.toNat ∧ c'.toNat = 512 * count.toNat ∧
      (∀ k < 512 * count.toNat,
        u.machine.mem (bufferAddr dst k) = s.machine.mem (bufferAddr src k)) ∧
      ∀ unit b, ¬ (unit = (s.ataDevices i).slaveSelected ∧ InSectors sector count b) →
        u.disk.contents unit b = s.disk.contents unit b := by
  have hlt := hr.count_lt
  have hsize : (BitVec.ofNat 32 (512 * count.toNat)).toNat = 512 * count.toNat := by
    rw [BitVec.toNat_ofNat]
    omega
  obtain ⟨c, t, hwrite, rfl, d, ht, hbase, hblocks, -, hcontents⟩ :=
    transfer_write_total (lbaTaskfile · sector count ataCmdWritePio) src hr.inRange rfl
  obtain ⟨log, rfl⟩ := ht
  have hr' : LbaRange (s.setPorts ⟨d, log⟩) i sector count :=
    ⟨hbase.trans hr.attached, hr.count_pos, hlt, hr.lba, by
      show _ ≤ d.blocks _
      rw [hblocks]
      exact hr.fits⟩
  obtain ⟨c', u, hread, rfl, hkept, hfilled⟩ :=
    transfer_read_total (lbaTaskfile · sector count ataCmdReadPio) dst hr'.inRange rfl
  rw [hr.startByte, unit_lbaTaskfile] at hcontents
  rw [hr'.startByte, unit_lbaTaskfile] at hfilled
  refine ⟨_, _, _, u, hwrite, hread, hsize, hsize, fun k hk => ?_, fun unit b hb => ?_⟩
  · rw [hfilled.filled k hk]
    show d.contents _ _ = _
    rw [hcontents, overwrite, if_pos ⟨rfl, by omega, by omega⟩, Nat.add_sub_cancel_left]
  · rw [hkept]
    show d.contents _ _ = _
    rw [hcontents, overwrite, if_neg]
    rintro ⟨hunit, hle, hlt⟩
    exact hb ⟨hunit, hle, by omega⟩

/-- A machine with numbers in memory and a blank drive of 64 sectors. -/
def numbered : AtaState Disk :=
  (AtaState.booted (.blank 0x1F0 ⟨4, 4, 4⟩) .empty).setMem fun a => BitVec.ofNat 8 (a + 1)

/-- Two sectors of numbers: they come back, and the others are still blank. -/
theorem write_then_read_two :
    ∃ c t c' u, (ataWriteLba (some 0) 5 2 0x1000).Returns numbered c t ∧
      (ataReadLba (some 0) 5 2 0x2000).Returns t c' u ∧ c.toNat = 1024 ∧ c'.toNat = 1024 ∧
      (∀ k < 1024, u.machine.mem (bufferAddr 0x2000 k) =
        BitVec.ofNat 8 (bufferAddr 0x1000 k + 1)) ∧
      ∀ unit b, ¬ (unit = false ∧ InSectors 5 2 b) → u.disk.contents unit b = 0 := by
  have hr : LbaRange numbered 0 5 2 := ⟨rfl, by decide, by decide, by decide, by decide⟩
  obtain ⟨c, t, c', u, hwrite, hread, hc, hc', hdata, hother⟩ :=
    write_then_read 0x1000 0x2000 hr
  exact ⟨c, t, c', u, hwrite, hread, hc, hc', hdata, hother⟩

end MyBios
