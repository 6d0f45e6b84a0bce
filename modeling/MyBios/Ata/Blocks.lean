import MyBios.Ata.RoundTrip
import MyBios.Bios.Disk

/-!
The number of sectors a command asks for against the number the driver moves.

The sector count register has 8 bits, and 0 in it stands for 256. The loops of the
driver run to the 16-bit count.

* `transferLoop_words`: the loops move 256 words for each of `count` sectors.
* `blocksMatch_iff`: that is what the command asks for from 1 to 256 sectors.
* `int13_blocksMatch_iff`: AH=02 and 03 pass any AL, and fail for 0.
-/

namespace MyBios

open Prog AtaState

/-- The access moves a word. -/
def PortEvent.isWord : PortEvent → Bool
  | .inw _ _ => true
  | .outw _ _ => true
  | _ => false

def PortEvent.port : PortEvent → U16
  | .inb port _ => port
  | .inw port _ => port
  | .outb port _ => port
  | .outw port _ => port

/-- The number of words moved by a run of accesses. -/
def wordsMoved (log : List PortEvent) : Nat := log.countP (·.isWord)

/-- All words cross the data register of the channel. (The fields behind a null pointer
are memory, which a transfer may overwrite.) -/
def ThroughData {δ : Type} (dev : DevRef) (s : AtaState δ) (log : List PortEvent) : Prop :=
  ∀ i, dev = some i → ∀ e ∈ log, e.isWord = true → e.port = ataPort (s.ataDevices i).base ataData

/-- Since `s`, one command was issued, and the words of as many sectors as it asks for
were moved through the data register. -/
structure BlocksMatch {δ : Type} (dev : DevRef) (s t : AtaState δ) : Prop where
  sectors : ∃ task, commandsSince (s.device dev).base s t = [task] ∧
    wordsMoved (t.log.drop s.log.length) = 256 * task.sectors
  data : ThroughData dev s (t.log.drop s.log.length)

variable {δ : Type} {dev : DevRef}

/-! ### Counting words -/

theorem wordsMoved_append {log log' : List PortEvent} :
    wordsMoved (log ++ log') = wordsMoved log + wordsMoved log' :=
  List.countP_append

/-- From `s` to `t`, `n` words were moved, all through the data register. -/
structure Moved (dev : DevRef) (n : Nat) (s t : AtaState δ) : Prop where
  ataDevices : t.ataDevices = s.ataDevices
  log : ∃ data, t.log = s.log ++ data ∧ wordsMoved data = n ∧ ThroughData dev s data

namespace Moved

variable {n m : Nat} {s t u : AtaState δ}

theorem refl : Moved dev 0 s s :=
  ⟨rfl, [], (List.append_nil _).symm, rfl, fun _ _ _ he => absurd he List.not_mem_nil⟩

theorem trans (h : Moved dev n s t) (h' : Moved dev m t u) : Moved dev (n + m) s u := by
  obtain ⟨hdevices, data, hdata, hn, hports⟩ := h
  obtain ⟨hdevices', data', hdata', hm, hports'⟩ := h'
  refine ⟨hdevices'.trans hdevices, data ++ data', ?_, ?_, ?_⟩
  · rw [hdata', hdata, List.append_assoc]
  · rw [wordsMoved_append, hn, hm]
  · intro i hi e he hword
    rcases List.mem_append.mp he with he | he
    · exact hports i hi e he hword
    · rw [hports' i hi e he hword, hdevices]

/-- One access. -/
theorem access {io : Ports δ} {e : PortEvent} (hlog : io.log = s.log ++ [e])
    (hn : wordsMoved [e] = n) (hport : ThroughData dev s [e]) : Moved dev n s (s.setPorts io) :=
  ⟨rfl, [e], hlog, hn, hport⟩

end Moved

/-- Wherever `p` returns, it has moved `n` words. -/
def MovesWords {α : Type} (dev : DevRef) (n : Nat) (p : Prog (AtaState δ) α) : Prop :=
  ∀ s a t, p.Returns s a t → Moved dev n s t

namespace MovesWords

variable {α β : Type} {n m : Nat}

theorem pure {a : α} : MovesWords dev 0 (pure a : Prog (AtaState δ) α) := by
  intro s b t h
  rw [(returns_pure.mp h).2]
  exact .refl

theorem gets {f : AtaState δ → α} : MovesWords dev 0 (Prog.gets f) := by
  intro s a t h
  rw [(returns_gets.mp h).2]
  exact .refl

theorem bind {p : Prog (AtaState δ) α} {f : α → Prog (AtaState δ) β} (hp : MovesWords dev n p)
    (hf : ∀ a, MovesWords dev m (f a)) : MovesWords dev (n + m) (p >>= f) := by
  intro s b u h
  obtain ⟨a, t, hfirst, hrest⟩ := returns_bind.mp h
  exact (hp s a t hfirst).trans (hf a t b u hrest)

theorem ite {c : Prop} [Decidable c] {p q : Prog (AtaState δ) α} (hp : MovesWords dev n p)
    (hq : MovesWords dev n q) : MovesWords dev n (if c then p else q) := by
  split
  · exact hp
  · exact hq

/-- A loop whose passes move no words moves none. -/
theorem loop {γ : Type} {body : β → Prog (AtaState δ) (Pass β γ)}
    (h : ∀ b, MovesWords dev 0 (body b)) {b : β} : MovesWords dev 0 (Prog.loop body b) := by
  intro s c u hr
  obtain ⟨b', t, hmoved, hlast⟩ := hr.loop_induct (I := fun _ t => Moved dev 0 s t)
    (fun b t b' t' hmoved hpass => hmoved.trans (h b t _ t' hpass)) .refl
  exact hmoved.trans (h b' t _ u hlast)

theorem repeatN {body : β → Prog (AtaState δ) β} (h : ∀ b, MovesWords dev 1 (body b)) :
    ∀ {n : Nat} {b : β}, MovesWords dev n (Prog.repeatN body n b)
  | 0, _ => pure
  | n + 1, b => by
      have hall := (h b).bind fun b' => MovesWords.repeatN h (n := n) (b := b')
      rwa [Nat.add_comm] at hall

theorem storeByte {addr : Nat} {v : U8} :
    MovesWords dev 0 (onMachine (δ := δ) (MyBios.storeByte addr v)) := by
  intro s u t h
  obtain ⟨m, hm, rfl⟩ := returns_zoom.mp h
  rw [returns_storeByte.mp hm]
  exact ⟨rfl, [], (List.append_nil _).symm, rfl, fun _ _ _ he => absurd he List.not_mem_nil⟩

variable [Bus δ]

theorem inb {reg : U32} : MovesWords (δ := δ) dev 0 (ataInb dev reg) := by
  intro s v t h
  rw [(returns_ataInb.mp h).2]
  refine .access rfl rfl ?_
  intro i _ e he hword
  rw [List.mem_singleton.mp he] at hword
  cases hword

theorem inw : MovesWords (δ := δ) dev 1 (ataInw dev ataData) := by
  intro s v t h
  rw [(returns_ataInw.mp h).2]
  refine .access rfl rfl ?_
  rintro i rfl e he -
  rw [List.mem_singleton.mp he]
  rfl

theorem outw {v : U16} : MovesWords (δ := δ) dev 1 (ataOutw dev ataData v) := by
  intro s u t h
  rw [returns_ataOutw.mp h]
  refine .access rfl rfl ?_
  rintro i rfl e he -
  rw [List.mem_singleton.mp he]
  rfl

theorem wait : MovesWords (δ := δ) dev 0 (ataWait dev) :=
  loop fun _ => inb.bind (m := 0) fun _ => pure.ite (pure.ite pure)

theorem readWord {buffer : U32} {c : Nat} : MovesWords (δ := δ) dev 1 (readWord dev buffer c) :=
  inw.bind (m := 0) fun _ => storeByte.bind (m := 0) fun _ => storeByte.bind (m := 0) fun _ => pure

theorem writeWord {buffer : U32} {c : Nat} : MovesWords (δ := δ) dev 1 (writeWord dev buffer c) :=
  gets.bind (m := 1) fun _ => gets.bind (m := 1) fun _ => outw.bind (m := 0) fun _ => pure

end MovesWords

/-! ### Transfers -/

variable [Bus δ] {s t : AtaState δ}

/-- A word loop moves its words one at a time, 2 bytes each. -/
structure WordLoop (dev : DevRef) (word : Nat → Prog (AtaState δ) Nat) : Prop where
  moves : ∀ c, MovesWords dev 1 (word c)
  next : ∀ {c s c' t}, (word c).Returns s c' t → c' = c + 2

theorem wordLoop_readWord {buffer : U32} : WordLoop (δ := δ) dev (readWord dev buffer) := by
  refine ⟨fun _ => .readWord, ?_⟩
  intro c s c' t h
  obtain ⟨_, _, -, h⟩ := returns_bind.mp h
  obtain ⟨_, _, -, h⟩ := returns_bind.mp h
  obtain ⟨_, _, -, h⟩ := returns_bind.mp h
  exact (returns_pure.mp h).1

theorem wordLoop_writeWord {buffer : U32} : WordLoop (δ := δ) dev (writeWord dev buffer) := by
  refine ⟨fun _ => .writeWord, ?_⟩
  intro c s c' t h
  obtain ⟨_, _, -, h⟩ := returns_bind.mp h
  obtain ⟨_, _, -, h⟩ := returns_bind.mp h
  obtain ⟨_, _, -, h⟩ := returns_bind.mp h
  exact (returns_pure.mp h).1

omit [Bus δ] in
theorem WordLoop.repeatN {word : Nat → Prog (AtaState δ) Nat} (hword : WordLoop dev word) :
    ∀ {n c c' : Nat} {s t : AtaState δ}, (repeatN word n c).Returns s c' t → c' = c + 2 * n
  | 0, _, _, _, _, h => (returns_pure.mp h).1
  | n + 1, c, c', s, t, h => by
      obtain ⟨c₁, s₁, hfirst, hrest⟩ := returns_bind.mp h
      rw [hword.repeatN hrest, hword.next hfirst]
      omega

/-- The loops move 256 words for each of `count` sectors, and return the bytes. -/
theorem transferLoop_words {count : U16} {word : Nat → Prog (AtaState δ) Nat}
    (hword : WordLoop dev word) {c : U32} (h : (transferLoop dev count word).Returns s c t) :
    c = BitVec.ofNat 32 (512 * count.toNat) ∧ Moved dev (256 * count.toNat) s t := by
  obtain ⟨n, t', hloop, hreturn⟩ := returns_bind.mp h
  obtain ⟨rfl, rfl⟩ := returns_pure.mp hreturn
  -- after `k` sectors
  obtain ⟨c', t₁, ⟨k, hk, rfl, hmoved⟩, hlast⟩ := hloop.loop_induct
    (I := fun c t => ∃ k ≤ count.toNat, c = 512 * k ∧ Moved dev (256 * k) s t)
    (by
      rintro _ u c' u' ⟨k, hk, rfl, hmoved⟩ hpass
      obtain ⟨hmore, v, u₁, hwait, hwords⟩ := returns_transferPass_again.mp hpass
      have hmove := MovesWords.repeatN hword.moves _ _ _ hwords
      have hsector := (MovesWords.wait _ _ _ hwait).trans hmove
      have hc := hword.repeatN hwords
      have hnext := hmoved.trans hsector
      rw [Nat.zero_add, ← Nat.mul_succ] at hnext
      exact ⟨k + 1, by omega, by omega, hnext⟩)
    ⟨0, Nat.zero_le _, rfl, .refl⟩
  obtain ⟨hlast, rfl, rfl⟩ := returns_transferPass_done.mp hlast
  obtain rfl : k = count.toNat := by omega
  exact ⟨rfl, hmoved⟩

/-- `issue` moves no words. -/
theorem movesWords_issue {task : Taskfile} : MovesWords (δ := δ) dev 0 (issue dev task) := by
  intro s u t h
  obtain rfl := returns_issue.mp h
  have hbytes : ∀ e ∈ task.writes (s.device dev).base, e.isWord = false := by
    simp [Taskfile.writes, PortEvent.isWord]
  refine ⟨rfl, _, log_setPorts, ?_, ?_⟩
  · rw [wordsMoved, List.countP_eq_zero]
    simpa using hbytes
  · intro i _ e he hword
    rw [hbytes e he] at hword
    cases hword

theorem transfer_words {count : U16} {task : Bool → Taskfile}
    {word : Nat → Prog (AtaState δ) Nat} {c : U32} (hword : WordLoop dev word)
    (h : (transfer dev count task word).Returns s c t) :
    c = BitVec.ofNat 32 (512 * count.toNat) ∧ Moved dev (256 * count.toNat) s t := by
  obtain ⟨_, s₁, hget, h⟩ := returns_bind.mp h
  obtain ⟨rfl, rfl⟩ := returns_gets.mp hget
  obtain ⟨⟨⟩, s₂, hissue, hloop⟩ := returns_bind.mp h
  obtain ⟨hc, hmoved⟩ := transferLoop_words hword hloop
  have hall := (movesWords_issue _ _ _ hissue).trans hmoved
  rw [Nat.zero_add] at hall
  exact ⟨hc, hall⟩

/-- Each of the four functions moves `count` sectors, whatever the drive does. -/
theorem Transfer.run_words {r : Transfer} {c : U32} (h : (r.run dev).Returns s c t) :
    c = BitVec.ofNat 32 (512 * r.count.toNat) ∧ Moved dev (256 * r.count.toNat) s t := by
  rw [Transfer.run_eq] at h
  refine transfer_words ?_ h
  split
  · exact wordLoop_writeWord
  · exact wordLoop_readWord

/-- The low byte of a 16-bit count stands for the count from 1 to 256. -/
theorem sectors_eq_iff {task : Taskfile} {count : U16} (h : task.count = count.setWidth 8) :
    task.sectors = count.toNat ↔ 1 ≤ count.toNat ∧ count.toNat ≤ 256 := by
  have hlt := count.isLt
  have hbyte : (count.setWidth 8).toNat = count.toNat % 256 := by rw [BitVec.toNat_setWidth]
  have hzero : count.setWidth 8 = 0 ↔ count.toNat % 256 = 0 := by
    rw [← hbyte]
    exact ⟨fun h => by rw [h]; rfl, fun h => BitVec.eq_of_toNat_eq h⟩
  rw [Taskfile.sectors, h]
  by_cases hwrap : count.setWidth 8 = 0
  · have hmod := hzero.mp hwrap
    rw [if_pos hwrap]
    omega
  · have hmod := mt hzero.mpr hwrap
    rw [if_neg hwrap, hbyte]
    omega

/-- The driver moves what it asked for exactly from 1 to 256 sectors. -/
theorem blocksMatch_iff {r : Transfer} {c : U32} (h : (r.run dev).Returns s c t) :
    BlocksMatch dev s t ↔ 1 ≤ r.count.toNat ∧ r.count.toNat ≤ 256 := by
  obtain ⟨-, -, data, hdata, hmoved, hports⟩ := Transfer.run_words h
  have hcommand := Transfer.run_command h
  have hsince : t.log.drop s.log.length = data := by rw [hdata, List.drop_left]
  have hcount : (r.task (s.device dev).slaveSelected).count = r.count.setWidth 8 := count_task.1
  rw [← sectors_eq_iff hcount]
  constructor
  · rintro ⟨⟨task, htask, hsame⟩, -⟩
    rw [hcommand] at htask
    cases htask
    rw [hsince, hmoved] at hsame
    omega
  · intro hsectors
    refine ⟨⟨_, hcommand, ?_⟩, ?_⟩
    · rw [hsince, hmoved, hsectors]
    · rw [hsince]
      exact hports

/-- INT 13h passes AL on, and a request for 0 sectors asks the drive for 256. -/
theorem int13_blocksMatch_iff {frame reply : ItrFrameRealMode} (hah : IsTransfer frame)
    (hdl : frame.dl = 0x80) (h : (biosHandleDiskInterrupt frame).Returns s reply t) :
    BlocksMatch (s.devAtaDrives 0).dev s t ↔ frame.al ≠ 0 := by
  obtain ⟨-, c, hrun⟩ := (transfer_reply hah hdl).mp h
  have hcount : (int13Transfer (s.devAtaDrives 0) frame).count.toNat = frame.al.toNat := by
    have hlt := frame.al.isLt
    rw [int13Transfer, BitVec.toNat_setWidth]
    omega
  have hzero : frame.al = 0 ↔ frame.al.toNat = 0 :=
    ⟨fun h => by rw [h]; rfl, fun h => BitVec.eq_of_toNat_eq h⟩
  have hlt := frame.al.isLt
  rw [blocksMatch_iff hrun, hcount, ne_eq, hzero]
  omega

/-! ### On the disk -/

/-- One sector. -/
theorem blocksMatch_iff_one :
    ∃ c t, (Transfer.run (δ := Disk) ⟨false, .lba 5, 1, 0x7C00⟩ (some 0)).Returns
        (.booted (.blank 0x1F0 ⟨16, 16, 16⟩) .empty) c t ∧
      BlocksMatch (some 0) (.booted (.blank 0x1F0 ⟨16, 16, 16⟩) .empty) t := by
  obtain ⟨c, t, h⟩ := Transfer.run_total (r := ⟨false, .lba 5, 1, 0x7C00⟩) (i := 0)
    (s := .booted (.blank 0x1F0 ⟨16, 16, 16⟩) .empty)
    ⟨rfl, by decide, by decide, by decide⟩
  exact ⟨c, t, h, (blocksMatch_iff h).mpr ⟨by decide, by decide⟩⟩

/-- A read of 0 sectors issues its command and returns. -/
theorem read_zero {s : AtaState Disk} {i : Fin 4} {sector buffer : U32}
    (hbase : s.disk.base = (s.ataDevices i).base) :
    ∃ t, (ataReadLba (some i) sector 0 buffer).Returns s 0 t ∧
      t.disk = { s.disk with
        regs := lbaTaskfile (s.ataDevices i).slaveSelected sector 0 ataCmdReadPio }.command
          ataCmdReadPio := by
  have hloop : ∀ t : AtaState Disk,
      (transferLoop (some i) 0 (readWord (some i) buffer)).Returns t 0 t := by
    intro t
    refine .bind (a := 0) (t := t) (returns_loop.mpr (.inl ?_)) (returns_pure.mpr ⟨rfl, rfl⟩)
    rw [transferPass_done (by decide)]
    exact returns_pure.mpr ⟨rfl, rfl⟩
  have htotal : ∀ task, Total (issue (some i) task) s fun _ t =>
      OnDisk s ({ s.disk with regs := task }.command task.command) t :=
    fun _ => total_issue .refl hbase
  obtain ⟨_, t, hissue, hdisk⟩ :=
    htotal (lbaTaskfile (s.ataDevices i).slaveSelected sector 0 ataCmdReadPio)
  refine ⟨t, ?_, hdisk.disk⟩
  exact .bind (returns_gets.mpr ⟨rfl, rfl⟩) (hissue.bind (hloop t))

/-- It leaves the disk in the middle of a transfer of 256. -/
theorem blocksMatch_zero_fails :
    ∃ c t, (ataReadLba (some 0) 0 0 0x7C00).Returns
        (.booted (.blank 0x1F0 ⟨16, 16, 16⟩) .empty) c t ∧
      t.disk.phase = .reading 0 (256 * 256) ∧
      ¬ BlocksMatch (some 0) (.booted (.blank 0x1F0 ⟨16, 16, 16⟩) .empty) t := by
  obtain ⟨t, hrun, hdisk⟩ :=
    read_zero (s := .booted (.blank 0x1F0 ⟨16, 16, 16⟩) .empty) (i := 0) rfl
  refine ⟨0, t, hrun, ?_, ?_⟩
  · rw [hdisk]
    decide
  · intro hmatch
    obtain ⟨task, htask, hwords⟩ := hmatch.sectors
    have hcommand := Transfer.run_command (r := ⟨false, .lba 0, 0, 0x7C00⟩) hrun
    obtain ⟨-, -, data, hdata, hmoved, -⟩ :=
      Transfer.run_words (r := ⟨false, .lba 0, 0, 0x7C00⟩) hrun
    rw [hcommand] at htask
    cases htask
    rw [hdata, List.drop_left, hmoved] at hwords
    exact absurd hwords (by decide)

end MyBios
