import MyBios.Ata.Polling
import MyBios.Ata.Blocks

/-!
What `ata_read_lba` returns, against what the drive said.

Before each sector the driver polls the status until BSY is clear. It looks at no other
bit, so that an error, a device fault or a missing drive ends the wait as well, and the
words are read all the same.

* `returns_pass`: one sector is a wait and 256 words, whatever the status was.
* `readReported_iff`: the result tells whether the read worked exactly when it did work.
-/

namespace MyBios

open Prog Poll AtaState

def ataStatusDf : U8 := 0x20

/-- The drive has the data of a sector: BSY clear, DRQ set, ERR and DF clear. -/
def DataReady (v : U8) : Prop :=
  v &&& ataStatusBsy = 0 ∧ v &&& ataStatusDrq ≠ 0 ∧ v &&& ataStatusErr = 0 ∧
    v &&& ataStatusDf = 0

theorem DataReady.notBusy {v : U8} (h : DataReady v) : NotBusy v := h.1

/-- The accesses since a command are `n` sectors of 256 words, and before each of them
some status was `P`. -/
def Announced (P : U8 → Prop) (base : U32) : Nat → List PortEvent → Prop
  | 0, log => log = []
  | n + 1, log => ∃ (statuses : List U8) (words : List U16) (rest : List PortEvent),
      log = statuses.map (.inb (statusPort base)) ++ (words.map (.inw (dataPort base)) ++ rest) ∧
      (∃ v ∈ statuses, P v) ∧ words.length = 256 ∧ Announced P base n rest

section Drive

variable {δ : Type} [Bus δ]

/-- For each of `n` sectors, the drive presents a status that is not busy, and the first
such status is `P`. -/
def Presents (P : U8 → Prop) (base : U32) : Nat → δ → Prop
  | 0, _ => True
  | n + 1, d => ∃ vs v d', Polled (Bus.inb (statusPort base)) NotBusy d vs v d' ∧ P v ∧
      Presents P base n (afterWords (dataPort base) 256 d')

variable {s t : AtaState δ} {i : Fin 4} {sector : U32} {count : U16} {buffer : U32}

/-- `ata_read_lba` returns, with `512 * count` only if every sector was announced, and
with less if one was not. -/
def ReadReported (i : Fin 4) (sector : U32) (count : U16) (buffer : U32) (s : AtaState δ) : Prop :=
  ∃ c t data, (ataReadLba (some i) sector count buffer).Returns s c t ∧
    t.log = s.log ++ ((lbaTaskfile (s.ataDevices i).slaveSelected sector count
      ataCmdReadPio).writes (s.ataDevices i).base ++ data) ∧
    (c.toNat = 512 * count.toNat → Announced DataReady (s.ataDevices i).base count.toNat data) ∧
    (¬ Announced DataReady (s.ataDevices i).base count.toNat data → c.toNat < 512 * count.toNat)

/-! ### One sector -/

/-- State `t` is `s` with the drive in state `d`, after the accesses `events`; memory may
have changed. -/
structure Reached (s : AtaState δ) (d : δ) (events : List PortEvent) (t : AtaState δ) : Prop where
  io : t.machine.io = ⟨d, s.log ++ events⟩
  ataDevices : t.ataDevices = s.ataDevices

namespace Reached

variable {u : AtaState δ} {d d' : δ} {events events' : List PortEvent}

omit [Bus δ] in
theorem dev (h : Reached s d events t) : t.machine.io.dev = d := by rw [h.io]

omit [Bus δ] in
theorem log (h : Reached s d events t) : t.log = s.log ++ events := by rw [AtaState.log, h.io]

omit [Bus δ] in
theorem trans (h : Reached s d events t) (h' : Reached t d' events' u) :
    Reached s d' (events ++ events') u := by
  refine ⟨?_, h'.ataDevices.trans h.ataDevices⟩
  rw [h'.io, h.log, List.append_assoc]

end Reached

theorem readWord_reached {c : Nat} :
    Total (readWord (some i) buffer c) s fun c' t => c' = c + 2 ∧
      Reached s (Bus.inw (dataPort (s.ataDevices i).base) s.machine.io.dev).2
        [.inw (dataPort (s.ataDevices i).base)
          (Bus.inw (dataPort (s.ataDevices i).base) s.machine.io.dev).1] t := by
  have hstore : ∀ (u : AtaState δ) (a : Nat) (v : U8), (onMachine (storeByte a v)).Returns u () _ :=
    fun _ _ _ => returns_zoom.mpr ⟨_, returns_storeByte.mpr rfl, rfl⟩
  exact ⟨_, _, .bind (returns_ataInw.mpr ⟨rfl, rfl⟩)
    (.bind (hstore _ _ _) (.bind (hstore _ _ _) (returns_pure.mpr ⟨rfl, rfl⟩))), rfl, rfl, rfl⟩

/-- The 256 words of a sector, or any other number of them. -/
theorem readWords_reached {c n : Nat} :
    Total (repeatN (readWord (some i) buffer) n c) s fun c' t => c' = c + 2 * n ∧
      Reached s (afterWords (dataPort (s.ataDevices i).base) n s.machine.io.dev)
        ((wordsFrom (dataPort (s.ataDevices i).base) n s.machine.io.dev).map
          (.inw (dataPort (s.ataDevices i).base))) t := by
  refine Total.repeatN (I := fun k c' t => c' = c + 2 * k ∧
    Reached s (afterWords (dataPort (s.ataDevices i).base) k s.machine.io.dev)
      ((wordsFrom (dataPort (s.ataDevices i).base) k s.machine.io.dev).map
        (.inw (dataPort (s.ataDevices i).base))) t) ?_ ⟨rfl, ?_, rfl⟩
  · rintro k _ u - ⟨rfl, hu⟩
    refine readWord_reached.mono ?_
    rintro _ v ⟨rfl, hv⟩
    rw [hu.ataDevices, hu.dev, ← afterWords_succ] at hv
    have hall := hu.trans hv
    rw [← List.map_singleton, ← List.map_append] at hall
    exact ⟨by omega, hall⟩
  · rw [wordsFrom, List.map_nil, List.append_nil]
    rfl

/-- A sector after the status values `vs`, of which the last one ended the wait. -/
def sectorEvents (base : U32) (vs : List U8) (d : δ) : List PortEvent :=
  vs.map (.inb (statusPort base)) ++ (wordsFrom (dataPort base) 256 d).map (.inw (dataPort base))

/-- One sector is a wait and 256 words, whatever the status was. -/
theorem pass_reached (count : U16) (buffer : U32) {k : Nat} {vs : List U8} {v : U8} {d : δ}
    (hk : k < count.toNat)
    (hpolled : Polled (Bus.inb (statusPort (s.ataDevices i).base)) NotBusy s.machine.io.dev
      vs v d) :
    Total (transferPass (some i) count (readWord (some i) buffer) (512 * k)) s fun pass t =>
      pass = .again (512 * (k + 1)) ∧
        Reached s (afterWords (dataPort (s.ataDevices i).base) 256 d)
          (sectorEvents (s.ataDevices i).base (vs ++ [v]) d) t := by
  rw [transferPass_sector (by omega)]
  have hdevice : s.device (some i) = s.ataDevices i := rfl
  have hwait : (ataWait (some i)).Returns s v
      (polledAt s (statusPort (s.ataDevices i).base) d (vs ++ [v])) := by
    rw [returns_ataWait, hdevice]
    exact ⟨vs, d, hpolled, rfl⟩
  refine Total.bind (R := fun _ u => Reached s d
    ((vs ++ [v]).map (.inb (statusPort (s.ataDevices i).base))) u)
    ⟨v, _, hwait, rfl, rfl⟩ ?_
  intro _ u hu
  refine readWords_reached.bind ?_
  rintro _ w ⟨rfl, hw⟩
  rw [hu.ataDevices, hu.dev] at hw
  have hnext : 512 * k + 2 * 256 = 512 * (k + 1) := by omega
  rw [hnext]
  exact total_pure ⟨rfl, hu.trans hw⟩

/-- A pass of the loop that goes round again has waited. -/
theorem polled_of_pass {k : Nat} {pass : Pass Nat Nat} (hk : k < count.toNat)
    (h : (transferPass (some i) count (readWord (some i) buffer) (512 * k)).Returns s pass t) :
    ∃ vs v d, Polled (Bus.inb (statusPort (s.ataDevices i).base)) NotBusy s.machine.io.dev
      vs v d := by
  rw [transferPass_sector (by omega)] at h
  obtain ⟨v, u, hwait, -⟩ := returns_bind.mp h
  obtain ⟨vs, d, hpolled, -⟩ := returns_ataWait.mp hwait
  exact ⟨vs, v, d, hpolled⟩

/-! ### All sectors -/

/-- From pass `k` on, the loop returns if every wait for the other sectors ends. -/
theorem loop_returns (buffer : U32) {P : U8 → Prop} {k n : Nat} (hk : k + n = count.toNat)
    (h : Presents P (s.ataDevices i).base n s.machine.io.dev) :
    Total (loop (transferPass (some i) count (readWord (some i) buffer)) (512 * k)) s fun c t =>
      c = 512 * count.toNat ∧ ∃ data, t.log = s.log ++ data ∧
        Announced P (s.ataDevices i).base n data := by
  induction n generalizing k s with
  | zero =>
      obtain rfl : k = count.toNat := hk
      refine ⟨_, s, returns_loop.mpr (.inl ?_), rfl, [], (List.append_nil _).symm, rfl⟩
      rw [transferPass_done (Nat.lt_irrefl _)]
      exact returns_pure.mpr ⟨rfl, rfl⟩
  | succ n ih =>
      obtain ⟨vs, v, d, hpolled, hv, hrest⟩ := h
      obtain ⟨_, u, hpass, rfl, hu⟩ := pass_reached count buffer (k := k) (by omega) hpolled
      rw [← hu.dev, ← hu.ataDevices] at hrest
      obtain ⟨c, t, hloop, hc, data, hlog, hannounced⟩ := ih (k := k + 1) (by omega) hrest
      refine ⟨c, t, returns_loop.mpr (.inr ⟨_, u, hpass, hloop⟩), hc,
        sectorEvents (s.ataDevices i).base (vs ++ [v]) d ++ data, ?_, ?_⟩
      · rw [hlog, hu.log, List.append_assoc]
      · rw [hu.ataDevices] at hannounced
        refine ⟨vs ++ [v], _, data, List.append_assoc .., ⟨v, by simp, hv⟩,
          length_wordsFrom, hannounced⟩

omit [Bus δ] in
/-- Status reads and then words: a log is cut in one way only. -/
theorem sector_cut {p q : U16} {vs vs' : List U8} {words words' : List U16}
    {rest rest' : List PortEvent} (hlen : words.length = words'.length) (hpos : 0 < words.length)
    (h : vs.map (.inb p) ++ (words.map (.inw q) ++ rest) =
      vs'.map (.inb p) ++ (words'.map (.inw q) ++ rest')) :
    vs = vs' ∧ rest = rest' := by
  obtain ⟨w, ws, rfl⟩ := List.exists_cons_of_length_pos hpos
  obtain ⟨w', ws', rfl⟩ := List.exists_cons_of_length_pos (hlen ▸ hpos)
  induction vs generalizing vs' with
  | nil =>
      cases vs' with
      | nil =>
          have hwords : (w :: ws).map (PortEvent.inw q) ++ rest =
              (w' :: ws').map (.inw q) ++ rest' := h
          exact ⟨rfl, (List.append_inj hwords (by rw [List.length_map, List.length_map, hlen])).2⟩
      | cons v' vs' => cases h
  | cons v vs ih =>
      cases vs' with
      | nil => cases h
      | cons v' vs' =>
          obtain ⟨hhead, htail⟩ := List.cons.inj h
          cases hhead
          obtain ⟨rfl, hrest⟩ := ih htail
          exact ⟨rfl, hrest⟩

/-- The loop only adds to the log. -/
theorem loop_log {b c : Nat}
    (h : (loop (transferPass (some i) count (readWord (some i) buffer)) b).Returns s c t) :
    ∃ data, t.log = s.log ++ data := by
  have hpass : ∀ b, Keeps (RegistersKept s)
      (transferPass (some i) count (readWord (some i) buffer) b) :=
    RegistersKept.transferPass fun _ => RegistersKept.readWord
  obtain ⟨data, hlog, -⟩ := (Keeps.loop hpass _ _ _ h .refl).log
  exact ⟨data, hlog⟩

/-- What was announced in a run, the drive had presented. -/
theorem presents_of_announced {P : U8 → Prop} (hP : ∀ v, P v → NotBusy v) {k n c : Nat}
    {data : List PortEvent} (hk : k + n = count.toNat)
    (h : (loop (transferPass (some i) count (readWord (some i) buffer)) (512 * k)).Returns s c t)
    (hlog : t.log = s.log ++ data) (hannounced : Announced P (s.ataDevices i).base n data) :
    Presents P (s.ataDevices i).base n s.machine.io.dev := by
  induction n generalizing k s data with
  | zero => trivial
  | succ n ih =>
      obtain ⟨statuses, words, rest, hdata, ⟨w, hw, hPw⟩, hlen, hrest⟩ := hannounced
      have hpass : ∃ pass u, (transferPass (some i) count (readWord (some i) buffer)
          (512 * k)).Returns s pass u ∧ ∀ b, pass = .again b →
            (loop (transferPass (some i) count (readWord (some i) buffer)) b).Returns u c t := by
        rcases returns_loop.mp h with hdone | ⟨b, u, hagain, hloop⟩
        · exact ⟨_, _, hdone, fun b hb => nomatch hb⟩
        · refine ⟨_, u, hagain, ?_⟩
          intro b' hb
          cases hb
          exact hloop
      obtain ⟨pass, u, hpass, hloop⟩ := hpass
      obtain ⟨vs, v, d, hpolled⟩ := polled_of_pass (k := k) (by omega) hpass
      obtain ⟨rfl, hu⟩ := (pass_reached count buffer (k := k) (by omega) hpolled).returns hpass
      have hloop := hloop _ rfl
      obtain ⟨data', hlog'⟩ := loop_log hloop
      -- the announced sector is the one that was read
      have hevents : statuses.map (.inb (statusPort (s.ataDevices i).base)) ++
          (words.map (.inw (dataPort (s.ataDevices i).base)) ++ rest) =
          (vs ++ [v]).map (.inb (statusPort (s.ataDevices i).base)) ++
          ((wordsFrom (dataPort (s.ataDevices i).base) 256 d).map
            (.inw (dataPort (s.ataDevices i).base)) ++ data') := by
        rw [hlog, hu.log, hdata, List.append_assoc] at hlog'
        rw [List.append_cancel_left hlog', sectorEvents, List.append_assoc]
      obtain ⟨rfl, rfl⟩ := sector_cut (by rw [hlen, length_wordsFrom]) (by omega) hevents
      have hv := (hpolled.exists_iff hP).mp ⟨w, hw, hPw⟩
      have hnext := ih (k := k + 1) (by omega) hloop hlog' (by rw [hu.ataDevices]; exact hrest)
      rw [hu.ataDevices, hu.dev] at hnext
      exact ⟨vs, v, d, hpolled, hv, hnext⟩

/-! ### The whole function -/

/-- The state of `ata_read_lba` when its command has been written. -/
def readIssued (i : Fin 4) (sector : U32) (count : U16) (s : AtaState δ) : AtaState δ :=
  s.setPorts
    ⟨(lbaTaskfile (s.ataDevices i).slaveSelected sector count ataCmdReadPio).issued
        (s.ataDevices i).base s.machine.io.dev,
      s.log ++ (lbaTaskfile (s.ataDevices i).slaveSelected sector count ataCmdReadPio).writes
        (s.ataDevices i).base⟩

theorem returns_ataReadLba {c : U32} :
    (ataReadLba (some i) sector count buffer).Returns s c t ↔
      ∃ n, (loop (transferPass (some i) count (readWord (some i) buffer)) 0).Returns
          (readIssued i sector count s) n t ∧ c = BitVec.ofNat 32 n := by
  have hdevice : (gets (AtaState.device (some i))).Returns s (s.ataDevices i) s :=
    returns_gets.mpr ⟨rfl, rfl⟩
  have hissue : (issue (some i)
      (lbaTaskfile (s.ataDevices i).slaveSelected sector count ataCmdReadPio)).Returns s ()
      (readIssued i sector count s) := returns_issue.mpr rfl
  unfold ataReadLba transfer
  rw [hdevice.bind_iff, hissue.bind_iff]
  constructor
  · intro h
    obtain ⟨n, u, hloop, hreturn⟩ := returns_bind.mp h
    obtain ⟨rfl, rfl⟩ := returns_pure.mp hreturn
    exact ⟨n, hloop, rfl⟩
  · rintro ⟨n, hloop, rfl⟩
    exact .bind hloop (returns_pure.mpr ⟨rfl, rfl⟩)

/-- Whatever the drive said, a read that returns says that it read everything. -/
theorem ataReadLba_count {c : U32} (h : (ataReadLba (some i) sector count buffer).Returns s c t) :
    c.toNat = 512 * count.toNat := by
  have hlt := count.isLt
  have hcount : c = BitVec.ofNat 32 (512 * count.toNat) :=
    (Transfer.run_words (r := ⟨false, .lba sector, count, buffer⟩) h).1
  rw [hcount, BitVec.toNat_ofNat]
  omega

/-- The drive after the command of `ata_read_lba`. -/
def readIssuedDrive (i : Fin 4) (sector : U32) (count : U16) (s : AtaState δ) : δ :=
  (readIssued i sector count s).machine.io.dev

/-- A read whose waits all end returns. -/
theorem ataReadLba_total (i : Fin 4) (sector : U32) (count : U16) (buffer : U32) (s : AtaState δ)
    (h : Presents (fun _ => True) (s.ataDevices i).base count.toNat
      (readIssuedDrive i sector count s)) :
    ∃ c t, (ataReadLba (some i) sector count buffer).Returns s c t := by
  obtain ⟨n, t, hloop, -⟩ := loop_returns buffer (s := readIssued i sector count s)
    (k := 0) (Nat.zero_add _) h
  exact ⟨_, t, returns_ataReadLba.mpr ⟨n, hloop, rfl⟩⟩

theorem presents_of_reported (h : ReadReported i sector count buffer s) :
    Presents DataReady (s.ataDevices i).base count.toNat (readIssuedDrive i sector count s) := by
  obtain ⟨c, t, data, h, hlog, hall, -⟩ := h
  obtain ⟨n, hloop, -⟩ := returns_ataReadLba.mp h
  rw [← List.append_assoc] at hlog
  exact presents_of_announced (fun _ => DataReady.notBusy) (k := 0) (Nat.zero_add _) hloop hlog
    (hall (ataReadLba_count h))

/-- The result of `ata_read_lba` tells whether the read worked exactly when it did: when
for each sector the drive, once it is not busy, has the data. -/
theorem readReported_iff (i : Fin 4) (sector : U32) (count : U16) (buffer : U32)
    (s : AtaState δ) :
    ReadReported i sector count buffer s ↔
      Presents DataReady (s.ataDevices i).base count.toNat (readIssuedDrive i sector count s) := by
  constructor
  · exact presents_of_reported
  · intro hpresents
    obtain ⟨n, t, hloop, rfl, data, hlog, hannounced⟩ :=
      loop_returns buffer (s := readIssued i sector count s) (k := 0) (Nat.zero_add _) hpresents
    have h := returns_ataReadLba.mpr ⟨_, hloop, rfl⟩
    refine ⟨_, t, data, h, ?_, fun _ => hannounced, fun hnot => absurd hannounced hnot⟩
    rw [hlog, ← List.append_assoc]
    rfl

end Drive

/-- A sector that the disk does not have: it fails the command with status 0x51, and the
driver reports 512 bytes read. -/
theorem readReported_fails :
    (∃ c t, (ataReadLba (some 0) 100 1 0x7C00).Returns
        (.booted (.blank 0x1F0 ⟨4, 4, 4⟩) .empty) c t ∧ c.toNat = 512) ∧
      ¬ ReadReported 0 100 1 0x7C00 (.booted (.blank 0x1F0 ⟨4, 4, 4⟩) .empty) := by
  have hfirst : Polled (Bus.inb (statusPort 0x1F0)) NotBusy
      (readIssuedDrive 0 100 1 (.booted (.blank 0x1F0 ⟨4, 4, 4⟩) .empty)) [] 0x51
      (readIssuedDrive 0 100 1 (.booted (.blank 0x1F0 ⟨4, 4, 4⟩) .empty)) :=
    .last (by decide)
  constructor
  · obtain ⟨c, t, h⟩ := ataReadLba_total 0 100 1 0x7C00 (.booted (.blank 0x1F0 ⟨4, 4, 4⟩) .empty)
      ⟨_, _, _, hfirst, trivial, trivial⟩
    exact ⟨c, t, h, ataReadLba_count h⟩
  · intro hreported
    obtain ⟨vs, v, d, hpolled, hready, -⟩ := presents_of_reported hreported
    obtain ⟨-, rfl, -⟩ := hpolled.functional hfirst
    exact absurd hready.2.1 (by decide)

end MyBios
