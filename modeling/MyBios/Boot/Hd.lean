import MyBios.Bios.Service
import MyBios.Boot.Drives
import MyBios.Interrupt.Pic
import MyBios.RealMode.Call
import MyBios.Timer.Waits
import MyBios.Video.Vga

/-!
Booting from a drive (`boot_from_hd` and the end of `main`).

The drives are tried in the order of their records. One that can be read and whose
first sector ends in `55 AA` becomes the first record, and its sector is called in real
mode, with the PICs set up for it. The called code can do anything, and when it returns
the next drive is tried, so it is a parameter. While `msleep` halts, interrupts only
advance the clock, which is a component of its own.

* `calls_callable`: whatever the devices answer, a sector is called with the signature in
  memory, with its own drive as the first and selected, and with interrupts off.
* `boots_first`: on a channel with drives that work, the first drive with a signature
  is the one that is called, its first sector is what is in memory, and INT 13h serves
  that drive from then on.
-/

namespace MyBios

open Prog AtaState Irq

/-! ### The code -/

structure BootState (δ τ : Type) where
  ata : AtaState δ
  clock : Ports τ
  interruptFlag : Bool
  vgaEnabled : Bool

namespace BootState

variable {δ τ : Type}

def ataLens (δ τ : Type) : Lens (BootState δ τ) (AtaState δ) where
  get := BootState.ata
  set a s := { s with ata := a }
  get_set _ _ := rfl
  set_get _ := rfl

def clockLens (δ τ : Type) : Lens (BootState δ τ) (Ports τ) where
  get := BootState.clock
  set c s := { s with clock := c }
  get_set _ _ := rfl
  set_get _ := rfl

def mem (s : BootState δ τ) : ByteMem := s.ata.machine.mem

end BootState

section Code

variable {δ τ α : Type}

def onAta (p : Prog (AtaState δ) α) : Prog (BootState δ τ) α := zoom (BootState.ataLens δ τ) p

def onClock (p : Io τ α) : Prog (BootState δ τ) α := zoom (BootState.clockLens δ τ) p

/-- The parameters of the call. -/
def bootParams : RealModeCallParams where
  segment := 0x0
  offset := 0x7C00
  ax := 0
  bx := 0
  cx := 0
  dx := 0x0080
  si := 0
  di := 0

/-- What `vgaCls` stores. -/
@[irreducible] def clearScreen (m : ByteMem) : ByteMem := blankWords 0 1000 m

variable [Bus δ] [Bus τ] [Halt τ]

/-- `itr_setup_real_mode`. -/
def itrSetupRealMode : Prog (BootState δ τ) Unit := do
  modify fun s => { s with interruptFlag := false }
  onAta (onMachine (onPorts (initializePicRealMode 0x00 0x00)))

/-- `boot_from_hd` behind the check of the signature, up to the call. -/
def takeDrive (k : Fin 4) : Prog (BootState δ τ) Unit := do
  onAta (modify fun s => s.setDrive 0 (s.devAtaDrives k))
  onClock (msleep 2000)
  onAta (onMachine (modify fun m => { m with mem := clearScreen m.mem }))
  itrSetupRealMode
  modify fun s => { s with vgaEnabled := false }

/-- The sector at `0x7C00` has the signature. -/
def HasSignature (m : ByteMem) : Prop := m (0x7C00 + 510) = 0x55 ∧ m (0x7C00 + 511) = 0xAA

instance {m : ByteMem} : Decidable (HasSignature m) := inferInstanceAs (Decidable (_ ∧ _))

/-- `boot_from_hd` up to the call; false if it returns without one. -/
def prepareBoot (k : Fin 4) : Prog (BootState δ τ) Bool := do
  let drive ← gets fun s => s.ata.devAtaDrives k
  match drive.dev with
  | none => pure false
  | some dev => do
    onAta (ataDriveSelect (some dev) drive.slave)
    onClock (msleep 2)
    let read ← onAta (ataReadLba (some dev) 0 1 0x7C00)
    if read ≠ 512 then pure false
    else do
      let m ← gets BootState.mem
      if HasSignature m then do
        takeDrive k
        pure true
      else pure false

/-- `boot_from_hd`, where `call` is `real_mode_call`. -/
def bootFromHd (call : RealModeCallParams → Prog (BootState δ τ) Unit) (k : Fin 4) :
    Prog (BootState δ τ) Unit := do
  let ready ← prepareBoot k
  when ready (call bootParams)

/-- The loop of `main` over the drives that are left. -/
def bootAll (call : RealModeCallParams → Prog (BootState δ τ) Unit) :
    List (Fin 4) → Prog (BootState δ τ) Unit
  | [] => pure ()
  | k :: ks => do
    bootFromHd call k
    bootAll call ks

end Code

/-! ### What the parts leave alone -/

/-- The statics of the driver and the records are the same. -/
structure StaticsKept {δ : Type} (s₀ s : AtaState δ) : Prop where
  ataDevices : s.ataDevices = s₀.ataDevices
  devAtaDrives : s.devAtaDrives = s₀.devAtaDrives

section Ata

variable {δ : Type} [Bus δ] {s s₀ t : AtaState δ} {dev : DevRef} {i : Fin 4} {slave : Bool}

theorem staticsKept_outb {reg : U32} {v : U8} : Keeps (StaticsKept s₀) (ataOutb dev reg v) := by
  intro s u t h hs
  rw [returns_ataOutb.mp h]
  exact ⟨hs.ataDevices, hs.devAtaDrives⟩

/-- A read transfer. -/
theorem staticsKept_read {sector : U32} {count : U16} {buffer : U32} :
    Keeps (StaticsKept s₀) (ataReadLba dev sector count buffer) := by
  have hloop : Keeps (StaticsKept s₀) (transferLoop dev count (readWord dev buffer)) := by
    intro s c t h hs
    have hkept := RegistersKept.transferLoop (fun _ => RegistersKept.readWord) s c t h .refl
    exact ⟨hkept.ataDevices.trans hs.ataDevices, hkept.devAtaDrives.trans hs.devAtaDrives⟩
  refine keeps_gets.bind fun _ => Keeps.bind ?_ fun _ => hloop
  exact staticsKept_outb.bind fun _ => staticsKept_outb.bind fun _ => staticsKept_outb.bind
    fun _ => staticsKept_outb.bind fun _ => staticsKept_outb.bind fun _ => staticsKept_outb.bind
      fun _ => staticsKept_outb

/-- After `ata_drive_select` the drive is selected. -/
theorem driveSelect_selected (h : (ataDriveSelect (some i) slave).Returns s () t) :
    (t.ataDevices i).slaveSelected = slave ∧ (t.ataDevices i).base = (s.ataDevices i).base ∧
      t.devAtaDrives = s.devAtaDrives := by
  by_cases hcached : (s.ataDevices i).slaveSelected = slave
  · obtain ⟨d, s₁, hget, h⟩ := returns_bind.mp h
    obtain ⟨rfl, hs₁⟩ := returns_gets.mp hget
    rw [hs₁, if_pos (show (AtaState.device (some i) s).slaveSelected = slave from hcached)] at h
    rw [(returns_pure.mp h).2]
    exact ⟨hcached, rfl, rfl⟩
  · obtain ⟨-, hdevices, -, hdrives⟩ := driveSelect_spec rfl hcached h
    have hdev : t.ataDevices i = { s.ataDevices i with slaveSelected := slave } := by
      rw [hdevices]
      exact if_pos rfl
    rw [hdev]
    exact ⟨rfl, rfl, hdrives⟩

end Ata

section Clock

variable {τ : Type} [Bus τ] [Halt τ] [Ticking τ] {p q : Ports τ}

theorem msleep_le {ms : U32} (h : (msleep ms).Returns p () q) :
    Ticking.time p.dev ≤ Ticking.time q.dev := by
  have hticks : Keeps (fun q : Ports τ => Ticking.time p.dev ≤ Ticking.time q.dev)
      timerGetTicks := by
    intro q a q' h hq
    rw [(returns_timerGetTicks.mp h).2]
    exact Nat.le_trans hq (Ticking.ticks_le q.dev)
  have hhlt : Keeps (fun q : Ports τ => Ticking.time p.dev ≤ Ticking.time q.dev)
      (modify fun q => { q with dev := Halt.hlt q.dev }) :=
    keeps_modify fun q hq => Nat.le_trans hq (Ticking.hlt_le q.dev)
  refine (hticks.bind fun _ => Keeps.loop fun _ => hticks.bind fun _ => ?_) p () q h
    (Nat.le_refl _)
  exact (hhlt.bind fun _ => keeps_pure).ite keeps_pure

/-- A sleep that starts after `p` takes its ticks. -/
theorem msleep_waits {ms : U32} (h : (msleep ms).Returns p () q) :
    Ticking.time p.dev + ms.toNat / 55 ≤ Ticking.time q.dev := by
  have hle := msleep_le h
  have helapsed := msleep_inTime h
  have hstart := Ticking.ticks_le p.dev
  unfold elapsed at helapsed
  omega

end Clock

/-! ### Ready for the call -/

/-- The state in which the called code may start. -/
structure Callable {δ τ : Type} (s : BootState δ τ) : Prop where
  signature : HasSignature s.mem
  selected : ∃ i, (s.ata.devAtaDrives 0).dev = some i ∧
    (s.ata.ataDevices i).slaveSelected = (s.ata.devAtaDrives 0).slave
  pics : ∀ pics : PicPair, (pics.after s.ata.log).Ready .realMode 0x00 0x00
  interruptFlag : s.interruptFlag = false
  vgaEnabled : s.vgaEnabled = false

section Prepare

variable {δ τ : Type} {s t : BootState δ τ} {k : Fin 4}

theorem returns_onAta {α : Type} {p : Prog (AtaState δ) α} {a : α} :
    (onAta (τ := τ) p).Returns s a t ↔ ∃ x, p.Returns s.ata a x ∧ t = { s with ata := x } :=
  returns_zoom

theorem returns_onClock {α : Type} {p : Io τ α} {a : α} :
    (onClock (δ := δ) p).Returns s a t ↔ ∃ c, p.Returns s.clock a c ∧ t = { s with clock := c } :=
  returns_zoom

theorem clearScreen_other {m : ByteMem} {a : Nat} (h : a < 0xB8000) : clearScreen m a = m a := by
  unfold clearScreen
  exact blankWords_outside (.inl (by show a < 0xB8000 + 4 * 0; omega))

/-- The screen is not where the sector is. -/
theorem hasSignature_clearScreen {m : ByteMem} :
    HasSignature (clearScreen m) ↔ HasSignature m := by
  unfold HasSignature
  rw [clearScreen_other (by omega), clearScreen_other (by omega)]

variable [Bus δ] [Bus τ] [Halt τ]

/-- What `takeDrive` leaves. -/
theorem returns_takeDrive : (takeDrive k).Returns s () t ↔
    ∃ io c, (initializePicRealMode 0x00 0x00).Returns s.ata.machine.io () io ∧
      (msleep 2000).Returns s.clock () c ∧
      t = ⟨{ s.ata.setDrive 0 (s.ata.devAtaDrives k) with
        machine := ⟨io, clearScreen s.mem⟩ }, c, false, false⟩ := by
  simp only [takeDrive, itrSetupRealMode, returns_bind, returns_onAta, returns_onClock,
    returns_modify, onMachine, returns_zoom, returns_onPorts]
  constructor
  · rintro ⟨_, _, ⟨_, rfl, rfl⟩, _, _, ⟨c, hc, rfl⟩, _, _, ⟨_, ⟨_, rfl, rfl⟩, rfl⟩, _, _,
      ⟨_, _, rfl, _, ⟨_, ⟨io, hio, rfl⟩, rfl⟩, rfl⟩, rfl⟩
    exact ⟨io, c, hio, hc, rfl⟩
  · rintro ⟨io, c, hio, hc, rfl⟩
    exact ⟨(), _, ⟨_, rfl, rfl⟩, (), _, ⟨c, hc, rfl⟩, (), _, ⟨_, ⟨_, rfl, rfl⟩, rfl⟩, (), _,
      ⟨(), _, rfl, _, ⟨_, ⟨io, hio, rfl⟩, rfl⟩, rfl⟩, rfl⟩

/-- The drive of a record that was read, and has the signature, may be called. -/
theorem takeDrive_callable {i : Fin 4} (hsig : HasSignature s.mem)
    (hdev : (s.ata.devAtaDrives k).dev = some i)
    (hselected : (s.ata.ataDevices i).slaveSelected = (s.ata.devAtaDrives k).slave)
    (h : (takeDrive k).Returns s () t) : Callable t := by
  obtain ⟨io, c, hio, -, rfl⟩ := returns_takeDrive.mp h
  have hfirst : (s.ata.setDrive 0 (s.ata.devAtaDrives k)).devAtaDrives 0 =
      s.ata.devAtaDrives k := by simp [setDrive]
  refine ⟨hasSignature_clearScreen.mpr hsig, ⟨i, ?_, ?_⟩, ?_, rfl, rfl⟩
  · exact (congrArg AtaDrive.dev hfirst).trans hdev
  · exact hselected.trans (congrArg AtaDrive.slave hfirst).symm
  · intro pics
    show (pics.after io.log).Ready .realMode 0x00 0x00
    rw [log_initializePic hio, PicPair.after_append]
    exact setup_ready _ .realMode _ _

/-- Without a call, `boot_from_hd` leaves the records and the flags alone; with one, the
state is right for it. -/
theorem prepareBoot_spec {ready : Bool} (h : (prepareBoot k).Returns s ready t) :
    if ready then
      Callable t ∧ t.ata.devAtaDrives = (s.ata.setDrive 0 (s.ata.devAtaDrives k)).devAtaDrives
    else t.ata.devAtaDrives = s.ata.devAtaDrives := by
  obtain ⟨drive, s₁, hget, h⟩ := returns_bind.mp h
  obtain ⟨rfl, rfl⟩ := returns_gets.mp hget
  cases hdev : (s₁.ata.devAtaDrives k).dev with
  | none =>
      rw [hdev] at h
      obtain ⟨rfl, rfl⟩ := returns_pure.mp h
      rfl
  | some i =>
      rw [hdev] at h
      obtain ⟨_, s₂, h₁, h⟩ := returns_bind.mp h
      obtain ⟨_, s₃, h₂, h⟩ := returns_bind.mp h
      obtain ⟨c, s₄, h₃, h⟩ := returns_bind.mp h
      obtain ⟨a₂, hselect, rfl⟩ := returns_onAta.mp h₁
      obtain ⟨c₃, -, rfl⟩ := returns_onClock.mp h₂
      obtain ⟨a₄, hread, rfl⟩ := returns_onAta.mp h₃
      obtain ⟨hselected, -, hdrives⟩ := driveSelect_selected hselect
      obtain ⟨hdevices, hdrives'⟩ := staticsKept_read _ _ _ hread ⟨rfl, rfl⟩
      have hsame : a₄.devAtaDrives = s₁.ata.devAtaDrives := hdrives'.trans hdrives
      by_cases hshort : c ≠ 512
      · rw [if_pos hshort] at h
        obtain ⟨rfl, rfl⟩ := returns_pure.mp h
        exact hsame
      · rw [if_neg hshort] at h
        obtain ⟨m, s₅, hmem, h⟩ := returns_bind.mp h
        obtain ⟨rfl, rfl⟩ := returns_gets.mp hmem
        by_cases hsig : HasSignature a₄.machine.mem
        · rw [if_pos (show HasSignature (BootState.mem { s₁ with ata := a₄, clock := c₃ })
            from hsig)] at h
          obtain ⟨_, s₆, htake, hpure⟩ := returns_bind.mp h
          obtain ⟨rfl, rfl⟩ := returns_pure.mp hpure
          rw [if_pos rfl]
          refine ⟨takeDrive_callable (s := { s₁ with ata := a₄, clock := c₃ }) hsig (i := i)
            ?_ ?_ htake, ?_⟩
          · show (a₄.devAtaDrives k).dev = some i
            rw [hsame, hdev]
          · show (a₄.ataDevices i).slaveSelected = (a₄.devAtaDrives k).slave
            rw [hdevices, hsame]
            exact hselected
          · obtain ⟨io, c, -, -, rfl⟩ := returns_takeDrive.mp htake
            funext j
            show (if j = 0 then a₄.devAtaDrives k else a₄.devAtaDrives j) =
              if j = 0 then s₁.ata.devAtaDrives k else s₁.ata.devAtaDrives j
            rw [hsame]
        · rw [if_neg (show ¬ HasSignature (BootState.mem { s₁ with ata := a₄, clock := c₃ })
            from hsig)] at h
          obtain ⟨rfl, rfl⟩ := returns_pure.mp h
          exact hsame

section Classical

open Classical

variable {call : RealModeCallParams → Prog (BootState δ τ) Unit} {ks : List (Fin 4)}

theorem bootFromHd_callable :
    (bootFromHd call k).Returns s () t ↔
      (bootFromHd (fun p => onlyIf Callable (call p)) k).Returns s () t := by
  simp only [bootFromHd, returns_bind, returns_when]
  refine exists_congr fun ready => exists_congr fun u => and_congr_right fun hprepare => ?_
  cases ready with
  | false => rfl
  | true =>
      have hspec := prepareBoot_spec hprepare
      rw [if_pos rfl] at hspec
      rw [if_pos rfl, if_pos rfl, returns_onlyIf, and_iff_right hspec.1]

/-- Whatever the devices answer and whatever the called code does, it is called in states
that are ready for it only: to check that before each call changes nothing. -/
theorem calls_callable :
    (bootAll call ks).Returns s () t ↔
      (bootAll (fun p => onlyIf Callable (call p)) ks).Returns s () t := by
  induction ks generalizing s with
  | nil => rfl
  | cons k ks ih =>
      simp only [bootAll, returns_bind]
      refine exists_congr fun _ => exists_congr fun u => ?_
      rw [ih, bootFromHd_callable]

end Classical

end Prepare

/-! ### Drives that work -/

/-- The drives and their contents are the same. -/
structure SameDrives (d d' : Disk) : Prop where
  base : d'.base = d.base
  geometry : d'.geometry = d.geometry
  blocks : d'.blocks = d.blocks
  contents : d'.contents = d.contents

section Disk

variable {s t u : AtaState Disk} {d d' d'' : Disk} {i : Fin 4} {slave : Bool}

theorem SameDrives.refl : SameDrives d d := ⟨rfl, rfl, rfl, rfl⟩

theorem SameDrives.trans (h : SameDrives d d') (h' : SameDrives d' d'') : SameDrives d d'' :=
  ⟨h'.base.trans h.base, h'.geometry.trans h.geometry, h'.blocks.trans h.blocks,
    h'.contents.trans h.contents⟩

theorem sameDrives_statusRead : SameDrives d d.statusRead.2 := by
  unfold Disk.statusRead
  split
  · cases d.phase <;> exact .refl
  · exact ⟨rfl, rfl, rfl, rfl⟩

/-- A drive that is not busy says so. -/
theorem statusRead_ready (h : d.busy = 0) :
    d.statusRead.1 &&& ataStatusBsy = 0 ∧ d.statusRead.2 = d := by
  rcases hphase : d.phase with _ | _ | ⟨pos, left⟩ | ⟨pos, left⟩
  all_goals
    simp only [Disk.statusRead, h, hphase, if_true]
    exact ⟨by decide, trivial⟩

/-- The delay of `ata_drive_select` ends: the drive is busy for some status reads, and 15
more are counted. -/
theorem selectDelay_total (hd : SameDrives d d') (hbase : d.base = (s.device (some i)).base)
    (ht : OnDisk s d' t) :
    Total (loop (fun count => do
      let v ← status (some i)
      if v &&& ataStatusBsy = 0 ∧ count + 1 > 15 then pure (Pass.done ())
      else pure (Pass.again (count + 1))) 0) t fun _ u =>
        ∃ d'', SameDrives d d'' ∧ OnDisk s d'' u := by
  refine Total.loop (fun count u => u.disk.busy + (16 - count))
    (I := fun _ u => ∃ d'', SameDrives d d'' ∧ OnDisk s d'' u) ?_ ⟨d', hd, ht⟩
  rintro count u ⟨e, he, hu⟩
  refine (total_status hu (he.base.trans hbase)).bind ?_
  rintro v u' ⟨rfl, hu'⟩
  have hsame := he.trans (sameDrives_statusRead (d := e))
  by_cases hstop : e.statusRead.1 &&& ataStatusBsy = 0 ∧ count + 1 > 15
  · rw [if_pos hstop]
    exact total_pure ⟨_, hsame, hu'⟩
  · rw [if_neg hstop]
    refine total_pure ⟨⟨_, hsame, hu'⟩, ?_⟩
    rw [hu.disk, hu'.disk]
    by_cases hbusy : e.busy = 0
    · -- not busy: the count is what is missing
      obtain ⟨hready, hidle⟩ := statusRead_ready hbusy
      have hcount : ¬ count + 1 > 15 := fun h => hstop ⟨hready, h⟩
      rw [hidle]
      omega
    · have hless : e.statusRead.2.busy = e.busy - 1 := by
        unfold Disk.statusRead
        rw [if_neg hbusy]
      rw [hless]
      omega

/-- Selecting a drive leaves it and its contents alone. -/
theorem driveSelect_total (slave : Bool) (hbase : s.disk.base = (s.ataDevices i).base) :
    Total (ataDriveSelect (some i) slave) s fun _ t =>
      SameDrives s.disk t.disk ∧ t.machine.mem = s.machine.mem ∧
        (t.ataDevices i).slaveSelected = slave ∧
        (t.ataDevices i).base = (s.ataDevices i).base ∧ t.devAtaDrives = s.devAtaDrives := by
  have hreturns : ∃ t, (ataDriveSelect (some i) slave).Returns s () t ∧
      SameDrives s.disk t.disk ∧ t.machine.mem = s.machine.mem := by
    have hget : (gets (AtaState.device (some i))).Returns s (s.ataDevices i) s :=
      returns_gets.mpr ⟨rfl, rfl⟩
    by_cases hcached : (s.ataDevices i).slaveSelected = slave
    · refine ⟨s, ?_, .refl, rfl⟩
      rw [ataDriveSelect, hget.bind_iff, if_pos hcached]
      exact returns_pure.mpr ⟨rfl, rfl⟩
    · let head : U8 := 0xA0 ||| (if slave then 0x10 else 0)
      have hout : (ataOutb (some i) ataDriveHead head).Returns s () _ := returns_ataOutb.mpr rfl
      have hlatched : SameDrives s.disk
          (Bus.outb (ataPort (s.ataDevices i).base ataDriveHead) head s.disk) := by
        have hport : ¬ ataPort s.disk.base ataDriveHead = ataPort s.disk.base ataCommand :=
          fun h => absurd (ataPort_eq_iff.mp h) (by decide)
        rw [← hbase]
        simp only [Bus.outb, if_neg hport]
        exact ⟨rfl, rfl, rfl, rfl⟩
      obtain ⟨_, u, hdelay, e, hsame, log, rfl⟩ := selectDelay_total (s := s) (t :=
        s.setPorts ⟨Bus.outb (ataPort (s.ataDevices i).base ataDriveHead) head s.disk,
          s.log ++ [.outb (ataPort (s.ataDevices i).base ataDriveHead) head]⟩)
        hlatched hbase ⟨_, rfl⟩
      refine ⟨(s.setPorts ⟨e, log⟩).setSlaveSelected (some i) slave, ?_, hsame, rfl⟩
      rw [ataDriveSelect, hget.bind_iff, if_neg hcached, hout.bind_iff]
      exact returns_bind.mpr ⟨(), _, hdelay, returns_modify.mpr rfl⟩
  obtain ⟨t, hrun, hsame, hmem⟩ := hreturns
  obtain ⟨hselected, hb, hdrives⟩ := driveSelect_selected hrun
  exact ⟨(), t, hrun, hsame, hmem, hselected, hb, hdrives⟩

theorem sameDrives_command {cmd : U8} : SameDrives d (d.command cmd) := by
  simp only [Disk.command]
  split
  · split
    · exact ⟨rfl, rfl, rfl, rfl⟩
    · split <;> exact ⟨rfl, rfl, rfl, rfl⟩
  · exact ⟨rfl, rfl, rfl, rfl⟩

/-- No byte stored to a port changes what is on the drives. -/
theorem sameDrives_outb {port : U16} {v : U8} :
    Keeps (fun p : Ports Disk => SameDrives d p.dev) (outb port v) := by
  intro p u q h hp
  rw [returns_outb.mp h]
  refine hp.trans ?_
  simp only [Bus.outb]
  split
  · exact sameDrives_command
  · exact ⟨rfl, rfl, rfl, rfl⟩

theorem sameDrives_initializePic {m v : U8} :
    Keeps (fun p : Ports Disk => SameDrives d p.dev) (initializePicRealMode m v) :=
  sameDrives_outb.bind fun _ => sameDrives_outb.bind fun _ => sameDrives_outb.bind fun _ =>
    sameDrives_outb.bind fun _ => sameDrives_outb.bind fun _ => sameDrives_outb.bind fun _ =>
      sameDrives_outb.bind fun _ => sameDrives_outb.bind fun _ => sameDrives_outb.bind fun _ =>
        sameDrives_outb

theorem bufferAddr_sector {n : Nat} (hn : n < 512) : bufferAddr 0x7C00 n = 0x7C00 + n := by
  rw [bufferAddr, BitVec.toNat_add, BitVec.toNat_ofNat]
  show (0x7C00 + n % 2 ^ 32) % 2 ^ 32 = _
  omega

/-- Reading the first sector of the selected drive to `0x7C00`. -/
theorem readFirst_total (hbase : s.disk.base = (s.ataDevices i).base)
    (hselected : (s.ataDevices i).slaveSelected = slave) (hblocks : 1 ≤ s.disk.blocks slave) :
    Total (ataReadLba (some i) 0 1 0x7C00) s fun c t =>
      c = 512 ∧ SameDrives s.disk t.disk ∧ StaticsKept s t ∧
        (∀ n < 512, t.machine.mem (0x7C00 + n) = s.disk.contents slave n) ∧
        ∀ a, (a < 0x7C00 ∨ 0x7E00 ≤ a) → t.machine.mem a = s.machine.mem a := by
  have hrange : LbaRange s i 0 1 :=
    { attached := hbase
      count_pos := by decide
      count_lt := by decide
      lba := by decide
      fits := by rw [hselected]; exact hblocks }
  have hfetch : Total (ataReadLba (some i) 0 1 0x7C00) s fun _ t =>
      Fetched s { s.disk with
        regs := lbaTaskfile (s.ataDevices i).slaveSelected 0 1 ataCmdReadPio } 0x7C00
        (startByte s (lbaTaskfile (s.ataDevices i).slaveSelected 0 1 ataCmdReadPio)) 256 256 t :=
    transfer_read_fetched hrange.inRange rfl
  obtain ⟨c, t, hrun, busy, delays, mem, ht, hmem⟩ := hfetch
  have hcount : c = BitVec.ofNat 32 (512 * (1 : U16).toNat) :=
    ((transfer_read_total (lbaTaskfile · 0 1 ataCmdReadPio) 0x7C00 hrange.inRange rfl).returns
      hrun).1
  rw [hrange.startByte, hselected] at hmem
  obtain ⟨log, rfl⟩ := ht
  refine ⟨c, _, hrun, hcount, ⟨rfl, rfl, rfl, rfl⟩, ⟨rfl, rfl⟩, ?_, ?_⟩
  · intro n hn
    have hfilled := hmem.filled n hn
    rw [bufferAddr_sector hn, unit_lbaTaskfile] at hfilled
    exact hfilled.trans (congrArg _ (Nat.zero_add n))
  · intro a ha
    refine hmem.other a fun n hn => ?_
    rw [bufferAddr_sector hn]
    omega

end Disk

/-! ### Trying one drive -/

/-- A channel with drives: all records are of this channel, have the geometry of their
drive, and the drives are not empty. -/
structure Works (i : Fin 4) (s : AtaState Disk) : Prop where
  base : s.disk.base = (s.ataDevices i).base
  dev : ∀ k j, (s.devAtaDrives k).dev = some j → j = i
  geometry : ∀ k j, (s.devAtaDrives k).dev = some j →
    s.disk.geometry (s.devAtaDrives k).slave = (s.devAtaDrives k).geometry
  blocks : ∀ k j, (s.devAtaDrives k).dev = some j → 1 ≤ s.disk.blocks (s.devAtaDrives k).slave

/-- The first sector of the drive of record `k` has the signature. -/
def Bootable (s : AtaState Disk) (k : Fin 4) : Prop :=
  (s.devAtaDrives k).dev ≠ none ∧
    s.disk.contents (s.devAtaDrives k).slave 510 = 0x55 ∧
    s.disk.contents (s.devAtaDrives k).slave 511 = 0xAA

/-- Drives were tried: the drives and the records are the same, and only where a sector is
loaded memory may have changed. -/
structure Tried (i : Fin 4) (s t : AtaState Disk) : Prop where
  drives : SameDrives s.disk t.disk
  base : (t.ataDevices i).base = (s.ataDevices i).base
  devAtaDrives : t.devAtaDrives = s.devAtaDrives
  mem : ∀ a, (a < 0x7C00 ∨ 0x7E00 ≤ a) → t.machine.mem a = s.machine.mem a

section Try

variable {s t u : AtaState Disk} {i k : Fin 4}

theorem Tried.refl : Tried i s s := ⟨.refl, rfl, rfl, fun _ _ => rfl⟩

theorem Tried.trans (h : Tried i s t) (h' : Tried i t u) : Tried i s u :=
  ⟨h.drives.trans h'.drives, h'.base.trans h.base, h'.devAtaDrives.trans h.devAtaDrives,
    fun a ha => (h'.mem a ha).trans (h.mem a ha)⟩

theorem Works.tried (hs : Works i s) (h : Tried i s t) : Works i t := by
  constructor
  · rw [h.drives.base, h.base, hs.base]
  · rw [h.devAtaDrives]
    exact hs.dev
  · rw [h.devAtaDrives, h.drives.geometry]
    exact hs.geometry
  · rw [h.devAtaDrives, h.drives.blocks]
    exact hs.blocks

theorem bootable_tried (h : Tried i s t) : Bootable t k ↔ Bootable s k := by
  unfold Bootable
  rw [h.devAtaDrives, h.drives.contents]

/-- Loading the first sector of a drive. -/
theorem loadFirst_total {j : Fin 4} (hs : Works i s) (hdev : (s.devAtaDrives k).dev = some j) :
    ∃ u t, (ataDriveSelect (some j) (s.devAtaDrives k).slave).Returns s () u ∧
      (ataReadLba (some j) 0 1 0x7C00).Returns u 512 t ∧ Tried i s t ∧
      (t.ataDevices i).slaveSelected = (s.devAtaDrives k).slave ∧
      ∀ n < 512, t.machine.mem (0x7C00 + n) = s.disk.contents (s.devAtaDrives k).slave n := by
  obtain rfl := hs.dev k j hdev
  obtain ⟨_, u, hselect, hsame, hmem, hselected, hbase, hdrives⟩ :=
    driveSelect_total (s.devAtaDrives k).slave hs.base
  obtain ⟨_, t, hread, rfl, hsame', hstatics, hsector, hother⟩ :=
    readFirst_total (s := u) (by rw [hsame.base, hbase, hs.base]) hselected
      (by rw [hsame.blocks]; exact hs.blocks k j hdev)
  refine ⟨u, t, hselect, hread, ⟨hsame.trans hsame', ?_, ?_, ?_⟩, ?_, ?_⟩
  · rw [hstatics.ataDevices, hbase]
  · rw [hstatics.devAtaDrives, hdrives]
  · intro a ha
    rw [hother a ha, hmem]
  · rw [hstatics.ataDevices, hselected]
  · intro n hn
    rw [hsector n hn, hsame.contents]

theorem hasSignature_loaded {m : ByteMem} {bytes : Nat → U8}
    (h : ∀ n < 512, m (0x7C00 + n) = bytes n) :
    HasSignature m ↔ bytes 510 = 0x55 ∧ bytes 511 = 0xAA := by
  unfold HasSignature
  rw [h 510 (by omega), h 511 (by omega)]

end Try

/-! ### The first bootable drive -/

section Boot

variable {τ : Type} [Bus τ] [Halt τ] [Ticking τ] {s t : BootState Disk τ} {i k : Fin 4}

omit [Ticking τ] in
/-- A sleep of less than a tick only reads the counter. -/
theorem msleep_short (c : Ports τ) : ∃ c', (msleep 2).Returns c () c' := by
  refine ⟨⟨(Bus.ticks (Bus.ticks c.dev).2).2, c.log⟩, returns_bind.mpr ⟨_, _,
    returns_timerGetTicks.mpr ⟨rfl, rfl⟩, returns_loop.mpr (.inl ?_)⟩⟩
  refine returns_bind.mpr ⟨_, _, returns_timerGetTicks.mpr ⟨rfl, rfl⟩, ?_⟩
  have hzero : (2 / 55 : U32) = 0#32 := by decide
  rw [hzero, if_neg BitVec.not_lt_zero]
  exact returns_pure.mpr ⟨rfl, rfl⟩

/-- Trying a drive, up to the check of the signature. -/
theorem prepareBoot_loaded {j : Fin 4} (hs : Works i s.ata)
    (hdev : (s.ata.devAtaDrives k).dev = some j) :
    ∃ u : BootState Disk τ, Tried i s.ata u.ata ∧
      Ticking.time s.clock.dev ≤ Ticking.time u.clock.dev ∧
      (u.ata.ataDevices i).slaveSelected = (s.ata.devAtaDrives k).slave ∧
      (∀ n < 512, u.mem (0x7C00 + n) = s.ata.disk.contents (s.ata.devAtaDrives k).slave n) ∧
      ∀ ready t, (prepareBoot k).Returns s ready t ↔
        (if HasSignature u.mem then do
          takeDrive k
          pure true
        else pure false : Prog (BootState Disk τ) Bool).Returns u ready t := by
  obtain ⟨a, b, hselect, hread, htried, hselected, hsector⟩ := loadFirst_total hs hdev
  obtain ⟨c, hsleep⟩ := msleep_short s.clock
  refine ⟨{ s with ata := b, clock := c }, htried, msleep_le hsleep, hselected, hsector, ?_⟩
  intro ready t
  have hget : (gets fun s : BootState Disk τ => s.ata.devAtaDrives k).Returns s
      (s.ata.devAtaDrives k) s := returns_gets.mpr ⟨rfl, rfl⟩
  have hselect' : (onAta (ataDriveSelect (some j) (s.ata.devAtaDrives k).slave)).Returns s ()
      { s with ata := a } := returns_onAta.mpr ⟨a, hselect, rfl⟩
  have hsleep' : (onClock (msleep 2)).Returns { s with ata := a } ()
      { s with ata := a, clock := c } := returns_onClock.mpr ⟨c, hsleep, rfl⟩
  have hread' : (onAta (ataReadLba (some j) 0 1 0x7C00)).Returns { s with ata := a, clock := c }
      512 { s with ata := b, clock := c } := returns_onAta.mpr ⟨b, hread, rfl⟩
  have hmem : (gets BootState.mem).Returns { s with ata := b, clock := c } b.machine.mem
      { s with ata := b, clock := c } := returns_gets.mpr ⟨rfl, rfl⟩
  rw [prepareBoot, hget.bind_iff, hdev]
  simp only
  rw [hselect'.bind_iff, hsleep'.bind_iff, hread'.bind_iff, if_neg (by decide), hmem.bind_iff]
  rfl

/-- A drive that is not bootable is passed over. -/
theorem prepareBoot_skips (hs : Works i s.ata) (hnot : ¬ Bootable s.ata k) :
    ∃ t : BootState Disk τ, (prepareBoot k).Returns s false t ∧ Tried i s.ata t.ata ∧
      Ticking.time s.clock.dev ≤ Ticking.time t.clock.dev := by
  cases hdev : (s.ata.devAtaDrives k).dev with
  | none =>
      refine ⟨s, ?_, .refl, Nat.le_refl _⟩
      refine returns_bind.mpr ⟨_, s, returns_gets.mpr ⟨rfl, rfl⟩, ?_⟩
      rw [hdev]
      exact returns_pure.mpr ⟨rfl, rfl⟩
  | some j =>
      obtain ⟨u, htried, htime, -, hsector, hrest⟩ := prepareBoot_loaded hs hdev
      have hsig : ¬ HasSignature u.mem := fun h =>
        hnot ⟨by rw [hdev]; exact Option.some_ne_none j, (hasSignature_loaded hsector).mp h⟩
      refine ⟨u, (hrest false u).mpr ?_, htried, htime⟩
      rw [if_neg hsig]
      exact returns_pure.mpr ⟨rfl, rfl⟩

/-- One that is bootable is taken, if the wait before it ends. -/
theorem prepareBoot_takes (hs : Works i s.ata) (hboot : Bootable s.ata k)
    (hclock : ∀ c : Ports τ, Total (msleep 2000) c fun _ _ => True) :
    ∃ u t : BootState Disk τ, (prepareBoot k).Returns s true t ∧
      (takeDrive k).Returns u () t ∧ Tried i s.ata u.ata ∧
      Ticking.time s.clock.dev ≤ Ticking.time u.clock.dev ∧
      (s.ata.devAtaDrives k).dev = some i ∧
      (u.ata.ataDevices i).slaveSelected = (s.ata.devAtaDrives k).slave ∧
      ∀ n < 512, u.mem (0x7C00 + n) = s.ata.disk.contents (s.ata.devAtaDrives k).slave n := by
  obtain ⟨hne, hbytes⟩ := hboot
  obtain ⟨j, hdev⟩ := Option.ne_none_iff_exists'.mp hne
  obtain rfl := hs.dev k j hdev
  obtain ⟨u, htried, htime, hselected, hsector, hrest⟩ := prepareBoot_loaded hs hdev
  obtain ⟨⟨⟩, c, hsleep, -⟩ := hclock u.clock
  obtain ⟨io, hio⟩ : ∃ io, (initializePicRealMode 0x00 0x00).Returns u.ata.machine.io () io := by
    simp [initializePicRealMode, initializePic]
  have htake : (takeDrive k).Returns u () _ := returns_takeDrive.mpr ⟨io, c, hio, hsleep, rfl⟩
  refine ⟨u, _, (hrest true _).mpr ?_, htake, htried, htime, hdev, hselected, hsector⟩
  rw [if_pos ((hasSignature_loaded hsector).mpr hbytes)]
  exact returns_bind.mpr ⟨(), _, htake, returns_pure.mpr ⟨rfl, rfl⟩⟩

/-- Drives that are not bootable are passed over, whatever `call` is. -/
theorem bootAll_skips {pre : List (Fin 4)} (ks : List (Fin 4)) (hs : Works i s.ata)
    (hpre : ∀ k ∈ pre, ¬ Bootable s.ata k) :
    ∃ t : BootState Disk τ, Tried i s.ata t.ata ∧
      Ticking.time s.clock.dev ≤ Ticking.time t.clock.dev ∧
      ∀ call u, (bootAll call (pre ++ ks)).Returns s () u ↔ (bootAll call ks).Returns t () u := by
  induction pre generalizing s with
  | nil => exact ⟨s, .refl, Nat.le_refl _, fun _ _ => Iff.rfl⟩
  | cons k pre ih =>
      obtain ⟨t, hskip, htried, htime⟩ := prepareBoot_skips hs (hpre k List.mem_cons_self)
      obtain ⟨t', htried', htime', hrest⟩ := ih (s := t) (hs.tried htried) fun j hj hboot =>
        hpre j (List.mem_cons_of_mem k hj) ((bootable_tried htried).mp hboot)
      refine ⟨t', htried.trans htried', Nat.le_trans htime htime', fun call u => ?_⟩
      have hnone : (bootFromHd call k).Returns s () t :=
        returns_bind.mpr ⟨false, t, hskip, returns_pure.mpr ⟨rfl, rfl⟩⟩
      rw [← hrest call u, List.cons_append, bootAll, hnone.bind_iff]

omit [Ticking τ] in
/-- Once a bootable drive is taken, INT 13h serves it: it is the abstract disk with memory
as it is and the contents of that drive. -/
theorem takeDrive_represents (hs : Works i s.ata) (hdev : (s.ata.devAtaDrives k).dev = some i)
    (hselected : (s.ata.ataDevices i).slaveSelected = (s.ata.devAtaDrives k).slave)
    (h : (takeDrive k).Returns s () t) :
    Represents (s.ata.devAtaDrives k) i (s.ata.disk.blocks (s.ata.devAtaDrives k).slave)
      (s.ata.disk.contents (!(s.ata.devAtaDrives k).slave))
      ⟨t.mem, s.ata.disk.contents (s.ata.devAtaDrives k).slave⟩ t.ata := by
  obtain ⟨io, c, hio, -, rfl⟩ := returns_takeDrive.mp h
  have hsame : SameDrives s.ata.disk io.dev := sameDrives_initializePic _ _ _ hio .refl
  exact
    { first := by simp [setDrive]
      dev := hdev
      selected := hselected
      attached := hsame.base.trans hs.base
      geometry := (congrFun hsame.geometry _).trans (hs.geometry k i hdev)
      blocks := congrFun hsame.blocks _
      mem := rfl
      contents := congrFun hsame.contents _
      other := congrFun hsame.contents _ }

/-- The first bootable drive is the one that is booted, whatever was tried before and
whatever the called code does: it is called once, after 36 ticks at least, with its first
sector in memory, as the drive of INT 13h. -/
theorem boots_first (pre post : List (Fin 4)) (hs : Works i s.ata)
    (hpre : ∀ j ∈ pre, ¬ Bootable s.ata j) (hboot : Bootable s.ata k) {step : Nat}
    (hwakes : Wakes τ step) (hstep : 36 + 2 * step < 2 ^ 32) :
    ∃ t : BootState Disk τ, Callable t ∧
      (∀ n < 512, t.mem (0x7C00 + n) = s.ata.disk.contents (s.ata.devAtaDrives k).slave n) ∧
      Represents (s.ata.devAtaDrives k) i (s.ata.disk.blocks (s.ata.devAtaDrives k).slave)
        (s.ata.disk.contents (!(s.ata.devAtaDrives k).slave))
        ⟨t.mem, s.ata.disk.contents (s.ata.devAtaDrives k).slave⟩ t.ata ∧
      Ticking.time s.clock.dev + 36 ≤ Ticking.time t.clock.dev ∧
      ∀ call u, (bootAll call (pre ++ k :: post)).Returns s () u ↔
        (do call bootParams; bootAll call post).Returns t () u := by
  have hbound : (2000 : U32).toNat / 55 + 2 * step < 2 ^ 32 := hstep
  have hclock : ∀ c : Ports τ, Total (msleep 2000) c fun _ _ => True := fun c =>
    (sleep_ends hwakes hbound c).mono fun _ _ _ => trivial
  obtain ⟨r, hr, htime, hskip⟩ := bootAll_skips (k :: post) hs hpre
  obtain ⟨u, t, hprepare, htake, hu, htime', hdev, hselected, hsector⟩ :=
    prepareBoot_takes (hs.tried hr) ((bootable_tried hr).mpr hboot) hclock
  have htried : Tried i s.ata u.ata := hr.trans hu
  rw [hr.devAtaDrives] at hdev hselected hsector
  rw [hr.drives.contents] at hsector
  have hcallable := prepareBoot_spec hprepare
  rw [if_pos rfl] at hcallable
  obtain ⟨io, c, hio, hsleep, ht⟩ := returns_takeDrive.mp htake
  refine ⟨t, hcallable.1, ?_, ?_, ?_, ?_⟩
  · intro n hn
    rw [ht]
    exact (clearScreen_other (by omega)).trans (hsector n hn)
  · have hserves := takeDrive_represents (hs.tried htried) (k := k)
      (by rw [htried.devAtaDrives]; exact hdev) (by rw [htried.devAtaDrives]; exact hselected)
      htake
    rw [htried.devAtaDrives, htried.drives.blocks, htried.drives.contents] at hserves
    exact hserves
  · have hwaits : Ticking.time u.clock.dev + 36 ≤ Ticking.time c.dev := msleep_waits hsleep
    rw [ht]
    exact Nat.le_trans (by omega) hwaits
  · intro call v
    have hbooted : ∀ v, (bootFromHd call k).Returns r () v ↔ (call bootParams).Returns t () v := by
      intro v
      rw [bootFromHd, hprepare.bind_iff, returns_when, if_pos rfl]
    rw [hskip call v, bootAll]
    simp only [returns_bind, hbooted]

/-! Two drives, where only the slave has the signature. -/

/-- Only the slave has the signature at the end of its first sector. -/
def signedDisk : Disk :=
  { Disk.blank 0x1F0 ⟨4, 4, 4⟩ with
    contents := fun slave n =>
      if slave && n = 510 then 0x55 else if slave && n = 511 then 0xAA else 0 }

def signedDrive (slave : Bool) : AtaDrive :=
  { smallDrive true with flags := ataDriveLba28 ||| (if slave then ataDriveSlave else 0) }

def signedMachine : BootState Disk SilentController where
  ata :=
    { AtaState.booted signedDisk (signedDrive false) with
      devAtaDrives := fun k =>
        if k = 0 then signedDrive false else if k = 1 then signedDrive true else AtaDrive.empty }
  clock := ⟨⟨0⟩, []⟩
  interruptFlag := true
  vgaEnabled := true

theorem works_signedMachine : Works 0 signedMachine.ata where
  base := rfl
  dev := by decide
  geometry k j h := by
    rcases eq_or_ne k 0 with rfl | h0
    · rfl
    · rcases eq_or_ne k 1 with rfl | h1
      · rfl
      · have hempty : signedMachine.ata.devAtaDrives k = AtaDrive.empty :=
          (if_neg h0).trans (if_neg h1)
        rw [hempty] at h
        exact nomatch h
  blocks _ _ _ := show 1 ≤ 4 * 4 * 4 by decide

theorem boots_first_signed :
    ∃ t : BootState Disk SilentController, Callable t ∧
      (∀ n < 512, t.mem (0x7C00 + n) = signedDisk.contents true n) ∧
      Represents (signedDrive true) 0 64 (signedDisk.contents false)
        ⟨t.mem, signedDisk.contents true⟩ t.ata ∧
      0 + 36 ≤ Ticking.time t.clock.dev ∧
      ∀ call u, (bootAll call [0, 1, 2, 3]).Returns signedMachine () u ↔
        (do call bootParams; bootAll call [2, 3]).Returns t () u :=
  boots_first [0] [2, 3] (k := 1) works_signedMachine
    (fun j hj hboot => by
      rw [List.mem_singleton.mp hj] at hboot
      exact absurd hboot.2.1 (by decide))
    ⟨by decide, by decide, by decide⟩ wakes_silent (by decide)

end Boot

end MyBios
