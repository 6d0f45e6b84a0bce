import MyBios.Interrupt.Acknowledge

/-!
How the two PICs are set up (`interrupt.c`).

A PIC takes four bytes after `0x11` for its vector offset, its wiring and its mode,
and then each byte at its data port for its mask. So what it does depends on the
whole sequence of accesses; `PicPair.after` replays that from the log of the ports.

The steps of a run set the PICs up for one of the two modes, mask or unmask all IRQs,
register handlers, deliver an IRQ, or let the main program do anything that leaves
the data ports of the PICs alone and sends them ends of interrupt only.

* `setup_ready`: a setup works from any state, also from the middle of another.
* `pics_set`: after every run both PICs have the offsets of the last setup and the
  masks of the last step that wrote them, and an IRQ comes with the vector that
  `deliver` gives it exactly for the mode of the last setup.
-/

namespace MyBios.Irq

open Prog Lts

/-! ### One PIC -/

/-- What a PIC takes the next byte at its data port for. -/
inductive Expects where
  | offset
  | wiring
  | mode
  | mask
  deriving DecidableEq, Repr

structure Pic where
  expects : Expects
  /-- bit 1 of the first byte: no wiring follows -/
  single : Bool
  /-- bit 0 of the first byte: the mode follows -/
  fourth : Bool
  offset : U8
  wiring : U8
  mode : U8
  mask : U8
  service : InService

namespace Pic

/-- A byte at the command port. Bit 4 begins an initialization, which clears the mask
and the bits in service. -/
def command (v : U8) (p : Pic) : Pic :=
  if v.getLsbD 4 then
    { p with
      expects := .offset, single := v.getLsbD 1, fourth := v.getLsbD 0, mask := 0
      service := fun _ => false }
  else { p with service := p.service.command v }

/-- A byte at the data port. -/
def data (v : U8) (p : Pic) : Pic :=
  match p.expects with
  | .offset =>
    { p with
      offset := v &&& 0xF8
      expects := if p.single then (if p.fourth then .mode else .mask) else .wiring }
  | .wiring => { p with wiring := v, expects := if p.fourth then .mode else .mask }
  | .mode => { p with mode := v, expects := .mask }
  | .mask => { p with mask := v }

/-- The vector of input `i`. -/
def vector (p : Pic) (i : Nat) : U8 := p.offset ||| BitVec.ofNat 8 i

/-- The PIC is set up, for 8086 mode. -/
structure Ready (offset wiring mask : U8) (p : Pic) : Prop where
  expects : p.expects = .mask
  offset : p.offset = offset
  wiring : p.wiring = wiring
  mode : p.mode = 0x01
  mask : p.mask = mask

end Pic

/-! ### Both PICs -/

structure PicPair where
  master : Pic
  slave : Pic

namespace PicPair

def access : PortEvent → PicPair → PicPair
  | .outb port v, p =>
    if port = 0x20 then { p with master := p.master.command v }
    else if port = 0x21 then { p with master := p.master.data v }
    else if port = 0xA0 then { p with slave := p.slave.command v }
    else if port = 0xA1 then { p with slave := p.slave.data v }
    else p
  | _, p => p

/-- The PICs after the accesses of a log. -/
def after (log : List PortEvent) (p : PicPair) : PicPair := log.foldl (fun p e => access e p) p

theorem after_append {log log' : List PortEvent} {p : PicPair} :
    p.after (log ++ log') = (p.after log).after log' := List.foldl_append

/-- The vector that an IRQ comes with. -/
def vector (p : PicPair) (irq : Fin 16) : U8 :=
  if irq.val < 8 then p.master.vector irq.val else p.slave.vector (irq.val - 8)

/-- The IRQ is not masked; those of the slave come through input 2 of the master. -/
def passes (p : PicPair) (irq : Fin 16) : Bool :=
  if irq.val < 8 then !p.master.mask.getLsbD irq.val
  else !p.master.mask.getLsbD 2 && !p.slave.mask.getLsbD (irq.val - 8)

end PicPair

/-! ### Setting them up -/

section Program

variable {δ : Type} [Bus δ]

/-- The accesses of the two functions; they differ in the offsets. -/
def initializePic (masterOffset slaveOffset masterMask slaveMask : U8) : Io δ Unit := do
  outb 0x20 0x11
  outb 0xA0 0x11
  outb 0x21 masterOffset
  outb 0xA1 slaveOffset
  outb 0x21 0x04
  outb 0xA1 0x02
  outb 0x21 0x01
  outb 0xA1 0x01
  outb 0x21 masterMask
  outb 0xA1 slaveMask

/-- `initialize_pic_protected_mode`. -/
def initializePicProtectedMode (masterMask slaveMask : U8) : Io δ Unit :=
  initializePic 0x20 0x28 masterMask slaveMask

/-- The accesses of `initialize_pic_real_mode`. -/
def initializePicRealMode (masterMask slaveMask : U8) : Io δ Unit :=
  initializePic 0x08 0x70 masterMask slaveMask

/-- The two accesses of `itr_enable` and `itr_disable`. -/
def maskAll (v : U8) : Io δ Unit := do
  outb 0x21 v
  outb 0xA1 v

end Program

def masterOffset : CpuMode → U8
  | .protectedMode => 0x20
  | .realMode => 0x08

def slaveOffset : CpuMode → U8
  | .protectedMode => 0x28
  | .realMode => 0x70

/-- Both PICs are set up for a mode. -/
structure PicPair.Ready (mode : CpuMode) (masterMask slaveMask : U8) (p : PicPair) : Prop where
  master : p.master.Ready (masterOffset mode) 0x04 masterMask
  slave : p.slave.Ready (slaveOffset mode) 0x02 slaveMask

/-- What `initialize_pic_*` writes. -/
def initializeWrites (masterOffset slaveOffset masterMask slaveMask : U8) : List PortEvent :=
  [.outb 0x20 0x11, .outb 0xA0 0x11, .outb 0x21 masterOffset, .outb 0xA1 slaveOffset,
    .outb 0x21 0x04, .outb 0xA1 0x02, .outb 0x21 0x01, .outb 0xA1 0x01, .outb 0x21 masterMask,
    .outb 0xA1 slaveMask]

section Setup

variable {δ : Type} [Bus δ] {p q : Ports δ} {u : Unit}

theorem log_initializePic {mo so mm sm : U8} (h : (initializePic mo so mm sm).Returns p u q) :
    q.log = p.log ++ initializeWrites mo so mm sm := by
  simp only [initializePic, returns_bind, returns_outb] at h
  obtain ⟨_, _, rfl, _, _, rfl, _, _, rfl, _, _, rfl, _, _, rfl, _, _, rfl, _, _, rfl, _, _, rfl,
    _, _, rfl, rfl⟩ := h
  simp [initializeWrites]

theorem log_maskAll {v : U8} (h : (maskAll v).Returns p u q) :
    q.log = p.log ++ [.outb 0x21 v, .outb 0xA1 v] := by
  simp only [maskAll, returns_bind, returns_outb] at h
  obtain ⟨_, _, rfl, rfl⟩ := h
  simp

/-- The PICs may be in any state before. -/
theorem setup_ready (pics : PicPair) (mode : CpuMode) (mm sm : U8) :
    (pics.after (initializeWrites (masterOffset mode) (slaveOffset mode) mm sm)).Ready mode mm
      sm := by
  cases mode with
  | protectedMode => exact ⟨⟨rfl, rfl, rfl, rfl, rfl⟩, ⟨rfl, rfl, rfl, rfl, rfl⟩⟩
  | realMode => exact ⟨⟨rfl, rfl, rfl, rfl, rfl⟩, ⟨rfl, rfl, rfl, rfl, rfl⟩⟩

end Setup

/-! ### Accesses that leave the setup alone -/

/-- Nothing goes to the data ports, and to the command ports only ends of interrupt. -/
def SparesPics : PortEvent → Prop
  | .outb port v => port ≠ 0x21 ∧ port ≠ 0xA1 ∧ (port = 0x20 ∨ port = 0xA0 → v = 0x20)
  | _ => True

/-- The PICs differ in their bits in service only. -/
structure PicPair.SameSetup (p q : PicPair) : Prop where
  master : q.master = { p.master with service := q.master.service }
  slave : q.slave = { p.slave with service := q.slave.service }

theorem Pic.command_eoi (p : Pic) :
    p.command 0x20 = { p with service := (p.command 0x20).service } := rfl

namespace PicPair

variable {p q r : PicPair} {mode : CpuMode} {mm sm : U8}

theorem SameSetup.refl : p.SameSetup p := ⟨rfl, rfl⟩

theorem SameSetup.trans (h : p.SameSetup q) (h' : q.SameSetup r) : p.SameSetup r := by
  obtain ⟨hm, hs⟩ := h
  obtain ⟨hm', hs'⟩ := h'
  rw [hm] at hm'
  rw [hs] at hs'
  exact ⟨hm', hs'⟩

theorem access_spares {e : PortEvent} (h : SparesPics e) (p : PicPair) :
    p.SameSetup (access e p) := by
  cases e with
  | outb port v =>
      obtain ⟨hmaster, hslave, heoi⟩ := h
      by_cases h20 : port = 0x20
      · rw [access, if_pos h20, heoi (.inl h20)]
        exact ⟨rfl, rfl⟩
      · by_cases hA0 : port = 0xA0
        · rw [access, if_neg h20, if_neg hmaster, if_pos hA0, heoi (.inr hA0)]
          exact ⟨rfl, rfl⟩
        · rw [access, if_neg h20, if_neg hmaster, if_neg hA0, if_neg hslave]
          exact .refl
  | inb port v => exact .refl
  | inw port v => exact .refl
  | outw port v => exact .refl

theorem after_spares {log : List PortEvent} (h : ∀ e ∈ log, SparesPics e) (p : PicPair) :
    p.SameSetup (p.after log) := by
  induction log generalizing p with
  | nil => exact .refl
  | cons e log ih =>
      have first : p.SameSetup (access e p) := access_spares (h e List.mem_cons_self) p
      exact first.trans (ih (fun e' he' => h e' (List.mem_cons_of_mem e he')) _)

/-- Ends of interrupt leave a setup alone. -/
theorem Ready.same (h : p.Ready mode mm sm) (same : p.SameSetup q) : q.Ready mode mm sm := by
  obtain ⟨⟨he, ho, hw, hm, hk⟩, ⟨he', ho', hw', hm', hk'⟩⟩ := h
  constructor
  · rw [same.master]
    exact ⟨he, ho, hw, hm, hk⟩
  · rw [same.slave]
    exact ⟨he', ho', hw', hm', hk'⟩

/-- Writing the masks of a PIC that is set up. -/
theorem Ready.masks (h : p.Ready mode mm sm) (v : U8) :
    (p.after [.outb 0x21 v, .outb 0xA1 v]).Ready mode v v := by
  obtain ⟨⟨he, ho, hw, hm, hk⟩, ⟨he', ho', hw', hm', hk'⟩⟩ := h
  have hmaster : p.master.data v = { p.master with mask := v } := by simp only [Pic.data, he]
  have hslave : p.slave.data v = { p.slave with mask := v } := by simp only [Pic.data, he']
  have hafter : p.after [.outb 0x21 v, .outb 0xA1 v] =
      ⟨p.master.data v, p.slave.data v⟩ := rfl
  rw [hafter, hmaster, hslave]
  exact ⟨⟨he, ho, hw, hm, rfl⟩, ⟨he', ho', hw', hm', rfl⟩⟩

/-- The offsets end in three zero bits, where the input goes. -/
theorem vector_offsets : ∀ (mode : CpuMode) (irq : Fin 16),
    (if irq.val < 8 then masterOffset mode ||| BitVec.ofNat 8 irq.val
      else slaveOffset mode ||| BitVec.ofNat 8 (irq.val - 8)) =
        vectorOf (masterOffset mode) (slaveOffset mode) irq := by
  intro mode
  cases mode <;> decide

theorem Ready.vector (h : p.Ready mode mm sm) (irq : Fin 16) :
    p.vector irq = vectorOf (masterOffset mode) (slaveOffset mode) irq := by
  rw [← vector_offsets]
  unfold PicPair.vector Pic.vector
  rw [h.master.offset, h.slave.offset]

theorem Ready.passes (h : p.Ready mode mm sm) (irq : Fin 16) :
    p.passes irq = if irq.val < 8 then !mm.getLsbD irq.val
      else !mm.getLsbD 2 && !sm.getLsbD (irq.val - 8) := by
  rw [PicPair.passes, h.master.mask, h.slave.mask]

end PicPair

/-! ### What the handlers send -/

section Spares

variable {δ κ ε : Type} {log₀ : List PortEvent}

/-- Since a log was `log₀` only such accesses were made. -/
def SparesSince (log₀ : List PortEvent) (log : List PortEvent) : Prop :=
  ∃ more, log = log₀ ++ more ∧ ∀ e ∈ more, SparesPics e

theorem SparesSince.refl : SparesSince log₀ log₀ := ⟨[], by simp, by simp⟩

theorem SparesSince.snoc {log : List PortEvent} {e : PortEvent} (h : SparesSince log₀ log)
    (he : SparesPics e) : SparesSince log₀ (log ++ [e]) := by
  obtain ⟨more, rfl, hmore⟩ := h
  refine ⟨more ++ [e], by simp, ?_⟩
  intro e' he'
  rcases List.mem_append.mp he' with he' | he'
  · exact hmore e' he'
  · rwa [List.mem_singleton.mp he']

variable [Bus δ] {p : U16} {v : U8}

theorem spares_inb : Keeps (fun q : Ports δ => SparesSince log₀ q.log) (inb p) := by
  intro q a q' h hq
  obtain ⟨-, rfl⟩ := returns_inb.mp h
  exact hq.snoc trivial

theorem spares_outb (h : SparesPics (.outb p v)) :
    Keeps (fun q : Ports δ => SparesSince log₀ q.log) (outb p v) := by
  intro q u q' hr hq
  obtain rfl := returns_outb.mp hr
  exact hq.snoc h

theorem spares_ticks : Keeps (fun q : Ports δ => SparesSince log₀ q.log) timerGetTicks := by
  intro q a q' h hq
  obtain ⟨-, rfl⟩ := returns_timerGetTicks.mp h
  exact hq

/-- A byte for a port that is not one of a PIC. -/
theorem sparesPics_other (h : p ≠ 0x20 ∧ p ≠ 0x21 ∧ p ≠ 0xA0 ∧ p ≠ 0xA1) :
    SparesPics (.outb p v) :=
  ⟨h.2.1, h.2.2.2, fun hp => absurd hp (not_or.mpr ⟨h.1, h.2.2.1⟩)⟩

theorem sparesPics_eoi (h : p = 0x20 ∨ p = 0xA0) : SparesPics (.outb p 0x20) := by
  refine ⟨?_, ?_, fun _ => rfl⟩
  · rintro rfl
    revert h
    decide
  · rintro rfl
    revert h
    decide

theorem spares_keyboard :
    AccessesKeep (fun q : Ports δ => SparesSince log₀ q.log) :=
  ⟨fun _ => spares_inb, fun _ => spares_outb (sparesPics_other (by decide)), spares_ticks⟩

theorem spares_keyboardIrqHandler :
    Keeps (fun m : Machine δ => SparesSince log₀ m.io.log) keyboardIrqHandler := by
  have ports : ∀ {α : Type} {q : Io δ α}, Keeps (fun q : Ports δ => SparesSince log₀ q.log) q →
      Keeps (fun m : Machine δ => SparesSince log₀ m.io.log) (onPorts q) :=
    fun h => Keeps.zoom fun _ => h
  have memory : ∀ f : Machine δ → ByteMem,
      Keeps (fun m : Machine δ => SparesSince log₀ m.io.log)
        (modify fun m => { m with mem := f m }) :=
    fun _ => keeps_modify fun _ h => h
  refine Keeps.bind ?_ fun _ => keeps_pure
  refine (ports spares_keyboard.readData).bind fun _ => (memory _).bind fun _ => ?_
  refine Keeps.bind (Keeps.when ?_) fun _ => (memory _).when.bind fun _ => keeps_pure
  refine Keeps.bind keeps_gets fun _ => ports ?_
  exact spares_keyboard.updateLeds

theorem spares_serialHandler :
    Keeps (fun s : Serial δ => SparesSince log₀ s.io.log) serialWriteAvailableHandler := by
  have write : ∀ reg v, serialPort + reg ≠ 0x20 ∧ serialPort + reg ≠ 0x21 ∧
      serialPort + reg ≠ 0xA0 ∧ serialPort + reg ≠ 0xA1 →
      Keeps (fun s : Serial δ => SparesSince log₀ s.io.log) (serialRegWrite reg v) :=
    fun _ _ h => Keeps.zoom fun _ => spares_outb (sparesPics_other h)
  have read : ∀ reg, Keeps (fun s : Serial δ => SparesSince log₀ s.io.log) (serialRegRead reg) :=
    fun _ => Keeps.zoom fun _ => spares_inb
  refine keeps_get.bind fun _ => ?_
  refine Keeps.bind (Keeps.when (Keeps.ite ?_ (write _ _ (by decide)))) fun _ =>
    Keeps.zoom fun _ => spares_outb (sparesPics_eoi (.inl rfl))
  refine (read _).bind fun _ => Keeps.when ?_
  exact (write _ _ (by decide)).bind fun _ => keeps_modify fun _ h => h

/-- The accesses of a board. -/
def Board.Spares (log₀ : List PortEvent) (b : Board δ κ ε) : Prop := SparesSince log₀ b.log

variable [Callbacks κ ε]

/-- What interrupts run keeps `I`: the handlers, the ends of interrupt, and the count of
ticks in `bios.asm`. -/
structure HandlersKeep (I : Board δ κ ε → Prop) : Prop where
  run : ∀ handler : Handler, Keeps I handler.run
  eoi : ∀ p, p = 0x20 ∨ p = 0xA0 → Keeps I (port p 0x20)
  ticks : Keeps I (zoom Board.timingLens (modify realModeHandleTimer))

namespace HandlersKeep

variable {I : Board δ κ ε → Prop}

theorem itrHandleIrq (h : HandlersKeep I) {data : U32} : Keeps I (itrHandleIrq data) := by
  refine Keeps.bind ?_ fun _ => Keeps.bind (h.eoi _ (.inr rfl)).when fun _ => h.eoi _ (.inl rfl)
  refine keeps_get.bind fun b => ?_
  cases b.irqHandlers data.toNat with
  | none => exact keeps_pure
  | some handler => exact h.run handler

theorem handleItr (h : HandlersKeep I) {vector : U8} : Keeps I (handleItr vector) := by
  refine Keeps.ite (h.eoi _ (.inl rfl)) (keeps_get.bind fun b => ?_)
  cases b.itrHandlers vector with
  | none => exact keeps_pure
  | some data => exact h.itrHandleIrq

theorem realModeVector (h : HandlersKeep I) {vector : U8} : Keeps I (realModeVector vector) := by
  refine Keeps.ite (h.ticks.bind fun _ => h.eoi _ (.inl rfl)) (Keeps.ite (h.eoi _ (.inl rfl)) ?_)
  refine keeps_get.bind fun b => ?_
  cases b.realModeItrHandlers vector with
  | none => exact Keeps.ite (fun _ _ _ h => absurd h not_returns_hlt) keeps_pure
  | some data => exact h.itrHandleIrq

end HandlersKeep

theorem handlers_spare : HandlersKeep (Board.Spares (δ := δ) (κ := κ) (ε := ε) log₀) where
  run handler := by
    cases handler with
    | timer =>
        intro b u b' h hb
        obtain ⟨t, -, rfl⟩ := returns_zoom.mp h
        exact hb
    | keyboard => exact Keeps.zoom fun _ => spares_keyboardIrqHandler
    | ata => exact keeps_pure
    | serial => exact Keeps.zoom fun _ => spares_serialHandler
  eoi p hp := Keeps.zoom fun _ => spares_outb (sparesPics_eoi hp)
  ticks := by
    intro b u b' h hb
    obtain ⟨t, -, rfl⟩ := returns_zoom.mp h
    exact hb

theorem handlers_keepTables {b₀ : Board δ κ ε} : HandlersKeep b₀.SameTables where
  run handler := by
    cases handler with
    | ata => exact keeps_pure
    | timer | keyboard | serial =>
        intro b u b' h hb
        obtain ⟨t, -, rfl⟩ := returns_zoom.mp h
        exact hb
  eoi p hp := by
    intro b u b' h hb
    obtain ⟨t, -, rfl⟩ := returns_zoom.mp h
    exact hb
  ticks := by
    intro b u b' h hb
    obtain ⟨t, -, rfl⟩ := returns_zoom.mp h
    exact hb

end Spares

/-! ### Runs -/

/-- The board and the interrupt flag of the processor. -/
structure Core (δ κ ε : Type) where
  board : Board δ κ ε
  interruptFlag : Bool

def Core.portsLens (δ κ ε : Type) : Lens (Core δ κ ε) (Ports δ) where
  get s := s.board.serial.io
  set io s := { s with board := { s.board with serial := { s.board.serial with io := io } } }
  get_set _ _ := rfl
  set_get _ := rfl

/-- The PICs, which were in state `p₀` when the log was empty. -/
def Core.pics {δ κ ε : Type} (p₀ : PicPair) (s : Core δ κ ε) : PicPair := p₀.after s.board.log

section Steps

variable {δ κ ε : Type} [Bus δ]

def onBoardPorts (p : Io δ Unit) : Prog (Core δ κ ε) Unit := zoom (Core.portsLens δ κ ε) p

def setFlag (v : Bool) : Prog (Core δ κ ε) Unit := modify fun s => { s with interruptFlag := v }

/-- `initialize_pic_protected_mode`, and `initialize_pic_real_mode` with its `cli`. -/
def picSetup (mode : CpuMode) (masterMask slaveMask : U8) : Prog (Core δ κ ε) Unit :=
  match mode with
  | .protectedMode => onBoardPorts (initializePicProtectedMode masterMask slaveMask)
  | .realMode => do
    setFlag false
    onBoardPorts (initializePicRealMode masterMask slaveMask)

/-- `itr_enable`. -/
def itrEnable : Prog (Core δ κ ε) Unit := do
  onBoardPorts (maskAll 0x00)
  setFlag true

/-- `itr_disable`. -/
def itrDisable : Prog (Core δ κ ε) Unit := do
  onBoardPorts (maskAll 0xFF)
  setFlag false

/-- What the processor does with a vector. -/
def interruptVector [Callbacks κ ε] (mode : CpuMode) (vector : U8) : Prog (Board δ κ ε) Unit :=
  match mode with
  | .protectedMode => handleItr vector
  | .realMode => realModeVector vector

inductive PicLabel where
  | setup (mode : CpuMode) (masterMask slaveMask : U8)
  | enable
  | disable
  | register (irq : Fin 16) (handler : Handler)
  /-- an IRQ in the mode of the processor -/
  | deliver (mode : CpuMode) (irq : Fin 16)
  | main

variable [Callbacks κ ε]

/-- An IRQ is taken with interrupts on and if it is not masked, with the vector that the
PICs give. The `iret` restores the flag. -/
inductive PicStep (p₀ : PicPair) : Core δ κ ε → PicLabel → Core δ κ ε → Prop where
  | setup {s t : Core δ κ ε} {mode : CpuMode} {mm sm : U8} :
      (picSetup mode mm sm).Returns s () t → PicStep p₀ s (.setup mode mm sm) t
  | enable {s t : Core δ κ ε} : itrEnable.Returns s () t → PicStep p₀ s .enable t
  | disable {s t : Core δ κ ε} : itrDisable.Returns s () t → PicStep p₀ s .disable t
  | register {s : Core δ κ ε} {irq : Fin 16} {handler : Handler} :
      PicStep p₀ s (.register irq handler) { s with board := itrSetIrqHandler irq handler s.board }
  | deliver {s : Core δ κ ε} {mode : CpuMode} {irq : Fin 16} {b : Board δ κ ε} :
      s.interruptFlag = true → (s.pics p₀).passes irq = true →
      (interruptVector mode ((s.pics p₀).vector irq)).Returns s.board () b →
      PicStep p₀ s (.deliver mode irq) { s with board := b }
  | main {s : Core δ κ ε} {b : Board δ κ ε} : s.board.SameTables b →
      SparesSince s.board.log b.log → PicStep p₀ s .main { s with board := b }

end Steps

/-- What the labels of a run say about the PICs. -/
structure Setting where
  mode : CpuMode
  masterMask : U8
  slaveMask : U8

def PicLabel.setting : Option Setting → PicLabel → Option Setting
  | _, .setup mode mm sm => some ⟨mode, mm, sm⟩
  | a, .enable => a.map fun a => ⟨a.mode, 0x00, 0x00⟩
  | a, .disable => a.map fun a => ⟨a.mode, 0xFF, 0xFF⟩
  | a, _ => a

/-- And about the interrupt flag. -/
def PicLabel.flag : Bool → PicLabel → Bool
  | _, .setup .realMode _ _ => false
  | _, .enable => true
  | _, .disable => false
  | v, _ => v

section Runs

variable {δ κ ε : Type} {p₀ : PicPair} {s t : Core δ κ ε} {l : PicLabel}

theorem returns_setFlag {v : Bool} {u : Unit} :
    (setFlag v).Returns s u t ↔ t = { s with interruptFlag := v } := returns_modify

/-- A program that makes some writes. -/
theorem pics_onBoardPorts (p₀ : PicPair) {p : Io δ Unit} {writes : List PortEvent} {u : Unit}
    (hlog : ∀ q q', p.Returns q () q' → q'.log = q.log ++ writes)
    (h : (onBoardPorts p).Returns s u t) :
    t.pics p₀ = (s.pics p₀).after writes ∧ s.board.SameTables t.board ∧
      t.interruptFlag = s.interruptFlag := by
  obtain ⟨io, hio, rfl⟩ := returns_zoom.mp h
  refine ⟨?_, ⟨rfl, rfl, rfl⟩, rfl⟩
  show p₀.after io.log = _
  rw [hlog _ _ hio, PicPair.after_append]
  rfl

/-- Accesses that spare the PICs. -/
theorem pics_spares {b : Board δ κ ε} {flag : Bool} (h : SparesSince s.board.log b.log) :
    (s.pics p₀).SameSetup (Core.pics p₀ ⟨b, flag⟩) := by
  obtain ⟨more, hlog, hmore⟩ := h
  show (p₀.after s.board.log).SameSetup (p₀.after b.log)
  rw [hlog, PicPair.after_append]
  exact PicPair.after_spares hmore _

variable [Bus δ]

theorem log_setup (mode : CpuMode) {mm sm : U8} {q q' : Ports δ}
    (h : (initializePic (masterOffset mode) (slaveOffset mode) mm sm).Returns q () q') :
    q'.log = q.log ++ initializeWrites (masterOffset mode) (slaveOffset mode) mm sm :=
  log_initializePic h

/-- A setup. -/
theorem picSetup_spec (p₀ : PicPair) {mode : CpuMode} {mm sm : U8}
    (h : (picSetup mode mm sm).Returns s () t) :
    (t.pics p₀).Ready mode mm sm ∧ s.board.SameTables t.board ∧
      t.interruptFlag = PicLabel.flag s.interruptFlag (.setup mode mm sm) := by
  cases mode with
  | protectedMode =>
      obtain ⟨hpics, same, hflag⟩ := pics_onBoardPorts p₀
        (fun _ _ => log_setup .protectedMode) h
      rw [hpics]
      exact ⟨setup_ready _ _ _ _, same, hflag⟩
  | realMode =>
      obtain ⟨_, s₁, hcli, hsetup⟩ := returns_bind.mp h
      obtain rfl := returns_setFlag.mp hcli
      obtain ⟨hpics, same, hflag⟩ := pics_onBoardPorts p₀
        (fun _ _ => log_setup .realMode) hsetup
      rw [hpics]
      exact ⟨setup_ready _ _ _ _, same, hflag⟩

/-- `itr_enable` and `itr_disable`. -/
theorem maskAll_spec (p₀ : PicPair) {v : U8} {flag : Bool}
    (h : (do onBoardPorts (maskAll v); setFlag flag : Prog (Core δ κ ε) Unit).Returns s () t) :
    (∀ mode mm sm, (s.pics p₀).Ready mode mm sm → (t.pics p₀).Ready mode v v) ∧
      s.board.SameTables t.board ∧ t.interruptFlag = flag := by
  obtain ⟨_, s₁, hmask, hflag⟩ := returns_bind.mp h
  obtain rfl := returns_setFlag.mp hflag
  obtain ⟨hpics, same, -⟩ := pics_onBoardPorts p₀ (fun _ _ => log_maskAll) hmask
  refine ⟨fun mode mm sm ready => ?_, same, rfl⟩
  have hsame : Core.pics p₀ { s₁ with interruptFlag := flag } = s₁.pics p₀ := rfl
  rw [hsame, hpics]
  exact ready.masks v

variable [Callbacks κ ε]

theorem HandlersKeep.interruptVector {I : Board δ κ ε → Prop} (h : HandlersKeep I)
    {mode : CpuMode} {vector : U8} : Keeps I (interruptVector mode vector) := by
  cases mode with
  | protectedMode => exact h.handleItr
  | realMode => exact h.realModeVector

/-- What one step makes of the setting and of the flag. -/
theorem picStep_spec (h : PicStep p₀ s l t) :
    t.interruptFlag = l.flag s.interruptFlag ∧
      ∀ o, (∀ a, o = some a → (s.pics p₀).Ready a.mode a.masterMask a.slaveMask) →
        ∀ a, l.setting o = some a → (t.pics p₀).Ready a.mode a.masterMask a.slaveMask := by
  cases h with
  | setup hrun =>
      obtain ⟨ready, -, hflag⟩ := picSetup_spec p₀ hrun
      refine ⟨hflag, ?_⟩
      rintro o - a ⟨⟩
      exact ready
  | enable hrun =>
      refine ⟨(maskAll_spec p₀ hrun).2.2, ?_⟩
      intro o ready a ha
      obtain ⟨b, rfl, rfl⟩ := Option.map_eq_some_iff.mp ha
      exact (maskAll_spec p₀ hrun).1 _ _ _ (ready b rfl)
  | disable hrun =>
      refine ⟨(maskAll_spec p₀ hrun).2.2, ?_⟩
      intro o ready a ha
      obtain ⟨b, rfl, rfl⟩ := Option.map_eq_some_iff.mp ha
      exact (maskAll_spec p₀ hrun).1 _ _ _ (ready b rfl)
  | register => exact ⟨rfl, fun _ ready => ready⟩
  | deliver _ _ hrun =>
      have spares := handlers_spare.interruptVector _ _ _ hrun SparesSince.refl
      exact ⟨rfl, fun _ ready a ha => (ready a ha).same (pics_spares spares)⟩
  | main _ spares => exact ⟨rfl, fun _ ready a ha => (ready a ha).same (pics_spares spares)⟩

/-- The tables change by registrations only. -/
theorem tables_picStep (ht : Tables s.board) (h : PicStep p₀ s l t) : Tables t.board := by
  cases h with
  | setup hrun => exact ht.same (picSetup_spec p₀ hrun).2.1
  | enable hrun =>
      exact ht.same (maskAll_spec p₀ hrun).2.1
  | disable hrun =>
      exact ht.same (maskAll_spec p₀ hrun).2.1
  | register => exact ht.register _ _
  | deliver _ _ hrun =>
      exact ht.same (handlers_keepTables.interruptVector _ _ _ hrun ⟨rfl, rfl, rfl⟩)
  | main same _ => exact ht.same same

/-- What a whole run makes of them. -/
theorem run_spec {s₀ : Core δ κ ε} {ls : List PicLabel} (init : Tables s₀.board)
    (run : Run (PicStep p₀) s₀ ls s) :
    Tables s.board ∧ s.interruptFlag = ls.foldl PicLabel.flag s₀.interruptFlag ∧
      ∀ a, ls.foldl PicLabel.setting none = some a →
        (s.pics p₀).Ready a.mode a.masterMask a.slaveMask := by
  refine run.invariant (I := fun ls s => Tables s.board ∧
    s.interruptFlag = ls.foldl PicLabel.flag s₀.interruptFlag ∧
      ∀ a, ls.foldl PicLabel.setting none = some a →
        (s.pics p₀).Ready a.mode a.masterMask a.slaveMask) ⟨init, rfl, fun _ h => nomatch h⟩ ?_
  rintro ls s l t ⟨ht, hflag, ready⟩ hstep
  obtain ⟨hflag', ready'⟩ := picStep_spec hstep
  refine ⟨tables_picStep ht hstep, ?_, ?_⟩
  · rw [hflag', hflag, List.foldl_append]
    rfl
  · rw [List.foldl_append]
    exact ready' _ ready

end Runs

/-- The entry of a vector in the table of a mode. -/
def Board.entry {δ κ ε : Type} (b : Board δ κ ε) : CpuMode → U8 → Option U32
  | .protectedMode => b.itrHandlers
  | .realMode => b.realModeItrHandlers

/-- The modes have no vector in common. -/
theorem vectorOf_eq_iff : ∀ (mode mode' : CpuMode) (irq : Fin 16),
    vectorOf (masterOffset mode) (slaveOffset mode) irq =
      vectorOf (masterOffset mode') (slaveOffset mode') irq ↔ mode' = mode := by
  intro mode mode'
  cases mode <;> cases mode' <;> decide

section Result

variable {δ κ ε : Type} [Bus δ] [Callbacks κ ε] {p₀ : PicPair} {s₀ s : Core δ κ ε}
  {ls : List PicLabel} {a : Setting}

/-- The PICs after a run in which they were set up, for whatever state they started in. -/
theorem pics_set (init : Tables s₀.board) (run : Run (PicStep p₀) s₀ ls s)
    (hset : ls.foldl PicLabel.setting none = some a) :
    (s.pics p₀).Ready a.mode a.masterMask a.slaveMask ∧
      s.interruptFlag = ls.foldl PicLabel.flag s₀.interruptFlag ∧
      (∀ mode irq, (s.pics p₀).vector irq = vectorOf (masterOffset mode) (slaveOffset mode) irq ↔
        mode = a.mode) ∧
      ∀ irq, s.board.entry a.mode ((s.pics p₀).vector irq) =
        if a.mode = .realMode ∧ 8 ≤ irq.val then none
        else (s.board.irqHandlers irq.val).map fun _ => BitVec.ofNat 32 irq.val := by
  obtain ⟨ht, hflag, hready⟩ := run_spec init run
  have ready := hready a hset
  refine ⟨ready, hflag, ?_, ?_⟩
  · intro mode irq
    rw [ready.vector irq]
    exact vectorOf_eq_iff a.mode mode irq
  · intro irq
    rw [ready.vector irq]
    cases a.mode with
    | protectedMode =>
        rw [if_neg (by simp)]
        exact ht.protectedMode irq
    | realMode =>
        by_cases hirq : 8 ≤ irq.val
        · rw [if_pos ⟨rfl, hirq⟩]
          exact ht.high irq hirq
        · rw [if_neg fun h => hirq h.2]
          exact ht.low irq (Nat.lt_of_not_le hirq)

end Result

/-- PICs that wait for the second and the fourth byte of an initialization. -/
def PicPair.halfway : PicPair :=
  ⟨⟨.offset, false, true, 0x70, 0, 0, 0, fun _ => false⟩,
    ⟨.mode, false, true, 0, 2, 0, 0xFF, fun _ => true⟩⟩

/-- The disk's interrupt, registered after a setup for protected mode. -/
theorem pics_set_disk :
    ∃ s : Core Serial.ReadyLine Unit Unit,
      Run (PicStep .halfway) ⟨System.fresh.board, false⟩
        [.setup .protectedMode 0xFF 0xFF, .register 14 .ata] s ∧
      (s.pics .halfway).vector 14 = 0x2E ∧
      s.board.entry .protectedMode 0x2E = some 14 := by
  obtain ⟨t, hsetup⟩ : ∃ t : Core Serial.ReadyLine Unit Unit,
      (picSetup .protectedMode 0xFF 0xFF).Returns ⟨System.fresh.board, false⟩ () t := by
    simp [picSetup, onBoardPorts, initializePicProtectedMode, initializePic]
  have run : Run (PicStep .halfway) (⟨System.fresh.board, false⟩ : Core Serial.ReadyLine Unit Unit)
      [.setup .protectedMode 0xFF 0xFF, .register 14 .ata]
      { t with board := itrSetIrqHandler 14 .ata t.board } :=
    (Run.nil.snoc (.setup hsetup)).snoc .register
  obtain ⟨-, -, hvector, hentry⟩ := pics_set (Tables.start started_fresh) run rfl
  have h14 := (hvector .protectedMode 14).mpr rfl
  have hentry14 := hentry 14
  rw [h14] at hentry14
  exact ⟨_, run, h14, hentry14⟩

end MyBios.Irq
