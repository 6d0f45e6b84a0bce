import MyBios.Interrupt.Pic
import MyBios.Interrupt.Frame
import MyBios.Lib.Table

/-!
The interrupt descriptor table (`itr_init` of `interrupt.c`).

A gate is 8 bytes of the array `idt`: the function's address in two halves, the selector
of the code segment, and the type. `itr_init` stores a gate for each of the 256 vectors,
then again for 21 exceptions, sets up the PICs with all IRQs masked, and loads the table.
What it prints is left out. Functions have addresses, which are a parameter.

* `idtTable`: an entry reads back as it was stored, and the other entries are as before.
* `itr_init_spec`: afterwards the processor finds for every vector a present gate to the
  function that `handlerOf` names, and nothing else in memory has changed. Every IRQ
  comes with the vector of an interrupt gate to `handle_itr_N` for that vector, so
  handlers run with interrupts off; and no IRQ comes until it is unmasked.
-/

namespace MyBios.Irq

open Prog

/-! ### Gates -/

/-- The functions that gates lead to. -/
inductive BaseHandler where
  /-- `handle_itr_N` -/
  | itr (vector : U8)
  | divideByZero | debug | nmi | breakpoint | overflow | boundRangeExceeded | invalidOpcode
  | deviceNotAvailable | doubleFault | coprocessorSegmentOverrun | invalidTss
  | segmentNotPresent | stackSegmentFault | generalProtectionFault | pageFault
  | x87FloatingPointException | alignmentCheck | machineCheck | simdFloatingPointException
  | virtualizationException | securityException
  deriving DecidableEq, Repr

/-- `itr_gate_type`, as far as it is used. -/
inductive GateType where
  | interrupt
  | trap
  deriving DecidableEq, Repr

def GateType.code : GateType → U8
  | interrupt => 0xE
  | trap => 0xF

/-- `idt_entry`. -/
structure IdtEntry where
  offsetLow : U16
  selector : U16
  zero : U8
  typeAttr : U8
  offsetHigh : U16
  deriving DecidableEq

/-- `&idt[vector]`. -/
def idtAddr (idt : Nat) (vector : U8) : Nat := idt + 8 * vector.toNat

def IdtEntry.store (e : IdtEntry) (m : ByteMem) (a : Nat) : ByteMem :=
  let m := m.write16 a e.offsetLow
  let m := m.write16 (a + 2) e.selector
  let m := m.write8 (a + 4) e.zero
  let m := m.write8 (a + 5) e.typeAttr
  m.write16 (a + 6) e.offsetHigh

def IdtEntry.load (m : ByteMem) (a : Nat) : IdtEntry where
  offsetLow := m.read16 a
  selector := m.read16 (a + 2)
  zero := m (a + 4)
  typeAttr := m (a + 5)
  offsetHigh := m.read16 (a + 6)

/-- What `set_base_handler` stores. -/
def baseEntry (handler : U32) (type : GateType) : IdtEntry where
  offsetLow := (handler &&& 0xFFFF).setWidth 16
  selector := 0x08
  zero := 0
  typeAttr := 0x80 ||| type.code
  offsetHigh := ((handler >>> 16) &&& 0xFFFF).setWidth 16

/-- `set_base_handler`. -/
def setBaseHandler (idt : Nat) (vector : U8) (handler : U32) (type : GateType) (m : ByteMem) :
    ByteMem :=
  (baseEntry handler type).store m (idtAddr idt vector)

section Gates

variable {m : ByteMem} {a b idt : Nat} {e : IdtEntry}

theorem load_store : IdtEntry.load (e.store m a) a = e := by
  simp (disch := omega) [IdtEntry.load, IdtEntry.store, ByteMem.read16_write16_disjoint,
    ByteMem.read16_write8_disjoint, ByteMem.write16_other, ByteMem.write8_other]

theorem store_other {x : Nat} (h : x < a ∨ a + 8 ≤ x) : e.store m a x = m x := by
  simp (disch := omega) only [IdtEntry.store, ByteMem.write16_other, ByteMem.write8_other]

theorem load_congr {m' : ByteMem} (h : ∀ x, a ≤ x → x < a + 8 → m' x = m x) :
    IdtEntry.load m' a = IdtEntry.load m a := by
  have half : ∀ i ≤ 6, m'.read16 (a + i) = m.read16 (a + i) := fun i hi =>
    ByteMem.read16_congr fun x _ _ => h x (by omega) (by omega)
  have first : m'.read16 a = m.read16 a := half 0 (by omega)
  simp only [IdtEntry.load, first, half 2 (by omega), half 6 (by omega),
    h (a + 4) (by omega) (by omega), h (a + 5) (by omega) (by omega)]

/-- The array `idt`. -/
def idtTable (idt : Nat) : Table ByteMem U8 IdtEntry where
  get vector m := .load m (idtAddr idt vector)
  set vector e m := e.store m (idtAddr idt vector)
  get_set _ _ _ := load_store
  get_set_of_ne := by
    intro i j e m hne
    have hidx : i.toNat ≠ j.toNat := fun h => hne (BitVec.eq_of_toNat_eq h)
    exact load_congr fun x hlo hhi => store_other (by unfold idtAddr at *; omega)

end Gates

/-! ### What the processor reads -/

/-- A gate: where it leads, and whether interrupts stay on there. -/
structure Gate where
  selector : U16
  offset : U32
  type : GateType
  deriving DecidableEq

/-- What the processor makes of an entry: present, of privilege 0, and of one of the two
types for 32-bit code. -/
def IdtEntry.gate (e : IdtEntry) : Option Gate :=
  if e.typeAttr = 0x8E then some ⟨e.selector, e.offsetHigh ++ e.offsetLow, .interrupt⟩
  else if e.typeAttr = 0x8F then some ⟨e.selector, e.offsetHigh ++ e.offsetLow, .trap⟩
  else none

theorem gate_baseEntry {handler : U32} {type : GateType} :
    (baseEntry handler type).gate = some ⟨0x08, handler, type⟩ := by
  have hlow : (handler &&& 0xFFFF).setWidth 16 = lo16 handler := by
    apply BitVec.eq_of_toNat_eq
    have hmask : (0xFFFF : U32).toNat = 2 ^ 16 - 1 := rfl
    rw [BitVec.toNat_setWidth, BitVec.toNat_and, hmask, Nat.and_two_pow_sub_one_eq_mod, lo16,
      BitVec.extractLsb'_toNat, Nat.shiftRight_zero, Nat.mod_mod]
  have hhigh : ((handler >>> 16) &&& 0xFFFF).setWidth 16 = hi16 handler := by
    apply BitVec.eq_of_toNat_eq
    have hmask : (0xFFFF : U32).toNat = 2 ^ 16 - 1 := rfl
    rw [BitVec.toNat_setWidth, BitVec.toNat_and, hmask, Nat.and_two_pow_sub_one_eq_mod, hi16,
      BitVec.extractLsb'_toNat, BitVec.toNat_ushiftRight, Nat.mod_mod]
  cases type with
  | interrupt =>
      rw [IdtEntry.gate, if_pos (by rfl), baseEntry]
      simp only [hlow, hhigh, hi16_append_lo16]
  | trap =>
      have htype : (baseEntry handler .trap).typeAttr = 0x8F := rfl
      rw [IdtEntry.gate, htype, if_neg (by decide), if_pos rfl, baseEntry]
      simp only [hlow, hhigh, hi16_append_lo16]

/-- The gate of a vector in the table at `base`, if the limit has its 8 bytes. -/
def fetchGate (limit : U16) (base : U32) (vector : U8) (m : ByteMem) : Option Gate :=
  if 8 * vector.toNat + 7 ≤ limit.toNat then
    (IdtEntry.load m (idtAddr base.toNat vector)).gate
  else none

theorem fetchGate_full {base : U32} {vector : U8} {m : ByteMem} :
    fetchGate (8 * 256 - 1) base vector m = ((idtTable base.toNat).get vector m).gate := by
  have hv := vector.isLt
  have hlimit : (8 * 256 - 1 : U16).toNat = 2047 := rfl
  rw [fetchGate, if_pos (by omega)]
  rfl

/-! ### `itr_init` -/

/-- Memory, the ports and what `lidt` and `cli` set. -/
structure Processor (δ : Type) where
  machine : Machine δ
  interruptFlag : Bool
  idtLimit : U16
  idtBase : U32

/-- The values of the counter `i`. -/
def vectors : List U8 := (List.range 256).map fun i => BitVec.ofNat 8 i

/-- `set_base_interrupt_handler(i, default_itr_handlers[i])` for all 256 vectors. -/
def defaultHandlers : List (U8 × BaseHandler × GateType) :=
  vectors.map fun i => (i, .itr i, .interrupt)

/-- The calls that follow, in their order. -/
def exceptionHandlers : List (U8 × BaseHandler × GateType) :=
  [(0, .divideByZero, .trap), (1, .debug, .trap), (2, .nmi, .interrupt),
    (3, .breakpoint, .trap), (4, .overflow, .trap), (5, .boundRangeExceeded, .trap),
    (6, .invalidOpcode, .trap), (7, .deviceNotAvailable, .trap), (8, .doubleFault, .interrupt),
    (9, .coprocessorSegmentOverrun, .trap), (10, .invalidTss, .trap),
    (11, .segmentNotPresent, .trap), (12, .stackSegmentFault, .trap),
    (13, .generalProtectionFault, .trap), (14, .pageFault, .trap),
    (16, .x87FloatingPointException, .trap), (17, .alignmentCheck, .trap),
    (18, .machineCheck, .interrupt), (19, .simdFloatingPointException, .trap),
    (20, .virtualizationException, .trap), (30, .securityException, .trap)]

/-- The calls of `set_base_handler` in a list, in order. -/
def setBaseHandlers (idt : Nat) (address : BaseHandler → U32)
    (calls : List (U8 × BaseHandler × GateType)) (m : ByteMem) : ByteMem :=
  calls.foldl (fun m c => setBaseHandler idt c.1 (address c.2.1) c.2.2 m) m

section Program

variable {δ : Type} [Bus δ]

def onProcessorPorts (p : Io δ Unit) : Prog (Processor δ) Unit :=
  zoom
    { get s := s.machine.io
      set io s := { s with machine := { s.machine with io := io } }
      get_set _ _ := rfl
      set_get _ := rfl }
    p

/-- `itr_reload_idt`. -/
def itrReloadIdt (idt : U32) : Prog (Processor δ) Unit :=
  modify fun s => { s with idtLimit := 8 * 256 - 1, idtBase := idt }

/-- `itr_init`. -/
def itrInit (idt : U32) (address : BaseHandler → U32) : Prog (Processor δ) Unit := do
  modify fun s => { s with interruptFlag := false }
  modify fun s =>
    { s with machine :=
      { s.machine with
        mem := setBaseHandlers idt.toNat address (defaultHandlers ++ exceptionHandlers)
          s.machine.mem } }
  onProcessorPorts (initializePicProtectedMode 0xFF 0xFF)
  itrReloadIdt idt

end Program

/-- The handler of a vector, and its type: the exceptions that the processor defines have
their own, all other vectors `handle_itr_N`. Only the faults that may come at any time
turn interrupts off. -/
def handlerOf (vector : U8) : BaseHandler × GateType :=
  match vector.toNat with
  | 0 => (.divideByZero, .trap)
  | 1 => (.debug, .trap)
  | 2 => (.nmi, .interrupt)
  | 3 => (.breakpoint, .trap)
  | 4 => (.overflow, .trap)
  | 5 => (.boundRangeExceeded, .trap)
  | 6 => (.invalidOpcode, .trap)
  | 7 => (.deviceNotAvailable, .trap)
  | 8 => (.doubleFault, .interrupt)
  | 9 => (.coprocessorSegmentOverrun, .trap)
  | 10 => (.invalidTss, .trap)
  | 11 => (.segmentNotPresent, .trap)
  | 12 => (.stackSegmentFault, .trap)
  | 13 => (.generalProtectionFault, .trap)
  | 14 => (.pageFault, .trap)
  | 16 => (.x87FloatingPointException, .trap)
  | 17 => (.alignmentCheck, .trap)
  | 18 => (.machineCheck, .interrupt)
  | 19 => (.simdFloatingPointException, .trap)
  | 20 => (.virtualizationException, .trap)
  | 30 => (.securityException, .trap)
  | _ => (.itr vector, .interrupt)

section Result

variable {idt : U32} {address : BaseHandler → U32} {m : ByteMem}
  {calls : List (U8 × BaseHandler × GateType)}

theorem setBaseHandlers_eq :
    setBaseHandlers idt.toNat address calls m =
      (idtTable idt.toNat).fill (calls.map fun c => (c.1, baseEntry (address c.2.1) c.2.2)) m := by
  rw [Table.fill, List.foldl_map]
  rfl

theorem mem_vectors (v : U8) : v ∈ vectors :=
  List.mem_map.mpr ⟨v.toNat, List.mem_range.mpr v.isLt, by simp⟩

/-- The exceptions' calls come after the others. -/
theorem last_handlers (v : U8) (old : BaseHandler × GateType) :
    Table.last (defaultHandlers ++ exceptionHandlers) v old = handlerOf v := by
  have hdefault : Table.last defaultHandlers v old = (.itr v, .interrupt) :=
    Table.last_map (f := fun i => (BaseHandler.itr i, GateType.interrupt)) (mem_vectors v)
  rw [Table.last_append, hdefault]
  clear hdefault
  revert v
  decide +kernel

/-- The entry of a vector after all the calls, for any memory before. -/
theorem get_handlers (v : U8) :
    (idtTable idt.toNat).get v
        (setBaseHandlers idt.toNat address (defaultHandlers ++ exceptionHandlers) m) =
      baseEntry (address (handlerOf v).1) (handlerOf v).2 := by
  have hall : ∃ w ∈ (defaultHandlers ++ exceptionHandlers).map fun c =>
      (c.1, baseEntry (address c.2.1) c.2.2), w.1 = v := by
    refine ⟨_, List.mem_map.mpr ⟨(v, .itr v, .interrupt), ?_, rfl⟩, rfl⟩
    exact List.mem_append_left _ (List.mem_map.mpr ⟨v, mem_vectors v, rfl⟩)
  rw [setBaseHandlers_eq, Table.get_fill, Table.last_old hall,
    Table.last_map_value (fun c => baseEntry (address c.1) c.2) (.itr v, .interrupt),
    last_handlers]

theorem setBaseHandlers_other {x : Nat} (h : x < idt.toNat ∨ idt.toNat + 2048 ≤ x) :
    setBaseHandlers idt.toNat address calls m x = m x := by
  rw [setBaseHandlers_eq]
  refine Table.fill_invariant (idtTable idt.toNat) (P := fun m' => m' x = m x) ?_ rfl
  rintro ⟨v, e⟩ - m' hm'
  rw [← hm']
  have hv := v.isLt
  exact store_other (by unfold idtAddr; omega)

/-- No IRQ comes with the vector of an exception. -/
theorem handlerOf_irq : ∀ irq : Fin 16,
    handlerOf (vectorOf (masterOffset .protectedMode) (slaveOffset .protectedMode) irq) =
      (.itr (vectorOf 0x20 0x28 irq), .interrupt) := by
  decide

theorem passes_masked : ∀ irq : Fin 16,
    (if irq.val < 8 then !(0xFF : U8).getLsbD irq.val
      else !(0xFF : U8).getLsbD 2 && !(0xFF : U8).getLsbD (irq.val - 8)) = false := by
  decide

variable {δ : Type} [Bus δ]

/-- What `itr_init` leaves, if its writes to the PICs return. -/
theorem returns_itrInit {s : Processor δ} {io : Ports δ}
    (h : (initializePicProtectedMode 0xFF 0xFF).Returns s.machine.io () io) :
    (itrInit idt address).Returns s ()
      ⟨⟨io, setBaseHandlers idt.toNat address (defaultHandlers ++ exceptionHandlers)
        s.machine.mem⟩, false, 8 * 256 - 1, idt⟩ := by
  simp only [itrInit, itrReloadIdt, onProcessorPorts, returns_bind, returns_modify,
    returns_zoom]
  refine ⟨(), _, rfl, (), _, rfl, (), _, ⟨io, h, rfl⟩, ?_⟩
  simp only

/-- What the processor finds after `itr_init`, whatever was in memory and in the PICs. -/
theorem itr_init_spec (s : Processor δ) (pics : PicPair) :
    (itrInit idt address).Total s fun _ t =>
      (∀ v, fetchGate t.idtLimit t.idtBase v t.machine.mem =
        some ⟨0x08, address (handlerOf v).1, (handlerOf v).2⟩) ∧
      (∀ x, x < idt.toNat ∨ idt.toNat + 2048 ≤ x → t.machine.mem x = s.machine.mem x) ∧
      t.interruptFlag = false ∧
      ∀ irq, (pics.after t.machine.io.log).passes irq = false ∧
        fetchGate t.idtLimit t.idtBase ((pics.after t.machine.io.log).vector irq)
          t.machine.mem = some ⟨0x08, address (.itr (vectorOf 0x20 0x28 irq)), .interrupt⟩ := by
  obtain ⟨io, hio⟩ : ∃ io, (initializePicProtectedMode 0xFF 0xFF).Returns s.machine.io () io := by
    simp [initializePicProtectedMode, initializePic]
  refine ⟨(), _, returns_itrInit hio, ?_⟩
  have gates : ∀ v, fetchGate (8 * 256 - 1) idt v
      (setBaseHandlers idt.toNat address (defaultHandlers ++ exceptionHandlers) s.machine.mem) =
        some ⟨0x08, address (handlerOf v).1, (handlerOf v).2⟩ := by
    intro v
    rw [fetchGate_full, get_handlers, gate_baseEntry]
  simp only
  refine ⟨gates, fun x hx => setBaseHandlers_other hx, trivial, fun irq => ?_⟩
  have ready : (pics.after io.log).Ready .protectedMode 0xFF 0xFF := by
    rw [log_initializePic hio, PicPair.after_append]
    exact setup_ready _ .protectedMode _ _
  constructor
  · show (pics.after io.log).passes irq = false
    rw [ready.passes, passes_masked]
  · have gate := gates ((pics.after io.log).vector irq)
    rw [ready.vector irq] at gate ⊢
    rwa [handlerOf_irq] at gate

end Result

end MyBios.Irq
