import Mathlib.Algebra.Ring.Nat
import MyBios.Lib.Prog
import MyBios.Lib.ByteMem

/-!
The machine the BIOS runs on: ports, the tick counter and memory.

`io.h` reaches devices through `inb`, `inw`, `outb` and `outw`. What a device
answers is outside the source, so it is a parameter: `Bus δ` gives the answers
of some device state `δ`, and every function below is written for an arbitrary
one. `Ports δ` adds the log of all port accesses, oldest first, which is what
statements about "the bytes written to a port" are about.

`Io δ` programs reach ports only. Programs over `Machine δ` also reach memory;
`onPorts` runs the former inside the latter, so a function of type `Io δ α`
visibly leaves memory alone. `printf` writes to the screen and the serial line
only, neither of which any function here reads back, so its calls are left out.
-/

namespace MyBios

abbrev U8 := BitVec 8
abbrev U16 := BitVec 16
abbrev U32 := BitVec 32
abbrev U64 := BitVec 64

/-- What the devices behind the ports answer, and how each access changes them.
`ticks` reads `timer_ticks`, which the timer interrupt advances behind the back
of the code that polls it. -/
class Bus (δ : Type) where
  inb : U16 → δ → U8 × δ
  inw : U16 → δ → U16 × δ
  outb : U16 → U8 → δ → δ
  outw : U16 → U16 → δ → δ
  ticks : δ → U32 × δ

/-- One port access with the value that crossed the bus. -/
inductive PortEvent where
  | inb (port : U16) (value : U8)
  | inw (port : U16) (value : U16)
  | outb (port : U16) (value : U8)
  | outw (port : U16) (value : U16)
  deriving DecidableEq, Repr

/-- The devices and the log of the accesses so far, oldest first. -/
structure Ports (δ : Type) where
  dev : δ
  log : List PortEvent

/-- The byte that an access stored in `port`. -/
def PortEvent.writtenTo (port : U16) : PortEvent → Option U8
  | .outb p v => if p = port then some v else none
  | _ => none

/-- The bytes written to `port`, oldest first. -/
def writesTo (port : U16) (log : List PortEvent) : List U8 := log.filterMap (·.writtenTo port)

/-- The byte that a write-only register at `port` holds. -/
def lastWrite (port : U16) (log : List PortEvent) : Option U8 := (writesTo port log).getLast?

@[simp] theorem writesTo_append {port : U16} {log log' : List PortEvent} :
    writesTo port (log ++ log') = writesTo port log ++ writesTo port log' :=
  List.filterMap_append

/-- Programs that reach ports and the tick counter only. -/
abbrev Io (δ α : Type) := Prog (Ports δ) α

section Access

variable {δ : Type} [Bus δ]

def inb (port : U16) : Io δ U8 :=
  Prog.prim fun p =>
    ((Bus.inb port p.dev).1, ⟨(Bus.inb port p.dev).2, p.log ++ [.inb port (Bus.inb port p.dev).1]⟩)

def inw (port : U16) : Io δ U16 :=
  Prog.prim fun p =>
    ((Bus.inw port p.dev).1, ⟨(Bus.inw port p.dev).2, p.log ++ [.inw port (Bus.inw port p.dev).1]⟩)

def outb (port : U16) (value : U8) : Io δ Unit :=
  Prog.modify fun p => ⟨Bus.outb port value p.dev, p.log ++ [.outb port value]⟩

def outw (port : U16) (value : U16) : Io δ Unit :=
  Prog.modify fun p => ⟨Bus.outw port value p.dev, p.log ++ [.outw port value]⟩

/-- `timer_get_ticks(dev_timer_primary)`. -/
def timerGetTicks : Io δ U32 :=
  Prog.prim fun p => ((Bus.ticks p.dev).1, ⟨(Bus.ticks p.dev).2, p.log⟩)

variable {p q : Ports δ} {port : U16}

@[simp] theorem returns_inb {v : U8} :
    (inb port).Returns p v q ↔
      (Bus.inb port p.dev).1 = v ∧
        q = ⟨(Bus.inb port p.dev).2, p.log ++ [.inb port v]⟩ := by
  simp only [inb, Prog.returns_prim, Prod.mk.injEq]
  constructor
  · rintro ⟨rfl, rfl⟩; exact ⟨rfl, rfl⟩
  · rintro ⟨rfl, rfl⟩; exact ⟨rfl, rfl⟩

@[simp] theorem returns_inw {v : U16} :
    (inw port).Returns p v q ↔
      (Bus.inw port p.dev).1 = v ∧
        q = ⟨(Bus.inw port p.dev).2, p.log ++ [.inw port v]⟩ := by
  simp only [inw, Prog.returns_prim, Prod.mk.injEq]
  constructor
  · rintro ⟨rfl, rfl⟩; exact ⟨rfl, rfl⟩
  · rintro ⟨rfl, rfl⟩; exact ⟨rfl, rfl⟩

@[simp] theorem returns_outb {v : U8} {u : Unit} :
    (outb port v).Returns p u q ↔ q = ⟨Bus.outb port v p.dev, p.log ++ [.outb port v]⟩ := by
  simp [outb]

@[simp] theorem returns_outw {v : U16} {u : Unit} :
    (outw port v).Returns p u q ↔ q = ⟨Bus.outw port v p.dev, p.log ++ [.outw port v]⟩ := by
  simp [outw]

@[simp] theorem returns_timerGetTicks {t : U32} :
    timerGetTicks.Returns p t q ↔
      (Bus.ticks p.dev).1 = t ∧ q = ⟨(Bus.ticks p.dev).2, p.log⟩ := by
  simp only [timerGetTicks, Prog.returns_prim, Prod.mk.injEq, eq_comm (b := q)]

end Access

/-! ### Memory -/

/-- Ports and memory. -/
structure Machine (δ : Type) where
  io : Ports δ
  mem : ByteMem

def Machine.ioLens (δ : Type) : Prog.Lens (Machine δ) (Ports δ) where
  get := Machine.io
  set io m := { m with io := io }
  get_set _ _ := rfl
  set_get _ := rfl

section Machine

variable {δ α : Type} {m m' : Machine δ}

/-- A ports-only program as a program of the machine. -/
def onPorts (p : Io δ α) : Prog (Machine δ) α := Prog.zoom (Machine.ioLens δ) p

@[simp] theorem returns_onPorts {p : Io δ α} {a : α} :
    (onPorts p).Returns m a m' ↔ ∃ io, p.Returns m.io a io ∧ m' = { m with io := io } :=
  Prog.returns_zoom

/-- Store through a pointer. -/
def storeByte (addr : Nat) (v : U8) : Prog (Machine δ) Unit :=
  Prog.modify fun m => { m with mem := m.mem.write8 addr v }

@[simp] theorem returns_storeByte {addr : Nat} {v : U8} {u : Unit} :
    (storeByte addr v).Returns m u m' ↔ m' = { m with mem := m.mem.write8 addr v } := by
  simp [storeByte]

end Machine

/-- `hlt` with interrupts off: nothing comes after it. -/
def hlt {σ α : Type} : Prog σ α := Prog.loop (fun _ : Unit => pure (.again ())) ()

theorem not_returns_hlt {σ α : Type} {s t : σ} {a : α} : ¬ (hlt : Prog σ α).Returns s a t :=
  Prog.not_returns_loop (I := fun _ _ => True)
    (fun _ s _ => ⟨(), s, Prog.returns_pure.mpr ⟨rfl, rfl⟩, trivial⟩) trivial

end MyBios
