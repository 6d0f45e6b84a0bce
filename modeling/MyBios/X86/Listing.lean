import Mathlib.Logic.Relation
import MyBios.X86.Cpu

/-!
Assembly with jumps, calls and port accesses.

A listing is a list of instructions whose targets are lines of the listing, and
`place` says where each line has been assembled in the code segment. Control flow
is explicit: `ip` selects the line, `call` leaves the place of the next line on the
stack and `ret` takes it from there, so that a routine returns to its caller only
if it has kept the stack in order.

* `steps_functional`: two runs that both end outside the listing end alike.
* `Returned`: what a routine owes its caller.
* `Inside`: where a routine stands and what it has on the stack, with one rule for each
  instruction. `Inside.call` uses the callee's `Returned`, `Inside.ret` ends in one.
-/

namespace MyBios.Asm

open Slots

/-- The processor, the flags ZF and SF ≠ OF as the last comparison left them, and the
ports. Other instructions set flags that nothing looks at. -/
structure Board (δ : Type) where
  cpu : Cpu
  zero : Bool
  less : Bool
  io : Ports δ

/-- An instruction. `op` covers those that change registers and memory only. -/
inductive Instr where
  | op (f : Cpu → Cpu)
  | cmp32 (r : Cpu → U32) (v : U32)
  | cmp8 (r : Cpu → U8) (v : U8)
  | jl (line : Nat)
  | jle (line : Nat)
  | jz (line : Nat)
  | jmp (line : Nat)
  | call (line : Nat)
  | ret
  | inAlDx
  | outDxAl

namespace Instr

def onEax (f : U32 → U32) : Instr := op fun c => { c with eax := f c.eax }

def onEdx (f : U32 → U32) : Instr := op fun c => { c with edx := f c.edx }

def push (f : Cpu → Slot) : Instr := op fun c => c.push (f c)

def popEax : Instr := op (Cpu.pop32 fun c v => { c with eax := v })

def popAx : Instr := op (Cpu.pop16 fun c v => { c with eax := setLo16 c.eax v })

def popDx : Instr := op (Cpu.pop16 fun c v => { c with edx := setLo16 c.edx v })

end Instr

namespace Board

variable {δ : Type}

def setIp (ip : U16) (s : Board δ) : Board δ := { s with cpu := { s.cpu with ip := ip } }

/-- Where the stack is. -/
def top (s : Board δ) : Nat := s.cpu.stackTop

/-- What is on top of it: the address that `ret` goes to. -/
def returnAddress (s : Board δ) : U16 := s.cpu.mem.read16 s.top

end Board

section Semantics

variable {δ : Type} [Bus δ]

/-- The instruction of line `i`. -/
def Instr.exec (place : Nat → U16) (i : Nat) (s : Board δ) : Instr → Board δ
  | op f => { s with cpu := { f s.cpu with ip := place (i + 1) } }
  | cmp32 r v =>
    { s.setIp (place (i + 1)) with zero := r s.cpu = v, less := (r s.cpu).toInt < v.toInt }
  | cmp8 r v =>
    { s.setIp (place (i + 1)) with zero := r s.cpu = v, less := (r s.cpu).toInt < v.toInt }
  | jl line => s.setIp (place (if s.less then line else i + 1))
  | jle line => s.setIp (place (if s.less || s.zero then line else i + 1))
  | jz line => s.setIp (place (if s.zero then line else i + 1))
  | jmp line => s.setIp (place line)
  | call line =>
    { s with cpu := { s.cpu.push (.half (place (i + 1))) with ip := place line } }
  | ret => { s with cpu := s.cpu.pop16 fun c v => { c with ip := v } }
  | inAlDx =>
    let answer := Bus.inb (lo16 s.cpu.edx) s.io.dev
    { s with
      cpu := { s.cpu with eax := setLo8 s.cpu.eax answer.1, ip := place (i + 1) }
      io := ⟨answer.2, s.io.log ++ [.inb (lo16 s.cpu.edx) answer.1]⟩ }
  | outDxAl =>
    { s.setIp (place (i + 1)) with
      io := ⟨Bus.outb (lo16 s.cpu.edx) (lo8 s.cpu.eax) s.io.dev,
        s.io.log ++ [.outb (lo16 s.cpu.edx) (lo8 s.cpu.eax)]⟩ }

/-- One instruction of the listing. -/
def Step (listing : List Instr) (place : Nat → U16) (s t : Board δ) : Prop :=
  ∃ i instr, listing[i]? = some instr ∧ s.cpu.ip = place i ∧ t = instr.exec place i s

abbrev Steps (listing : List Instr) (place : Nat → U16) : Board δ → Board δ → Prop :=
  Relation.ReflTransGen (Step listing place)

/-- Every line of the listing has a place of its own. -/
def Placed (listing : List Instr) (place : Nat → U16) : Prop :=
  ∀ i j, i < listing.length → j < listing.length → place i = place j → i = j

/-- An address outside the listing. -/
def Outside (listing : List Instr) (place : Nat → U16) (a : U16) : Prop :=
  ∀ i < listing.length, a ≠ place i

variable {listing : List Instr} {place : Nat → U16} {s t u : Board δ} {i : Nat} {instr : Instr}

theorem Steps.step (hip : s.cpu.ip = place i) (h : listing[i]? = some instr)
    (rest : Steps listing place (instr.exec place i s) t) : Steps listing place s t :=
  .head ⟨i, instr, h, hip, rfl⟩ rest

theorem step_functional (hplace : Placed listing place) (h : Step listing place s t)
    (h' : Step listing place s u) : t = u := by
  obtain ⟨i, instr, hi, hip, rfl⟩ := h
  obtain ⟨j, instr', hj, hip', rfl⟩ := h'
  obtain ⟨hlt, -⟩ := List.getElem?_eq_some_iff.mp hi
  obtain ⟨hlt', -⟩ := List.getElem?_eq_some_iff.mp hj
  obtain rfl := hplace i j hlt hlt' (hip.symm.trans hip')
  rw [hi] at hj
  cases hj
  rfl

/-- No step leads on from outside the listing. -/
theorem Outside.eq_of_steps (hout : Outside listing place s.cpu.ip)
    (h : Steps listing place s t) : t = s := by
  rcases h.cases_head with rfl | ⟨u, ⟨i, instr, hi, hip, -⟩, -⟩
  · rfl
  · obtain ⟨hlt, -⟩ := List.getElem?_eq_some_iff.mp hi
    exact absurd hip (hout i hlt)

/-- Two runs that both end outside the listing end alike. -/
theorem steps_functional (hplace : Placed listing place) (h : Steps listing place s t)
    (h' : Steps listing place s u) (ht : Outside listing place t.cpu.ip)
    (hu : Outside listing place u.cpu.ip) : t = u := by
  have hunique : Relator.RightUnique (Step (δ := δ) listing place) := fun _ _ _ h₁ h₂ =>
    step_functional hplace h₁ h₂
  rcases h.total_of_right_unique hunique h' with hrest | hrest
  · exact (ht.eq_of_steps hrest).symm
  · exact hu.eq_of_steps hrest

end Semantics

/-! ### Routines -/

/-- The registers that no routine here uses: all but `eax`, `edx`, `esp` and `ip`. -/
def unused (c : Cpu) : Cpu := { c with eax := 0, edx := 0, esp := 0, ip := 0, mem := ByteMem.zeros }

section Routines

variable {δ : Type}

/-- Memory has not changed outside the `depth` bytes below the stack of `s`. -/
def KeepsAbove (depth : Nat) (s t : Board δ) : Prop :=
  ∀ x, x < s.top - depth ∨ s.top ≤ x → t.cpu.mem x = s.cpu.mem x

/-- A routine entered in `s` has returned in `t`, to the address on top of the stack, which
it has taken off. It may change `eax`. -/
structure Returned (depth : Nat) (s t : Board δ) : Prop where
  unused : unused t.cpu = unused s.cpu
  edx : t.cpu.edx = s.cpu.edx
  esp : t.cpu.esp = setLo16 s.cpu.esp (s.cpu.sp + 2)
  ip : t.cpu.ip = s.returnAddress
  mem : KeepsAbove depth s t

/-- Inside a routine that was entered in `s`: where it stands, its registers, what it has
pushed and not yet taken back, and the ports. -/
structure Inside (depth : Nat) (s : Board δ) (ip : U16) (eax edx : U32) (slots : List Slot)
    (io : Ports δ) (t : Board δ) : Prop where
  unused : unused t.cpu = unused s.cpu
  ip : t.cpu.ip = ip
  eax : t.cpu.eax = eax
  edx : t.cpu.edx = edx
  esp : t.cpu.esp = setLo16 s.cpu.esp (s.cpu.sp - BitVec.ofNat 16 (size slots))
  holds : Holds t.cpu.mem (s.top - size slots) slots
  mem : KeepsAbove depth s t
  io : t.io = io

variable {depth n : Nat} {s t : Board δ} {a : U16} {eax edx : U32} {slots : List Slot}
  {slot : Slot} {io : Ports δ}

theorem sp_le_top (s : Board δ) : s.cpu.sp.toNat ≤ s.top := Nat.le_add_left _ _

theorem KeepsAbove.mono (h : KeepsAbove depth s t) (hle : depth ≤ n) : KeepsAbove n s t :=
  fun x hx => h x (by omega)

theorem Returned.mono (h : Returned depth s t) (hle : depth ≤ n) : Returned n s t :=
  ⟨h.unused, h.edx, h.esp, h.ip, h.mem.mono hle⟩

/-- On entry nothing is pushed. -/
theorem inside_entry (hip : s.cpu.ip = a) : Inside depth s a s.cpu.eax s.cpu.edx [] s.io s where
  unused := rfl
  ip := hip
  eax := rfl
  edx := rfl
  esp := by
    rw [size, BitVec.sub_zero]
    exact (hi16_append_lo16 s.cpu.esp).symm
  holds := trivial
  mem _ _ := rfl
  io := rfl

namespace Inside

theorem sp_eq (h : Inside depth s a eax edx slots io t) :
    t.cpu.sp = s.cpu.sp - BitVec.ofNat 16 (size slots) := by
  rw [Cpu.sp, h.esp, lo16_setLo16]

/-- The stack is below what has been pushed. -/
theorem top_eq (h : Inside depth s a eax edx slots io t) (hsize : size slots ≤ s.cpu.sp.toNat) :
    t.top = s.top - size slots ∧ t.cpu.sp.toNat = s.cpu.sp.toNat - size slots := by
  have hss : (Asm.unused t.cpu).ss = (Asm.unused s.cpu).ss := congrArg Cpu.ss h.unused
  change t.cpu.ss = s.cpu.ss at hss
  rw [Board.top, Cpu.stackTop, hss, h.sp_eq]
  exact linear_sub s.cpu.ss hsize

/-- The slot on top of the stack, and the stack without it. -/
theorem top_slot {slot : Slot} (h : Inside depth s a eax edx (slot :: slots) io t)
    (hroom : size (slot :: slots) ≤ s.cpu.sp.toNat) :
    slot.At t.cpu.mem t.top ∧ Holds t.cpu.mem (s.top - size slots) slots ∧
      setLo16 t.cpu.esp (t.cpu.sp + BitVec.ofNat 16 slot.size) =
        setLo16 s.cpu.esp (s.cpu.sp - BitVec.ofNat 16 (size slots)) := by
  have hle := sp_le_top s
  have hsize : size (slot :: slots) = slot.size + size slots := rfl
  have hbelow : s.top - size (slot :: slots) + slot.size = s.top - size slots := by omega
  obtain ⟨hat, hrest⟩ := h.holds
  rw [hbelow] at hrest
  refine ⟨by rwa [(h.top_eq hroom).1], hrest, ?_⟩
  rw [h.esp, setLo16_setLo16, h.sp_eq, hsize, Nat.add_comm, BitVec.ofNat_add, ← BitVec.sub_sub,
    BitVec.sub_add_cancel]

end Inside

end Routines

/-! ### Rules for the instructions -/

section Rules

variable {δ : Type} [Bus δ] (listing : List Instr) {place : Nat → U16} {depth i line : Nat}
  {s t : Board δ} {a : U16} {eax edx : U32} {slots : List Slot} {io : Ports δ}

namespace Inside

/-- An instruction that computes in `eax`. -/
theorem onEax {f : U32 → U32} (h : Inside depth s (place i) eax edx slots io t)
    (hi : listing[i]? = some (.onEax f)) :
    ∃ u, Steps listing place t u ∧ Inside depth s (place (i + 1)) (f eax) edx slots io u :=
  ⟨_, .step h.ip hi .refl, h.unused, rfl, congrArg f h.eax, h.edx, h.esp, h.holds, h.mem, h.io⟩

/-- An instruction that computes in `edx`. -/
theorem onEdx {f : U32 → U32} (h : Inside depth s (place i) eax edx slots io t)
    (hi : listing[i]? = some (.onEdx f)) :
    ∃ u, Steps listing place t u ∧ Inside depth s (place (i + 1)) eax (f edx) slots io u :=
  ⟨_, .step h.ip hi .refl, h.unused, rfl, h.eax, congrArg f h.edx, h.esp, h.holds, h.mem, h.io⟩

theorem jmp (h : Inside depth s (place i) eax edx slots io t)
    (hi : listing[i]? = some (.jmp line)) :
    ∃ u, Steps listing place t u ∧ Inside depth s (place line) eax edx slots io u :=
  ⟨_, .step h.ip hi .refl, h.unused, rfl, h.eax, h.edx, h.esp, h.holds, h.mem, h.io⟩

/-- A comparison and a jump if less, in the sense of signed numbers. -/
theorem cmp_jl {v : U32} (h : Inside depth s (place i) eax edx slots io t)
    (hi : listing[i]? = some (.cmp32 Cpu.eax v)) (hi' : listing[i + 1]? = some (.jl line)) :
    ∃ u, Steps listing place t u ∧
      Inside depth s (place (if eax.toInt < v.toInt then line else i + 2)) eax edx slots io u := by
  refine ⟨_, .step h.ip hi <| .step rfl hi' .refl, h.unused, ?_, h.eax, h.edx, h.esp, h.holds,
    h.mem, h.io⟩
  simp only [Instr.exec, Board.setIp, h.eax, decide_eq_true_eq]

/-- A comparison and a jump if less or equal. -/
theorem cmp_jle {v : U32} (h : Inside depth s (place i) eax edx slots io t)
    (hi : listing[i]? = some (.cmp32 Cpu.eax v)) (hi' : listing[i + 1]? = some (.jle line)) :
    ∃ u, Steps listing place t u ∧
      Inside depth s (place (if eax.toInt ≤ v.toInt then line else i + 2)) eax edx slots io u := by
  refine ⟨_, .step h.ip hi <| .step rfl hi' .refl, h.unused, ?_, h.eax, h.edx, h.esp, h.holds,
    h.mem, h.io⟩
  simp only [Instr.exec, Board.setIp, h.eax, Bool.or_eq_true, decide_eq_true_eq,
    ← BitVec.toInt_inj, ← Int.le_iff_lt_or_eq]

/-- A comparison of `al` and a jump if equal. -/
theorem cmp_jz {v : U8} (h : Inside depth s (place i) eax edx slots io t)
    (hi : listing[i]? = some (.cmp8 (fun c => lo8 c.eax) v))
    (hi' : listing[i + 1]? = some (.jz line)) :
    ∃ u, Steps listing place t u ∧
      Inside depth s (place (if lo8 eax = v then line else i + 2)) eax edx slots io u := by
  refine ⟨_, .step h.ip hi <| .step rfl hi' .refl, h.unused, ?_, h.eax, h.edx, h.esp, h.holds,
    h.mem, h.io⟩
  simp only [Instr.exec, Board.setIp, h.eax, decide_eq_true_eq]

theorem inAlDx (h : Inside depth s (place i) eax edx slots io t)
    (hi : listing[i]? = some .inAlDx) :
    ∃ u, Steps listing place t u ∧
      Inside depth s (place (i + 1)) (setLo8 eax (Bus.inb (lo16 edx) io.dev).1) edx slots
        ⟨(Bus.inb (lo16 edx) io.dev).2,
          io.log ++ [.inb (lo16 edx) (Bus.inb (lo16 edx) io.dev).1]⟩ u := by
  refine ⟨_, .step h.ip hi .refl, h.unused, rfl, ?_, h.edx, h.esp, h.holds, h.mem, ?_⟩
  · simp only [Instr.exec, h.eax, h.edx, h.io]
  · simp only [Instr.exec, h.edx, h.io]

theorem outDxAl (h : Inside depth s (place i) eax edx slots io t)
    (hi : listing[i]? = some .outDxAl) :
    ∃ u, Steps listing place t u ∧
      Inside depth s (place (i + 1)) eax edx slots
        ⟨Bus.outb (lo16 edx) (lo8 eax) io.dev, io.log ++ [.outb (lo16 edx) (lo8 eax)]⟩ u := by
  refine ⟨_, .step h.ip hi .refl, h.unused, rfl, h.eax, h.edx, h.esp, h.holds, h.mem, ?_⟩
  simp only [Instr.exec, h.eax, h.edx, h.io]

/-- A push. -/
theorem push {f : Cpu → Slot} {slot : Slot} (h : Inside depth s (place i) eax edx slots io t)
    (hi : listing[i]? = some (.push f)) (hslot : f t.cpu = slot)
    (hdepth : slot.size + size slots ≤ depth) (hroom : depth ≤ s.cpu.sp.toNat) :
    ∃ u, Steps listing place t u ∧
      Inside depth s (place (i + 1)) eax edx (slot :: slots) io u := by
  obtain ⟨htop, hsp⟩ := h.top_eq (by omega)
  have hle := sp_le_top s
  have hsize : size (slot :: slots) = slot.size + size slots := rfl
  have hpush : (t.cpu.push slot).esp = setLo16 t.cpu.esp (t.cpu.sp - BitVec.ofNat 16 slot.size) ∧
      (t.cpu.push slot).mem = slot.write t.cpu.mem (s.top - size (slot :: slots)) := by
    rw [Cpu.push_spec (c := t.cpu) (s := slot) (by omega), hsize, Nat.add_comm, ← Nat.sub_sub,
      ← htop]
    exact ⟨rfl, rfl⟩
  subst hslot
  refine ⟨_, .step h.ip hi .refl, h.unused, rfl, h.eax, h.edx, ?_, ?_, fun x hx => ?_, h.io⟩
  · show (t.cpu.push _).esp = _
    rw [hpush.1, h.esp, setLo16_setLo16, h.sp_eq, BitVec.sub_sub, ← BitVec.ofNat_add, hsize,
      Nat.add_comm]
  · show Holds (t.cpu.push _).mem _ _
    rw [hpush.2]
    have hbelow : s.top - size (f t.cpu :: slots) + (f t.cpu).size = s.top - size slots := by omega
    exact Holds.push (by rw [hbelow]; exact h.holds)
  · show (t.cpu.push _).mem x = _
    rw [hpush.2, Slot.write_other (by omega)]
    exact h.mem x hx

/-- A pop of a word into `eax`. -/
theorem popEax {v : U32} (h : Inside depth s (place i) eax edx (.word v :: slots) io t)
    (hi : listing[i]? = some .popEax)
    (hroom : size (.word v :: slots) ≤ s.cpu.sp.toNat) :
    ∃ u, Steps listing place t u ∧ Inside depth s (place (i + 1)) v edx slots io u := by
  obtain ⟨hat, hrest, hesp⟩ := h.top_slot hroom
  exact ⟨_, .step h.ip hi .refl, h.unused, rfl, hat, h.edx, hesp, hrest, h.mem, h.io⟩

/-- A pop into `ax`. -/
theorem popAx {v : U16} (h : Inside depth s (place i) eax edx (.half v :: slots) io t)
    (hi : listing[i]? = some .popAx)
    (hroom : size (.half v :: slots) ≤ s.cpu.sp.toNat) :
    ∃ u, Steps listing place t u ∧
      Inside depth s (place (i + 1)) (setLo16 eax v) edx slots io u := by
  obtain ⟨hat, hrest, hesp⟩ := h.top_slot hroom
  exact ⟨_, .step h.ip hi .refl, h.unused, rfl, congrArg₂ setLo16 h.eax hat, h.edx, hesp, hrest,
    h.mem, h.io⟩

/-- A pop into `dx`. -/
theorem popDx {v : U16} (h : Inside depth s (place i) eax edx (.half v :: slots) io t)
    (hi : listing[i]? = some .popDx)
    (hroom : size (.half v :: slots) ≤ s.cpu.sp.toNat) :
    ∃ u, Steps listing place t u ∧
      Inside depth s (place (i + 1)) eax (setLo16 edx v) slots io u := by
  obtain ⟨hat, hrest, hesp⟩ := h.top_slot hroom
  exact ⟨_, .step h.ip hi .refl, h.unused, rfl, h.eax, congrArg₂ setLo16 h.edx hat, hesp, hrest,
    h.mem, h.io⟩

/-- A routine that gets to its `ret` with nothing left on the stack, and with `edx` as it
was, has returned. -/
theorem ret (h : Inside depth s (place i) eax s.cpu.edx [] io t) (hi : listing[i]? = some .ret) :
    ∃ u, Steps listing place t u ∧ Returned depth s u ∧ u.io = io := by
  obtain ⟨htop, -⟩ := h.top_eq (Nat.zero_le _)
  refine ⟨_, .step h.ip hi .refl, ⟨h.unused, h.edx, ?_, ?_, h.mem⟩, h.io⟩
  · show setLo16 t.cpu.esp (t.cpu.sp + 2) = _
    rw [h.sp_eq, h.esp, setLo16_setLo16, size, BitVec.sub_zero]
  · show t.cpu.mem.read16 t.top = s.cpu.mem.read16 s.top
    rw [htop]
    exact ByteMem.read16_congr fun x hx _ => h.mem x (.inr hx)

/-- A call of a routine that returns. -/
theorem call {P : Ports δ → Prop} (h : Inside depth s (place i) eax edx slots io t)
    (hi : listing[i]? = some (.call line)) {below : Nat}
    (hdepth : size slots + 2 + below ≤ depth) (hroom : depth ≤ s.cpu.sp.toNat)
    (callee : ∀ t', t'.cpu.ip = place line → t'.cpu.eax = eax → below ≤ t'.cpu.sp.toNat →
      t'.io = io → ∃ u, Steps listing place t' u ∧ Returned below t' u ∧ P u.io) :
    ∃ u, Steps listing place t u ∧ P u.io ∧
      Inside depth s (place (i + 1)) u.cpu.eax edx slots u.io u := by
  obtain ⟨htop, hsp⟩ := h.top_eq (by omega)
  have hle := sp_le_top s
  have hpush := Cpu.push_spec (c := t.cpu) (s := .half (place (i + 1)))
    (show 2 ≤ t.cpu.sp.toNat by omega)
  obtain ⟨htop', hsp'⟩ := Cpu.stackTop_push (c := t.cpu) (s := .half (place (i + 1)))
    (show 2 ≤ t.cpu.sp.toNat by omega)
  have hmem : ((Instr.call line).exec place i t).cpu.mem =
      t.cpu.mem.write16 (t.top - 2) (place (i + 1)) := congrArg Cpu.mem hpush
  obtain ⟨u, hsteps, hreturned, hP⟩ := callee ((Instr.call line).exec place i t) rfl h.eax
    (by show below ≤ (t.cpu.push _).sp.toNat; rw [hsp', hsp]; simp only [Slot.size]; omega) h.io
  have hcall : ((Instr.call line).exec place i t).top = t.top - 2 := htop'
  have hkeeps : ∀ x, x < s.top - depth ∨ s.top - size slots ≤ x →
      u.cpu.mem x = t.cpu.mem x := by
    intro x hx
    rw [hreturned.mem x (by omega), hmem, ByteMem.write16_other (by omega)]
  refine ⟨u, .step h.ip hi hsteps, hP, hreturned.unused.trans h.unused, ?_, rfl,
    hreturned.edx.trans h.edx, ?_, ?_, ?_, rfl⟩
  · rw [hreturned.ip, Board.returnAddress, hcall, hmem, ByteMem.read16_write16_same]
  · have hcallsp : ((Instr.call line).exec place i t).cpu.sp = t.cpu.sp - 2 := lo16_setLo16 _ _
    rw [hreturned.esp, hcallsp, ← h.esp]
    show setLo16 (setLo16 t.cpu.esp (t.cpu.sp - 2)) (t.cpu.sp - 2 + 2) = t.cpu.esp
    rw [setLo16_setLo16, BitVec.sub_add_cancel]
    exact hi16_append_lo16 t.cpu.esp
  · exact h.holds.congr fun x hx _ => hkeeps x (.inr hx)
  · intro x hx
    rw [hkeeps x (by omega), h.mem x hx]

end Inside

end Rules

end MyBios.Asm
