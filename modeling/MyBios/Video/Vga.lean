import MyBios.Util.Memcpy

/-!
The text screen (`vga.c`): 25 lines of 80 cells at `0xB8000`, each cell a
character byte and an attribute byte.

`cur_line` and `cur_col` are bytes. The build has `-funsigned-char`, so they are
widened to `int` with zeros where they are used. The functions that touch the screen's memory only
are functions on `ByteMem`. The lemmas say what they leave in each cell.
-/

namespace MyBios

open Prog

/-- `TXT_BASE`. -/
def txtBase : U32 := 0xB8000

/-- The two static variables of `vga.c`, the ports and memory. -/
structure Vga (δ : Type) where
  curLine : U8
  curCol : U8
  io : Ports δ
  mem : ByteMem

def Vga.ioLens (δ : Type) : Lens (Vga δ) (Ports δ) where
  get := Vga.io
  set io s := { s with io := io }
  get_set _ _ := rfl
  set_get _ := rfl

/-! ### The program -/

def vgaSetChar (index : U32) (c : U8) (m : ByteMem) : ByteMem :=
  let output := txtBase + index * 2
  (m.write8 output.toNat c).write8 (output + 1).toNat 0x1F

def vgaSetCharLc (line col : U32) (c : U8) (m : ByteMem) : ByteMem :=
  vgaSetChar (line * 80 + col) c m

/-- `&output[i]` for an `int* output` at `TXT_BASE`. -/
def textWord (i : Nat) : Nat := txtBase.toNat + 4 * i

/-- `for (i = 0; i < n; i++) output[start + i] = 0x1f201f20;` -/
def blankWords (start n : Nat) (m : ByteMem) : ByteMem :=
  (List.range n).foldl (fun m i => m.write32 (textWord (start + i)) 0x1f201f20) m

/-- The inner loop of `vgaScroll`, its first `n` passes. -/
def copyLine (line n : Nat) (m : ByteMem) : ByteMem :=
  (List.range n).foldl
    (fun m col => move32 (textWord (col + (line - 1) * 40)) (textWord (col + line * 40)) m) m

/-- The outer loop of `vgaScroll`, its first `n` passes: lines `1` to `n`. -/
def copyLines (n : Nat) (m : ByteMem) : ByteMem :=
  (List.range n).foldl (fun m k => copyLine (k + 1) 40 m) m

def vgaScroll (m : ByteMem) : ByteMem := blankWords (40 * 24) 40 (copyLines 24 m)

variable {δ : Type}

def vgaCls (line : U32) : Prog (Vga δ) Unit :=
  modify fun s =>
    { s with curLine := line.setWidth 8, curCol := 0, mem := blankWords 0 1000 s.mem }

/-- The `switch` of `vgaPutChar`. -/
def Vga.place (c : U8) (s : Vga δ) : Vga δ :=
  if c = 0x0A then { s with curCol := 0, curLine := s.curLine + 1 }
  else if c = 0x0D then { s with curCol := 0 }
  else
    { s with
      mem := vgaSetCharLc (s.curLine.setWidth 32) (s.curCol.setWidth 32) c s.mem
      curCol := s.curCol + 1 }

/-- `if (cur_col >= 80)`. -/
def Vga.wrap (s : Vga δ) : Vga δ :=
  if 80 ≤ s.curCol.toNat then { s with curLine := s.curLine + 1, curCol := 0 } else s

/-- `if (cur_line >= 25)`. -/
def Vga.scroll (s : Vga δ) : Vga δ :=
  if 25 ≤ s.curLine.toNat then { s with mem := vgaScroll s.mem, curLine := 24 } else s

@[simp] theorem Vga.place_io {c : U8} {s : Vga δ} : (s.place c).io = s.io := by
  rw [Vga.place]
  split
  · rfl
  · split <;> rfl

@[simp] theorem Vga.wrap_io {s : Vga δ} : s.wrap.io = s.io := by
  rw [Vga.wrap]
  split <;> rfl

@[simp] theorem Vga.scroll_io {s : Vga δ} : s.scroll.io = s.io := by
  rw [Vga.scroll]
  split <;> rfl

section Program

variable [Bus δ]

def vgaSetCursor (line col : U32) : Prog (Vga δ) Unit := do
  let index := line * 80 + col
  modify fun s => { s with curLine := line.setWidth 8, curCol := col.setWidth 8 }
  zoom (Vga.ioLens δ) do
    outb 0x3D4 0x0F
    outb 0x3D5 ((index &&& 0xFF).setWidth 8)
    outb 0x3D4 0x0E
    outb 0x3D5 ((index.sshiftRight 8 &&& 0xFF).setWidth 8)

def vgaPutChar (c : U8) : Prog (Vga δ) Unit := do
  modify (Vga.place c)
  modify Vga.wrap
  modify Vga.scroll
  let s ← get
  vgaSetCursor (s.curLine.setWidth 32) (s.curCol.setWidth 32)

/-- `vgaPutChar` for each character of a string. -/
def vgaPutChars : List U8 → Prog (Vga δ) Unit
  | [] => pure ()
  | c :: cs => do
    vgaPutChar c
    vgaPutChars cs

end Program

/-! ### Cells -/

/-- The address of the character byte of a cell; its attribute byte follows. -/
def cellAddr (r c : Nat) : Nat := txtBase.toNat + 2 * (80 * r + c)

/-- A cell shows `ch` with the attribute of every cell. -/
def CellShows (m : ByteMem) (r c : Nat) (ch : U8) : Prop :=
  m (cellAddr r c) = ch ∧ m (cellAddr r c + 1) = 0x1F

section Cells

variable {m : ByteMem} {r c l k : Nat} {ch : U8}

/-- Cells on the screen are apart. -/
theorem cellAddr_apart (hc : c < 80) (hk : k < 80) (h : ¬ (r = l ∧ c = k)) :
    cellAddr r c + 2 ≤ cellAddr l k ∨ cellAddr l k + 2 ≤ cellAddr r c := by
  rw [cellAddr, cellAddr]
  omega

/-- A byte as an `int`. -/
@[simp] theorem setWidth_byte {b : U8} : (b.setWidth 32).toNat = b.toNat :=
  BitVec.toNat_setWidth_of_le (by decide)

/-- `vgaSetCharLc` stores at the cell's address. -/
theorem vgaSetCharLc_eq {line col : U8} (hl : line.toNat < 25) (hc : col.toNat < 80) :
    vgaSetCharLc (line.setWidth 32) (col.setWidth 32) ch m =
      (m.write8 (cellAddr line.toNat col.toNat) ch).write8 (cellAddr line.toNat col.toNat + 1)
        0x1F := by
  have haddr : (txtBase + (line.setWidth 32 * 80 + col.setWidth 32) * 2).toNat =
      cellAddr line.toNat col.toNat := by
    simp only [BitVec.toNat_add, BitVec.toNat_mul, setWidth_byte, cellAddr,
      show txtBase.toNat = 0xB8000 from rfl, show (80 : U32).toNat = 80 from rfl,
      show (2 : U32).toNat = 2 from rfl]
    omega
  have hattr : (txtBase + (line.setWidth 32 * 80 + col.setWidth 32) * 2 + 1).toNat =
      cellAddr line.toNat col.toNat + 1 := by
    rw [BitVec.toNat_add, haddr, cellAddr, show txtBase.toNat = 0xB8000 from rfl,
      show (1 : U32).toNat = 1 from rfl]
    omega
  rw [vgaSetCharLc, vgaSetChar, haddr, hattr]

/-- The cell under the cursor gets the character, the others keep theirs. -/
theorem cellShows_vgaSetCharLc {line col ch' : U8} (ch : U8) (hl : line.toNat < 25)
    (hcol : col.toNat < 80) (hc : c < 80) (h : CellShows m r c ch') :
    CellShows (vgaSetCharLc (line.setWidth 32) (col.setWidth 32) ch m) r c
      (if r = line.toNat ∧ c = col.toNat then ch else ch') := by
  rw [vgaSetCharLc_eq hl hcol]
  split
  · rename_i here
    rw [← here.1, ← here.2]
    refine ⟨?_, ByteMem.write8_same⟩
    rw [ByteMem.write8_other (by omega)]
    exact ByteMem.write8_same
  · rename_i other
    have apart := cellAddr_apart hc hcol other
    constructor
    · rw [ByteMem.write8_other (by omega), ByteMem.write8_other (by omega)]
      exact h.1
    · rw [ByteMem.write8_other (by omega), ByteMem.write8_other (by omega)]
      exact h.2

end Cells

/-! ### Scrolling -/

section Scroll

variable {m : ByteMem} {line start n k r c a : Nat} {ch : U8}

theorem copyLine_succ : copyLine line (n + 1) m =
    move32 (textWord (n + (line - 1) * 40)) (textWord (n + line * 40)) (copyLine line n m) := by
  simp only [copyLine, List.range_succ, List.foldl_append, List.foldl_cons, List.foldl_nil]

theorem copyLines_succ : copyLines (n + 1) m = copyLine (n + 1) 40 (copyLines n m) := by
  simp only [copyLines, List.range_succ, List.foldl_append, List.foldl_cons, List.foldl_nil]

theorem blankWords_succ : blankWords start (n + 1) m =
    (blankWords start n m).write32 (textWord (start + n)) 0x1f201f20 := by
  simp only [blankWords, List.range_succ, List.foldl_append, List.foldl_cons, List.foldl_nil]

/-- A line is copied one line up. The two overlap nowhere, and words are copied
upwards, so no word is read after it was written. -/
theorem copied_copyLine :
    Copied (textWord (k * 40)) (textWord ((k + 1) * 40)) (4 * n) m (copyLine (k + 1) n m) := by
  induction n with
  | zero => exact ⟨fun i hi => absurd hi (by omega), fun _ _ => rfl⟩
  | succ n ih =>
      have word := move32_moves (textWord (n + (k + 1 - 1) * 40)) (textWord (n + (k + 1) * 40))
        (copyLine (k + 1) n m)
      rw [← copyLine_succ] at word
      rw [show textWord (n + (k + 1 - 1) * 40) = textWord (k * 40) + 4 * n by
          rw [textWord, textWord]; omega,
        show textWord (n + (k + 1) * 40) = textWord ((k + 1) * 40) + 4 * n by
          rw [textWord, textWord]; omega] at word
      exact ih.snoc word (.inl (by rw [textWord, textWord]; omega))

/-- Lines `1` to `n` are copied one line up. -/
theorem copied_copyLines : Copied (textWord 0) (textWord 40) (160 * n) m (copyLines n m) := by
  induction n with
  | zero => exact ⟨fun i hi => absurd hi (by omega), fun _ _ => rfl⟩
  | succ n ih =>
      have next : Copied (textWord (n * 40)) (textWord ((n + 1) * 40)) (4 * 40) (copyLines n m)
        (copyLine (n + 1) 40 (copyLines n m)) := copied_copyLine
      rw [← copyLines_succ, show textWord (n * 40) = textWord 0 + 160 * n by
          rw [textWord, textWord]; omega,
        show textWord ((n + 1) * 40) = textWord 40 + 160 * n by
          rw [textWord, textWord]; omega] at next
      exact ih.snoc next (.inl (by rw [textWord, textWord]; omega))

/-- The bytes of a blank word: blanks with their attributes. -/
theorem blankWord_byte {i : Nat} (hi : i < 4) :
    (0x1f201f20 : U32).extractLsb' (8 * i) 8 = if i % 2 = 0 then 0x20 else 0x1F := by
  match i, hi with
  | 0, _ | 1, _ | 2, _ | 3, _ => decide

theorem blankWords_inside (h : k < 4 * n) :
    blankWords start n m (textWord start + k) = if k % 2 = 0 then 0x20 else 0x1F := by
  induction n with
  | zero => exact absurd h (by omega)
  | succ n ih =>
      rw [blankWords_succ]
      have hword : textWord (start + n) = textWord start + 4 * n := by
        rw [textWord, textWord]
        omega
      by_cases hk : k < 4 * n
      · rw [ByteMem.write32_other (by omega)]
        exact ih hk
      · obtain ⟨i, rfl⟩ : ∃ i, k = 4 * n + i := ⟨k - 4 * n, by omega⟩
        rw [hword, ← Nat.add_assoc, ByteMem.write32_at (by omega), blankWord_byte (by omega)]
        exact if_congr (by omega) rfl rfl

theorem blankWords_outside (h : a < textWord start ∨ textWord start + 4 * n ≤ a) :
    blankWords start n m a = m a := by
  induction n with
  | zero => rfl
  | succ n ih =>
      have hword : textWord (start + n) = textWord start + 4 * n := by
        rw [textWord, textWord]
        omega
      rw [blankWords_succ, ByteMem.write32_other (by omega)]
      exact ih (by omega)

/-- The cells of the blanked words are blank. -/
theorem cellShows_blankWords (hlo : 2 * start ≤ 80 * r + c) (hhi : 80 * r + c < 2 * (start + n)) :
    CellShows (blankWords start n m) r c 0x20 := by
  have haddr : cellAddr r c = textWord start + 2 * (80 * r + c - 2 * start) := by
    rw [cellAddr, textWord]
    omega
  constructor
  · rw [haddr, blankWords_inside (by omega)]
    exact if_pos (by omega)
  · rw [haddr, Nat.add_assoc, blankWords_inside (by omega)]
    exact if_neg (by omega)

/-- A line other than the last gets the line below it. -/
theorem cellShows_vgaScroll_up (hr : r + 1 < 25) (hc : c < 80)
    (h : CellShows m (r + 1) c ch) :
    CellShows (vgaScroll m) r c ch := by
  have moved : ∀ i < 2, vgaScroll m (cellAddr r c + i) = m (cellAddr (r + 1) c + i) := by
    intro i hi
    rw [vgaScroll, blankWords_outside (by rw [textWord, cellAddr]; omega)]
    have copied := (copied_copyLines (n := 24) (m := m)).copied (2 * (80 * r + c) + i) (by omega)
    rw [show cellAddr r c + i = textWord 0 + (2 * (80 * r + c) + i) by
      rw [textWord, cellAddr]; omega, copied]
    congr 1
    rw [textWord, cellAddr]
    omega
  exact ⟨(moved 0 (by omega)).trans h.1, (moved 1 (by omega)).trans h.2⟩

/-- The last line becomes blank. -/
theorem cellShows_vgaScroll_last (hc : c < 80) : CellShows (vgaScroll m) 24 c 0x20 :=
  cellShows_blankWords (by omega) (by omega)

/-- `vgaCls` blanks the screen. -/
theorem cellShows_blankScreen (hr : r < 25) (hc : c < 80) :
    CellShows (blankWords 0 1000 m) r c 0x20 :=
  cellShows_blankWords (by omega) (by omega)

end Scroll

end MyBios
