import MyBios.Lib.Lane
import MyBios.Lib.Register

/-!
Memory of byte cells, some of whose bits may be stuck.

A cell is a register of 8 bits: a bit that cannot be written keeps its value, as a stuck
bit does, and a cell with no writable bit is an address where nothing is. A read puts
bytes together, the first one lowest, and a write spreads a word over the cells.

`word b i m` is the word of `b` bytes at `i` as one register, and a write to memory is a
write to that register (`word_write`). What follows for memory is what registers have:
the last write counts, writing back the value changes nothing, `reads_back` says when a
value that is written is read, and `write_eq_self` when a write leaves the whole memory as
it was.
-/

/-- Cells at 32-bit addresses. -/
@[ext] structure CellMemory where
  cell : BitVec 32 → Register 8
  plain : ∀ a, (cell a).Plain

namespace CellMemory

variable {b k : Nat} {i a : BitVec 32} {m : CellMemory} {u v : BitVec (8 * b)}

def read (b : Nat) (i : BitVec 32) (m : CellMemory) : BitVec (8 * b) :=
  Lane.gather b fun k => (m.cell (i + BitVec.ofNat 32 k)).value

def write (i : BitVec 32) (v : BitVec (8 * b)) (m : CellMemory) : CellMemory where
  cell a :=
    if (a - i).toNat < b then (m.cell a).write (Lane.get 8 ((a - i).toNat * 8) v) else m.cell a
  plain a := by
    split
    · exact (m.plain a).write
    · exact m.plain a

/-- The bits of a word that take what is written. -/
def writable (b : Nat) (i : BitVec 32) (m : CellMemory) : BitVec (8 * b) :=
  Lane.gather b fun k => (m.cell (i + BitVec.ofNat 32 k)).writable

/-- The word at `i` as a register. -/
def word (b : Nat) (i : BitVec 32) (m : CellMemory) : Register (8 * b) where
  value := read b i m
  writable := writable b i m
  clears := 0
  apart := BitVec.and_zero

theorem plain_word : (word b i m).Plain := rfl

/-- The cells of a word are `b` steps from its address. -/
theorem sub_ofNat (hk : k < b) (hb : b < 2 ^ 32) : (i + BitVec.ofNat 32 k - i).toNat = k := by
  rw [BitVec.add_comm, BitVec.add_sub_cancel, BitVec.toNat_ofNat, Nat.mod_eq_of_lt (by omega)]

theorem add_sub_ofNat : i + BitVec.ofNat 32 (a - i).toNat = a := by
  rw [BitVec.ofNat_toNat, BitVec.setWidth_eq, BitVec.add_comm, BitVec.sub_add_cancel]

/-- Byte `k` of a word after a write. -/
theorem get_read_write (hk : k < b) (hb : b < 2 ^ 32) :
    Lane.get 8 (k * 8) (read b i (m.write i v)) =
      ((m.cell (i + BitVec.ofNat 32 k)).write (Lane.get 8 (k * 8) v)).value := by
  rw [read, Lane.get_gather hk]
  simp only [write]
  rw [if_pos (by rwa [sub_ofNat hk hb]), sub_ofNat hk hb]

theorem writable_write : writable b i (m.write i v) = writable b i m := by
  refine Lane.ext (w := 8) (by omega) ?_
  intro k hk
  rw [writable, writable, Lane.get_gather (by omega), Lane.get_gather (by omega)]
  simp only [write]
  split <;> rfl

/-- A write to memory is a write to the register at the address. -/
theorem word_write (hb : b < 2 ^ 32) : word b i (m.write i v) = (word b i m).write v := by
  refine Register.ext ?_ writable_write rfl
  refine Lane.ext (w := 8) (by omega) ?_
  intro k hk
  have hkb : k < b := by omega
  rw [plain_word.value_write, Lane.get_or, Lane.get_and, Lane.get_and, Lane.get_not (by omega)]
  simp only [word]
  rw [get_read_write hkb hb, (m.plain _).value_write, read, writable, Lane.get_gather hkb,
    Lane.get_gather hkb]

/-- The last write counts. -/
theorem write_write : (m.write i u).write i v = m.write i v := by
  refine CellMemory.ext (funext fun a => ?_)
  simp only [write]
  split
  · exact (m.plain a).write_write
  · rfl

/-- A value reads back when the stuck bits of the word have it already. -/
theorem reads_back (hb : b < 2 ^ 32) : read b i (m.write i v) = v ↔
    read b i m &&& ~~~writable b i m = v &&& ~~~writable b i m := by
  have hvalue : read b i (m.write i v) = _ := congrArg Register.value (word_write hb)
  rw [hvalue]
  exact plain_word.reads_back

/-- A write leaves the memory as it was when it leaves the word as it was. -/
theorem write_word (hb : b < 2 ^ 32) (h : (word b i m).write v = word b i m) :
    m.write i v = m := by
  rw [← word_write hb] at h
  refine CellMemory.ext (funext fun a => ?_)
  by_cases ha : (a - i).toNat < b
  · have hbyte := congrArg (fun r : Register (8 * b) => Lane.get 8 ((a - i).toNat * 8) r.value) h
    simp only [word] at hbyte
    rw [get_read_write ha hb, read, Lane.get_gather ha, add_sub_ofNat] at hbyte
    simp only [write, if_pos ha]
    exact Register.ext hbyte rfl rfl
  · simp only [write, if_neg ha]

/-- It does exactly when the bits that can be written have the value already. -/
theorem write_eq_self (hb : b < 2 ^ 32) :
    m.write i v = m ↔ v &&& writable b i m = read b i m &&& writable b i m := by
  refine Iff.trans ?_ (plain_word (b := b) (i := i) (m := m)).write_eq_self
  constructor
  · intro h
    rw [← word_write hb, h]
  · exact write_word hb

/-- Writing back what was read changes nothing. -/
theorem write_read (hb : b < 2 ^ 32) : m.write i (read b i m) = m :=
  write_word hb plain_word.write_value

end CellMemory
