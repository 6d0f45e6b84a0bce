import MyBios.Lib.ByteMem

/-!
Packed slots in memory: stacks and packed structs.

A slot is a half-word or a word with its value. `Holds m a slots` says that `m`
has the slots one after the other from address `a` on, with no gap. A stack that
grows downwards holds its latest push first, so a push adds a slot in front, and
a packed struct holds its fields in declaration order; both are lists of slots.

* `Holds.congr`: only the bytes of the slots matter.
* `holds_append`: slots can be split and joined.
* `holds_writeSlots`: a struct that was stored is there.
* `holds_pushSlots`: slots that were pushed are there, the latest first.
-/

/-- A half-word or a word, with its value. -/
inductive Slot where
  | half (v : BitVec 16)
  | word (v : BitVec 32)

namespace Slot

/-- The number of bytes. -/
def size : Slot → Nat
  | half _ => 2
  | word _ => 4

/-- The slot is at `a`. -/
def At (m : ByteMem) (a : Nat) : Slot → Prop
  | half v => m.read16 a = v
  | word v => m.read32 a = v

/-- Store the slot at `a`. -/
def write (m : ByteMem) (a : Nat) : Slot → ByteMem
  | half v => m.write16 a v
  | word v => m.write32 a v

variable {m m' : ByteMem} {a x : Nat} {s : Slot}

theorem At.congr (h : s.At m a) (hm : ∀ x, a ≤ x → x < a + s.size → m' x = m x) : s.At m' a := by
  cases s with
  | half v => exact (ByteMem.read16_congr hm).trans h
  | word v => exact (ByteMem.read32_congr hm).trans h

theorem at_write : s.At (s.write m a) a := by
  cases s with
  | half v => exact ByteMem.read16_write16_same
  | word v => exact ByteMem.read32_write32_same

theorem write_other (h : x < a ∨ a + s.size ≤ x) : s.write m a x = m x := by
  cases s with
  | half v => exact ByteMem.write16_other h
  | word v => exact ByteMem.write32_other h

end Slot

namespace Slots

variable {m m' : ByteMem} {a x : Nat} {s : Slot} {slots rest : List Slot}

/-- The number of bytes of all slots. -/
def size : List Slot → Nat
  | [] => 0
  | s :: rest => s.size + size rest

/-- The slots are in memory from `a` on. -/
def Holds (m : ByteMem) (a : Nat) : List Slot → Prop
  | [] => True
  | s :: rest => s.At m a ∧ Holds m (a + s.size) rest

/-- Store the slots from `a` on. -/
def writeSlots (m : ByteMem) (a : Nat) : List Slot → ByteMem
  | [] => m
  | s :: rest => writeSlots (s.write m a) (a + s.size) rest

@[simp] theorem holds_nil : Holds m a [] ↔ True := Iff.rfl

@[simp] theorem holds_half {v : BitVec 16} :
    Holds m a (.half v :: rest) ↔ m.read16 a = v ∧ Holds m (a + 2) rest := Iff.rfl

@[simp] theorem holds_word {v : BitVec 32} :
    Holds m a (.word v :: rest) ↔ m.read32 a = v ∧ Holds m (a + 4) rest := Iff.rfl

/-- Only the bytes of the slots matter. -/
theorem Holds.congr (h : Holds m a slots)
    (hm : ∀ x, a ≤ x → x < a + size slots → m' x = m x) : Holds m' a slots := by
  induction slots generalizing a with
  | nil => trivial
  | cons s rest ih =>
      have hsize : size (s :: rest) = s.size + size rest := rfl
      exact ⟨h.1.congr fun x hlo hhi => hm x hlo (by omega),
        ih h.2 fun x hlo hhi => hm x (by omega) (by omega)⟩

theorem holds_append :
    Holds m a (slots ++ rest) ↔ Holds m a slots ∧ Holds m (a + size slots) rest := by
  induction slots generalizing a with
  | nil => exact ⟨fun h => ⟨trivial, h⟩, And.right⟩
  | cons s slots ih =>
      rw [List.cons_append, Holds, Holds, ih, size, Nat.add_assoc, and_assoc]

theorem writeSlots_other (h : x < a ∨ a + size slots ≤ x) : writeSlots m a slots x = m x := by
  induction slots generalizing m a with
  | nil => rfl
  | cons s rest ih =>
      have hsize : size (s :: rest) = s.size + size rest := rfl
      rw [writeSlots, ih (by omega), Slot.write_other (by omega)]

theorem holds_writeSlots : Holds (writeSlots m a slots) a slots := by
  induction slots generalizing m a with
  | nil => trivial
  | cons s rest ih =>
      exact ⟨Slot.at_write.congr fun x _ hhi => writeSlots_other (.inl hhi), ih⟩

/-- Push the slots below `a`, one after the other. -/
def pushSlots (m : ByteMem) (a : Nat) : List Slot → ByteMem
  | [] => m
  | s :: rest => pushSlots (s.write m (a - s.size)) (a - s.size) rest

theorem pushSlots_other (hfits : size slots ≤ a) (h : x < a - size slots ∨ a ≤ x) :
    pushSlots m a slots x = m x := by
  induction slots generalizing m a with
  | nil => rfl
  | cons s rest ih =>
      have hsize : size (s :: rest) = s.size + size rest := rfl
      rw [pushSlots, ih (by omega) (by omega), Slot.write_other (by omega)]

/-- A slot stored right below the others. -/
theorem Holds.push (h : Holds m (a + s.size) rest) : Holds (s.write m a) a (s :: rest) :=
  ⟨Slot.at_write, h.congr fun _ hlo _ => Slot.write_other (.inr hlo)⟩

theorem holds_pushSlots (slots : List Slot) (hfits : size slots ≤ a) (h : Holds m a rest) :
    Holds (pushSlots m a slots) (a - size slots) (slots.reverse ++ rest) := by
  induction slots generalizing m a rest with
  | nil => exact h
  | cons s slots ih =>
      have hsize : size (s :: slots) = s.size + size slots := rfl
      have hpush : Holds (s.write m (a - s.size)) (a - s.size) (s :: rest) :=
        Holds.push (by rwa [Nat.sub_add_cancel (by omega)])
      have hholds := ih (by omega) hpush
      rw [Nat.sub_sub, ← hsize] at hholds
      rw [List.reverse_cons, List.append_assoc, List.singleton_append]
      exact hholds

end Slots
