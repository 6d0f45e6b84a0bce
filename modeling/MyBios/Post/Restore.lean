import MyBios.Lib.Cells
import MyBios.Post.Ram

/-!
What the memory tests of `post.c` leave in memory that may be faulty.

Memory is made of cells with stuck bits (`CellMemory`). Both loops test a word with two
patterns, one the complement of the other, and put the old value back; a word that does
not read back ends the loop before that. A word passes exactly when none of its bits is
stuck (`good_iff`), and then it is restored.

`tests_restore_iff`: a call leaves the memory as it was exactly when the first faulty word
that it comes to had the last pattern in its working bits already.
-/

namespace MyBios

open Prog

instance : Ram CellMemory where
  read8 i m := CellMemory.read 1 i m
  read16 i m := CellMemory.read 2 i m
  read32 i m := CellMemory.read 4 i m
  write8 i v m := CellMemory.write (b := 1) i v m
  write16 i v m := CellMemory.write (b := 2) i v m
  write32 i v m := CellMemory.write (b := 4) i v m

/-! ### The test of one word -/

section Programs

variable {ρ β γ : Type} [Ram ρ]

/-- The part that the two loops have in common: the word at `i` is tested, and the loop goes
on with `next`, or leaves with `failed`. -/
def samplePass (i : U32) (next : β) (failed : γ) : Prog ρ (Pass β γ) := do
  let oldVal ← gets (Ram.read32 i)
  modify (Ram.write32 i pattern₁)
  let first ← gets (Ram.read32 i)
  if first = pattern₁ then do
    modify (Ram.write32 i pattern₂)
    let second ← gets (Ram.read32 i)
    if second = pattern₂ then do
      modify (Ram.write32 i oldVal)
      return .again next
    else return .done failed
  else return .done failed

theorem probePass_eq (start stride i bytesFound : U32) :
    (probePass start stride (i, bytesFound) : Prog ρ _) =
      if i < 0xffffffff then samplePass i (i + stride, i + 4 - start) bytesFound
      else pure (.done bytesFound) := rfl

/-- One pass of `testRam`; its parameter `end` is a length. -/
def testPass (start «end» : U32) : U32 × U32 → Prog ρ (Pass (U32 × U32) U32)
  | (i, bytes) =>
    if i < start + «end» then samplePass i (i + 4, bytes + 4) bytes
    else return .done bytes

def testRam (start «end» : U32) : Prog ρ U32 :=
  loop (testPass start «end») (start, 0)

end Programs

section Word

variable {β γ : Type} {m : CellMemory} {i v : U32} {next : β} {failed : γ}

/-- No bit of the word is stuck. -/
def Good (m : CellMemory) (i : U32) : Prop := CellMemory.writable 4 i m = BitVec.allOnes 32

instance : Decidable (Good m i) := inferInstanceAs (Decidable (_ = _))

/-- The bits that are stuck read as the first pattern has them. -/
def StuckLikeFirst (m : CellMemory) (i : U32) : Prop :=
  Ram.read32 i m &&& ~~~CellMemory.writable 4 i m = pattern₁ &&& ~~~CellMemory.writable 4 i m

instance : Decidable (StuckLikeFirst m i) := inferInstanceAs (Decidable (_ = _))

/-- The pattern that a test of a faulty word stores last. -/
def lastPattern (m : CellMemory) (i : U32) : U32 :=
  if StuckLikeFirst m i then pattern₂ else pattern₁

/-- The working bits of the word have the last pattern already. -/
def Unharmed (m : CellMemory) (i : U32) : Prop :=
  lastPattern m i &&& CellMemory.writable 4 i m = Ram.read32 i m &&& CellMemory.writable 4 i m

instance : Decidable (Unharmed m i) := inferInstanceAs (Decidable (_ = _))

theorem reads_back : Ram.read32 i (Ram.write32 i v m) = v ↔
    Ram.read32 i m &&& ~~~CellMemory.writable 4 i m = v &&& ~~~CellMemory.writable 4 i m :=
  CellMemory.reads_back (b := 4) (by decide)

/-- The second pattern, after the first. -/
theorem reads_back_again : Ram.read32 i (Ram.write32 i pattern₂ (Ram.write32 i pattern₁ m)) =
      pattern₂ ↔
    Ram.read32 i m &&& ~~~CellMemory.writable 4 i m =
      pattern₂ &&& ~~~CellMemory.writable 4 i m := by
  have hwrite : Ram.write32 i pattern₂ (Ram.write32 i pattern₁ m) = Ram.write32 i pattern₂ m :=
    CellMemory.write_write
  rw [hwrite, reads_back]

/-- A stuck bit differs from one of the two patterns. -/
theorem good_iff : Good m i ↔ Ram.read32 i (Ram.write32 i pattern₁ m) = pattern₁ ∧
    Ram.read32 i (Ram.write32 i pattern₂ (Ram.write32 i pattern₁ m)) = pattern₂ := by
  rw [reads_back, reads_back_again, Good]
  generalize CellMemory.writable 4 i m = mask
  constructor
  · rintro rfl
    rw [BitVec.not_allOnes, BitVec.and_zero, BitVec.and_zero, BitVec.and_zero]
    exact ⟨rfl, rfl⟩
  · rintro ⟨hfirst, hsecond⟩
    have hcomplement : pattern₂ = ~~~pattern₁ := by decide
    have hsame : pattern₁ &&& ~~~mask = ~~~pattern₁ &&& ~~~mask := by
      rw [← hfirst, hsecond, hcomplement]
    apply BitVec.eq_of_getLsbD_eq
    intro j hj
    have hbit := congrArg (fun x : U32 => x.getLsbD j) hsame
    simp only [BitVec.getLsbD_and, BitVec.getLsbD_not, hj, decide_true, Bool.true_and] at hbit
    rw [BitVec.getLsbD_allOnes, decide_eq_true hj]
    cases hpattern : pattern₁.getLsbD j <;> rw [hpattern] at hbit <;> simpa using hbit

/-- A good word is restored. -/
theorem samplePass_good (h : Good m i) : (samplePass i next failed).Returns m (.again next) m := by
  obtain ⟨hfirst, hsecond⟩ := good_iff.mp h
  have hrestored : Ram.write32 i (Ram.read32 i m)
      (Ram.write32 i pattern₂ (Ram.write32 i pattern₁ m)) = m :=
    calc Ram.write32 i (Ram.read32 i m) (Ram.write32 i pattern₂ (Ram.write32 i pattern₁ m))
        = Ram.write32 i (Ram.read32 i m) (Ram.write32 i pattern₁ m) := CellMemory.write_write
      _ = Ram.write32 i (Ram.read32 i m) m := CellMemory.write_write
      _ = m := CellMemory.write_read (by decide)
  rw [samplePass]
  simp [hfirst, hsecond, hrestored]

/-- A faulty word is left with the last pattern. -/
theorem samplePass_faulty (next : β) (failed : γ) (h : ¬ Good m i) :
    (samplePass i next failed).Returns m (.done failed) (Ram.write32 i (lastPattern m i) m) := by
  rw [samplePass, lastPattern]
  by_cases hfirst : Ram.read32 i (Ram.write32 i pattern₁ m) = pattern₁
  · have hsecond : ¬ Ram.read32 i (Ram.write32 i pattern₂ (Ram.write32 i pattern₁ m)) =
        pattern₂ := fun hsecond => h (good_iff.mpr ⟨hfirst, hsecond⟩)
    have hwrite : Ram.write32 i pattern₂ (Ram.write32 i pattern₁ m) = Ram.write32 i pattern₂ m :=
      CellMemory.write_write
    rw [hwrite] at hsecond
    rw [if_pos (show StuckLikeFirst m i from reads_back.mp hfirst)]
    simp [hfirst, hsecond, hwrite]
  · rw [if_neg (show ¬ StuckLikeFirst m i from fun hstuck => hfirst (reads_back.mpr hstuck))]
    simp [hfirst]

/-- The memory is as it was exactly when the word is not harmed. -/
theorem left_iff : Ram.write32 i (lastPattern m i) m = m ↔ Unharmed m i :=
  CellMemory.write_eq_self (b := 4) (by decide)

end Word

/-! ### The loops -/

section Loops

variable {m : CellMemory} {start stride «end» : U32}

/-- The call leaves the memory as it was, however it ends. -/
def Restores (p : Prog CellMemory U32) (m : CellMemory) : Prop :=
  ∀ bytes t, p.Returns m bytes t → t = m

/-- The first faulty word among those at `point 0`, `point 1`, …, as far as they are in
range, is not harmed. -/
def FirstFaultUnharmed (m : CellMemory) (inRange : U32 → Prop) (point : Nat → U32) : Prop :=
  ∀ n, (∀ k < n, inRange (point k) ∧ Good m (point k)) → inRange (point n) →
    ¬ Good m (point n) → Unharmed m (point n)

/-- A loop that tests one word in each pass. -/
theorem restores_sweep (inRange : U32 → Prop) [DecidablePred inRange] (point : Nat → U32)
    (b : Nat → U32 × U32) (failed : Nat → U32)
    (body : U32 × U32 → Prog CellMemory (Pass (U32 × U32) U32))
    (pass : ∀ k, body (b k) = if inRange (point k) then samplePass (point k) (b (k + 1)) (failed k)
      else pure (.done (failed k))) :
    Restores (loop body (b 0)) m ↔ FirstFaultUnharmed m inRange point := by
  have again : ∀ k, inRange (point k) ∧ Good m (point k) →
      (body (b k)).Returns m (.again (b (k + 1))) m := by
    rintro k ⟨hrange, hgood⟩
    rw [pass, if_pos hrange]
    exact samplePass_good hgood
  have stop : ∀ k, ¬ (inRange (point k) ∧ Good m (point k)) →
      ∃ c, (body (b k)).Returns m (.done c)
        (if inRange (point k) then Ram.write32 (point k) (lastPattern m (point k)) m else m) := by
    intro k hstop
    refine ⟨failed k, ?_⟩
    rw [pass]
    by_cases hrange : inRange (point k)
    · rw [if_pos hrange, if_pos hrange]
      exact samplePass_faulty _ _ fun hgood => hstop ⟨hrange, hgood⟩
    · rw [if_neg hrange, if_neg hrange]
      exact returns_pure.mpr ⟨rfl, rfl⟩
  refine (keeps_sweep again stop).trans (forall_congr' fun n => forall_congr' fun _ => ?_)
  by_cases hrange : inRange (point n)
  · rw [if_pos hrange, left_iff, forall_prop_of_true hrange, and_iff_right hrange]
  · rw [if_neg hrange]
    exact iff_of_true (fun _ => rfl) fun hin => absurd hin hrange

/-- The word that pass `k` of `testRam` tests. -/
def testedWord (start : U32) (k : Nat) : U32 := start + 4 * BitVec.ofNat 32 k

theorem testedWord_succ (k : Nat) : testedWord start (k + 1) = testedWord start k + 4 := by
  rw [testedWord, testedWord, BitVec.ofNat_add, BitVec.mul_add, BitVec.add_assoc]
  rfl

theorem probeRam_restores : Restores (probeRam start stride) m ↔
    FirstFaultUnharmed m (· < 0xffffffff) (testPoint start stride) := by
  have sweep := restores_sweep (m := m) (· < 0xffffffff) (testPoint start stride)
    (fun k => (testPoint start stride k, stride * BitVec.ofNat 32 k))
    (fun k => stride * BitVec.ofNat 32 k) (probePass start stride) ?_
  · rwa [testPoint, BitVec.mul_zero, BitVec.add_zero] at sweep
  · intro k
    rw [probePass_eq, testPoint_found, ← testPoint_succ]

theorem testRam_restores : Restores (testRam start «end») m ↔
    FirstFaultUnharmed m (· < start + «end») (testedWord start) := by
  have sweep := restores_sweep (m := m) (· < start + «end») (testedWord start)
    (fun k => (testedWord start k, 4 * BitVec.ofNat 32 k)) (fun k => 4 * BitVec.ofNat 32 k)
    (testPass start «end») ?_
  · rwa [testedWord, BitVec.mul_zero, BitVec.add_zero] at sweep
  · intro k
    have hbytes : 4 * BitVec.ofNat 32 k + 4 = (4 : U32) * BitVec.ofNat 32 (k + 1) := by
      rw [BitVec.ofNat_add, BitVec.mul_add]
      rfl
    rw [testPass, hbytes, ← testedWord_succ]

/-- The two tests leave the memory as it was exactly when the first faulty word that they come
to is not harmed. -/
theorem tests_restore_iff (m : CellMemory) (start stride «end» : U32) :
    (Restores (probeRam start stride) m ↔
      FirstFaultUnharmed m (· < 0xffffffff) (testPoint start stride)) ∧
    (Restores (testRam start «end») m ↔
      FirstFaultUnharmed m (· < start + «end») (testedWord start)) :=
  ⟨probeRam_restores, testRam_restores⟩

end Loops

/-- Memory of zeros in which bit 0 of the word at `0x3FC` is stuck. -/
def stuckMemory : CellMemory where
  cell a :=
    { value := 0
      writable := if a = 0x3FC then 0xFE else 0xFF
      clears := 0
      apart := BitVec.and_zero }
  plain _ := rfl

/-- The first block of that memory is left with a pattern in it. -/
theorem tests_restore_fails :
    ¬ ∀ (m : CellMemory) (start stride «end» : U32),
      Restores (probeRam start stride) m ∧ Restores (testRam start «end») m := by
  intro h
  have restores := probeRam_restores.mp (h stuckMemory 0 0x400 0).1
  have unharmed := restores 0 (fun k hk => absurd hk (Nat.not_lt_zero k)) (by decide) (by decide)
  exact absurd unharmed (by decide)

end MyBios
