import Mathlib.Data.BitVec
import MyBios.Bda

/-!
Memory detection at power-on (`post.c`).

The memory that is probed may answer anything, so it is a parameter: `Ram ρ`
gives the loads and stores of some memory state `ρ`. `probeRam` walks upwards
from `start`, one word in every block of `stride` bytes, until a word does not
keep what is stored in it; what it printed on the way is left out. A word that
fails is not restored.

`probeRam_total`: in memory where the address decides whether a word keeps what
is stored in it (`Decoded`), the result is the size of the blocks before the
first one that does not. `probeRam_diverges`: where every block keeps data, the
address wraps and the loop has no end.
-/

namespace MyBios

open Prog

/-- Memory with loads and stores of any behaviour. -/
class Ram (ρ : Type) where
  read8 : U32 → ρ → U8
  read16 : U32 → ρ → U16
  read32 : U32 → ρ → U32
  write8 : U32 → U8 → ρ → ρ
  write16 : U32 → U16 → ρ → ρ
  write32 : U32 → U32 → ρ → ρ

variable {ρ : Type} [Ram ρ]

/-! ### The probe loop -/

/-- The two words that are stored in turn, complements of each other. -/
def pattern₁ : U32 := 0xAA55AA55
def pattern₂ : U32 := 0x55AA55AA

theorem pattern_ne : pattern₁ ≠ pattern₂ := by decide

/-- One pass at the word `i`, with `bytesFound` so far. -/
def probePass (start stride : U32) : U32 × U32 → Prog ρ (Pass (U32 × U32) U32)
  | (i, bytesFound) =>
    if i < 0xffffffff then do
      let oldVal ← gets (Ram.read32 i)
      modify (Ram.write32 i pattern₁)
      let first ← gets (Ram.read32 i)
      if first = pattern₁ then do
        modify (Ram.write32 i pattern₂)
        let second ← gets (Ram.read32 i)
        if second = pattern₂ then do
          modify (Ram.write32 i oldVal)
          return .again (i + stride, i + 4 - start)
        else return .done bytesFound
      else return .done bytesFound
    else return .done bytesFound

def probeRam (start stride : U32) : Prog ρ U32 :=
  loop (probePass start stride) (start + stride - 4, 0)

/-- `checkRam`, with the two sizes in KB added up and stored in 16 bits. -/
def checkRam : Prog ρ Unit := do
  let lower ← probeRam 0x0 0x400
  let extended ← probeRam 0x100000 0x400
  let total := lower / 1024 + extended / 1024
  modify (Ram.write16 (BitVec.ofNat 32 BdaField.memoryKb.addr) (total.setWidth 16))

/-! ### Memory that is there or not -/

/-- In the states of `I`, a word at an address of `holds` keeps what is stored in
it, and one at any other address always reads as the same value. -/
structure Decoded (I : ρ → Prop) (holds : U32 → Prop) : Prop where
  keep : ∀ i v s, I s → I (Ram.write32 i v s)
  stored : ∀ i v s, I s → holds i → Ram.read32 i (Ram.write32 i v s) = v
  floating : ∀ i v s, I s → ¬ holds i → Ram.read32 i (Ram.write32 i v s) = Ram.read32 i s

/-- The word that pass `k` tests. -/
def testPoint (start stride : U32) (k : Nat) : U32 :=
  start + stride - 4 + stride * BitVec.ofNat 32 k

section Decoded

variable {I : ρ → Prop} {holds : U32 → Prop} {start stride : U32} {s : ρ} {i : U32}

/-- A word that keeps data: its block is counted. -/
theorem probePass_found (start stride bytesFound : U32) (d : Decoded I holds) (hs : I s)
    (hi : i < 0xffffffff) (h : holds i) :
    ∃ t, (probePass start stride (i, bytesFound)).Returns s (.again (i + stride, i + 4 - start)) t ∧
      I t := by
  have first := d.stored i pattern₁ s hs h
  have hs₁ := d.keep i pattern₁ s hs
  have second := d.stored i pattern₂ _ hs₁ h
  have hs₂ := d.keep i pattern₂ _ hs₁
  refine ⟨_, ?_, d.keep i (Ram.read32 i s) _ hs₂⟩
  rw [probePass, if_pos hi]
  simp [first, second]

/-- A word that does not keep data ends the loop. -/
theorem probePass_hole (start stride bytesFound : U32) (d : Decoded I holds) (hs : I s)
    (h : ¬ holds i) :
    ∃ t, (probePass start stride (i, bytesFound)).Returns s (.done bytesFound) t ∧ I t := by
  have hs₁ := d.keep i pattern₁ s hs
  have hs₂ := d.keep i pattern₂ _ hs₁
  have first := d.floating i pattern₁ s hs h
  have second := d.floating i pattern₂ _ hs₁ h
  by_cases hi : i < 0xffffffff
  · rw [probePass, if_pos hi]
    by_cases hread : Ram.read32 i s = pattern₁
    · refine ⟨_, ?_, hs₂⟩
      simp [first, second, hread, pattern_ne]
    · refine ⟨_, ?_, hs₁⟩
      simp [first, hread]
  · rw [probePass, if_neg hi]
    exact ⟨s, by simp, hs⟩

/-- The next test point is a stride away. -/
theorem testPoint_succ (k : Nat) :
    testPoint start stride (k + 1) = testPoint start stride k + stride := by
  rw [testPoint, testPoint, BitVec.ofNat_add, BitVec.mul_add, BitVec.add_assoc]
  exact congrArg _ (congrArg _ (BitVec.mul_one stride))

/-- What is counted up to test point `k`: `k + 1` blocks. -/
theorem testPoint_found (k : Nat) :
    testPoint start stride k + 4 - start = stride * BitVec.ofNat 32 (k + 1) := by
  rw [testPoint, BitVec.ofNat_add, BitVec.mul_add]
  grind

/-- The result is the size of the blocks before the first one that fails. -/
theorem probeRam_total (d : Decoded I holds) (hs : I s) {n : Nat}
    (inside : ∀ k < n, testPoint start stride k < 0xffffffff)
    (found : ∀ k < n, holds (testPoint start stride k))
    (hole : ¬ holds (testPoint start stride n)) :
    Total (probeRam start stride) s fun bytes t => bytes = stride * BitVec.ofNat 32 n ∧ I t := by
  have total : Total (loop (probePass start stride)
      (testPoint start stride 0, stride * BitVec.ofNat 32 0)) s
        fun bytes t => bytes = stride * BitVec.ofNat 32 n ∧ I t := by
    refine Total.loop_counted (I := fun _ t => I t) (n := n)
      (b := fun k => (testPoint start stride k, stride * BitVec.ofNat 32 k)) ?_ ?_ hs
    · intro k t hk ht
      obtain ⟨u, hpass, hu⟩ := probePass_found start stride (stride * BitVec.ofNat 32 k) d ht
        (inside k hk) (found k hk)
      rw [testPoint_found, ← testPoint_succ] at hpass
      exact ⟨u, hpass, hu⟩
    · intro t ht
      obtain ⟨u, hpass, hu⟩ := probePass_hole start stride (stride * BitVec.ofNat 32 n) d ht hole
      exact ⟨_, u, hpass, rfl, hu⟩
  rwa [testPoint, BitVec.mul_zero, BitVec.add_zero] at total

/-- Where every block keeps data, the address wraps and the loop goes on for ever. -/
theorem probeRam_diverges (d : Decoded I holds) (hs : I s) {bytes : U32} {t : ρ}
    (inside : ∀ k, testPoint start stride k < 0xffffffff)
    (found : ∀ k, holds (testPoint start stride k)) :
    ¬ (probeRam start stride).Returns s bytes t := by
  refine not_returns_loop
    (I := fun b t => (∃ k, b.1 = testPoint start stride k) ∧ I t) ?_ ⟨⟨0, ?_⟩, hs⟩
  · rintro ⟨i, bytesFound⟩ t ⟨⟨k, rfl⟩, ht⟩
    obtain ⟨u, hpass, hu⟩ := probePass_found start stride bytesFound d ht (inside k) (found k)
    exact ⟨_, u, hpass, ⟨k + 1, (testPoint_succ k).symm⟩, hu⟩
  · rw [testPoint, BitVec.mul_zero, BitVec.add_zero]

end Decoded

end MyBios
