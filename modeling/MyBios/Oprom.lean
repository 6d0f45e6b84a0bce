import Mathlib.Data.List.Range
import Mathlib.Algebra.BigOperators.Group.List.Basic
import MyBios.Machine

/-!
The test of an option ROM (`oprom_valid` in `main.c`) before it is called.

`opromValid_total` says what the test finds: the signature and a sum of 0 modulo
256 over the image, whose size is the third byte times 512. A size byte of 0 makes
the sum empty, so that a bare signature passes (`oprom_valid_iff`).
-/

namespace MyBios.Oprom

open Prog

/-! ### The program -/

/-- Memory, and the offsets from `oprom` that have been read. -/
structure Rom where
  mem : ByteMem
  reads : List Nat

/-- Byte `i` of the ROM at `oprom`. -/
def romByte (mem : ByteMem) (oprom : U32) (i : Nat) : U8 := mem (oprom + BitVec.ofNat 32 i).toNat

/-- `oprom[i]`. -/
def readRom (oprom i : U32) : Prog Rom U8 := do
  modify fun s => { s with reads := s.reads ++ [i.toNat] }
  gets fun s => romByte s.mem oprom i.toNat

def opromExists (oprom : U32) : Prog Rom Bool := do
  let b₀ ← readRom oprom 0
  if b₀ ≠ 0x55 then return false
  else do
    let b₁ ← readRom oprom 1
    if b₁ ≠ 0xAA then return false else return true

/-- One pass of `for (u32 i = 0; i < size; i++)`, from `i` and `checksum`. -/
def checksumPass (oprom size : U32) (x : U32 × U32) : Prog Rom (Pass (U32 × U32) U32) :=
  if x.1 < size then do
    let b ← readRom oprom x.1
    return .again (x.1 + 1, x.2 + b.setWidth 32)
  else return .done x.2

/-- The loop of `oprom_checksum_valid`, leaving with `checksum`. -/
def opromChecksum (oprom size : U32) : Prog Rom U32 := loop (checksumPass oprom size) (0, 0)

def opromChecksumValid (oprom : U32) : Prog Rom Bool := do
  let b₂ ← readRom oprom 2
  let size := b₂.setWidth 32 * 512
  if size > 0x40000 then return false
  else do
    let checksum ← opromChecksum oprom size
    if checksum &&& 0xFF = 0 then return true else return false

def opromValid (oprom : U32) : Prog Rom Bool := do
  let found ← opromExists oprom
  if found then opromChecksumValid oprom else return false

/-! ### Images -/

/-- The size that a ROM declares. -/
def imageSize (mem : ByteMem) (oprom : U32) : Nat := 512 * (romByte mem oprom 2).toNat

/-- The sum of the first `n` bytes. -/
def byteSum (mem : ByteMem) (oprom : U32) (n : Nat) : Nat :=
  ((List.range n).map fun i => (romByte mem oprom i).toNat).sum

/-- The first two bytes of an option ROM. -/
def Signature (mem : ByteMem) (oprom : U32) : Prop :=
  romByte mem oprom 0 = 0x55 ∧ romByte mem oprom 1 = 0xAA

instance (mem : ByteMem) (oprom : U32) : Decidable (Signature mem oprom) :=
  inferInstanceAs (Decidable (_ ∧ _))

/-- An option ROM: the signature, a size, and a sum of 0 modulo 256. -/
structure IsRom (mem : ByteMem) (oprom : U32) : Prop where
  signature : Signature mem oprom
  size : romByte mem oprom 2 ≠ 0
  checksum : byteSum mem oprom (imageSize mem oprom) % 256 = 0

/-- The offsets that the test may read: the image, of which the three bytes of the header
are always a part. -/
def inImage (mem : ByteMem) (oprom : U32) (i : Nat) : Prop := i < max 3 (imageSize mem oprom)

/-- What is asked of `oprom_valid`: it terminates with the right answer and reads the image
only, and in the checksum loop nothing is lost. -/
structure Validates (mem : ByteMem) (oprom : U32) : Prop where
  decides : Total (opromValid oprom) ⟨mem, []⟩ fun r t =>
    (r = true ↔ IsRom mem oprom) ∧ ∀ i ∈ t.reads, inImage mem oprom i
  exact : Total (opromChecksum oprom ((romByte mem oprom 2).setWidth 32 * 512)) ⟨mem, []⟩
    fun checksum _ => checksum.toNat = byteSum mem oprom (imageSize mem oprom)

variable {mem : ByteMem} {oprom : U32}

/-! ### The test -/

theorem byteSum_succ (n : Nat) :
    byteSum mem oprom (n + 1) = byteSum mem oprom n + (romByte mem oprom n).toNat := by
  rw [byteSum, List.range_succ, List.map_append, List.sum_append, List.map_singleton,
    List.sum_singleton]
  rfl

theorem byteSum_le (mem : ByteMem) (oprom : U32) (n : Nat) : byteSum mem oprom n ≤ 255 * n := by
  induction n with
  | zero => exact Nat.le_refl 0
  | succ n ih =>
      have := (romByte mem oprom n).isLt
      rw [byteSum_succ]
      omega

/-- The size in the loop is the declared one, and far below the limit of 256 KB. -/
theorem size_toNat (mem : ByteMem) (oprom : U32) :
    ((romByte mem oprom 2).setWidth 32 * 512 : U32).toNat = imageSize mem oprom ∧
      imageSize mem oprom ≤ 130560 := by
  have := (romByte mem oprom 2).isLt
  rw [imageSize, BitVec.toNat_mul, BitVec.toNat_setWidth]
  show (_ % 2 ^ 32 * 512) % 2 ^ 32 = _ ∧ _
  omega

/-- The state after some reads, all of them in the image. -/
def Reading (mem : ByteMem) (oprom : U32) (s : Rom) : Prop :=
  s.mem = mem ∧ ∀ i ∈ s.reads, inImage mem oprom i

variable {s : Rom}

theorem readRom_total {i : U32} {n : Nat} (h : Reading mem oprom s) (hn : i.toNat = n)
    (hi : inImage mem oprom n) :
    Total (readRom oprom i) s fun b t => b = romByte mem oprom n ∧ Reading mem oprom t := by
  subst hn
  obtain ⟨rfl, hreads⟩ := h
  refine Total.modify_bind (total_gets ⟨rfl, rfl, fun j hj => ?_⟩)
  cases List.mem_append.mp hj with
  | inl hold => exact hreads j hold
  | inr hnew => rwa [List.mem_singleton.mp hnew]

/-- The loop adds up the image without overflow. -/
theorem opromChecksum_total {size : U32} (h : Reading mem oprom s)
    (hsize : size.toNat ≤ imageSize mem oprom) :
    Total (opromChecksum oprom size) s fun checksum t =>
      checksum.toNat = byteSum mem oprom size.toNat ∧ Reading mem oprom t := by
  have hlimit := (size_toNat mem oprom).2
  refine Total.loop_counted (n := size.toNat) (I := fun _ => Reading mem oprom)
    (b := fun k => (BitVec.ofNat 32 k, BitVec.ofNat 32 (byteSum mem oprom k))) ?_ ?_ h
  · intro k t hk ht
    have hkn : (BitVec.ofNat 32 k).toNat = k := Nat.mod_eq_of_lt (by omega)
    obtain ⟨b, u, hread, rfl, hu⟩ :=
      readRom_total (i := BitVec.ofNat 32 k) ht hkn (by rw [inImage]; omega)
    refine ⟨u, ?_, hu⟩
    rw [checksumPass, if_pos (by rw [BitVec.lt_def, hkn]; exact hk)]
    refine hread.bind (returns_pure.mpr ⟨?_, rfl⟩)
    rw [byteSum_succ, BitVec.ofNat_add, BitVec.ofNat_add, ← BitVec.ofNat_toNat]
    rfl
  · intro t ht
    have hn : (BitVec.ofNat 32 size.toNat) = size := by
      rw [BitVec.ofNat_toNat, BitVec.setWidth_eq]
    refine ⟨BitVec.ofNat 32 (byteSum mem oprom size.toNat), t, ?_, ?_, ht⟩
    · rw [checksumPass, hn, if_neg (BitVec.lt_irrefl size)]
      exact returns_pure.mpr ⟨rfl, rfl⟩
    · have := byteSum_le mem oprom size.toNat
      exact Nat.mod_eq_of_lt (by omega)

theorem inImage_header {i : Nat} (hi : i < 3) : inImage mem oprom i :=
  Nat.lt_of_lt_of_le hi (Nat.le_max_left 3 _)

theorem opromExists_total (h : Reading mem oprom s) :
    Total (opromExists oprom) s fun r t =>
      r = decide (Signature mem oprom) ∧ Reading mem oprom t := by
  refine (readRom_total (n := 0) h rfl (inImage_header (by decide))).bind ?_
  rintro b₀ t ⟨rfl, ht⟩
  by_cases h₀ : romByte mem oprom 0 = 0x55
  · rw [if_neg (not_not_intro h₀)]
    refine (readRom_total (n := 1) ht rfl (inImage_header (by decide))).bind ?_
    rintro b₁ u ⟨rfl, hu⟩
    by_cases h₁ : romByte mem oprom 1 = 0xAA
    · rw [if_neg (not_not_intro h₁)]
      exact total_pure ⟨(decide_eq_true ⟨h₀, h₁⟩).symm, hu⟩
    · rw [if_pos h₁]
      exact total_pure ⟨(decide_eq_false fun hs => h₁ hs.2).symm, hu⟩
  · rw [if_pos h₀]
    exact total_pure ⟨(decide_eq_false fun hs => h₀ hs.1).symm, ht⟩

theorem low_byte_zero_iff (c : U32) : c &&& 0xFF = 0 ↔ c.toNat % 256 = 0 := by
  rw [← BitVec.toNat_inj, BitVec.toNat_and]
  exact iff_of_eq (congrArg (· = 0) (Nat.and_two_pow_sub_one_eq_mod c.toNat 8))

theorem opromChecksumValid_total (h : Reading mem oprom s) :
    Total (opromChecksumValid oprom) s fun r t =>
      r = decide (byteSum mem oprom (imageSize mem oprom) % 256 = 0) ∧ Reading mem oprom t := by
  obtain ⟨hsize, hlimit⟩ := size_toNat mem oprom
  refine (readRom_total (n := 2) h rfl (inImage_header (by decide))).bind ?_
  rintro b₂ t ⟨rfl, ht⟩
  have hnot : ¬ ((romByte mem oprom 2).setWidth 32 * 512 : U32) > 0x40000 := by
    rw [gt_iff_lt, BitVec.lt_def, hsize]
    exact Nat.not_lt.mpr (Nat.le_trans hlimit (by decide))
  show Total (ite _ _ _) t _
  rw [if_neg hnot]
  refine (opromChecksum_total ht (Nat.le_of_eq hsize)).bind ?_
  rintro checksum u ⟨hsum, hu⟩
  rw [hsize] at hsum
  by_cases hzero : checksum &&& 0xFF = 0
  · rw [if_pos hzero]
    rw [low_byte_zero_iff, hsum] at hzero
    exact total_pure ⟨(decide_eq_true hzero).symm, hu⟩
  · rw [if_neg hzero]
    rw [low_byte_zero_iff, hsum] at hzero
    exact total_pure ⟨(decide_eq_false hzero).symm, hu⟩

/-- What the test finds: the signature and the sum. -/
theorem opromValid_total (mem : ByteMem) (oprom : U32) :
    Total (opromValid oprom) ⟨mem, []⟩ fun r t =>
      (r = true ↔ Signature mem oprom ∧ byteSum mem oprom (imageSize mem oprom) % 256 = 0) ∧
        Reading mem oprom t := by
  have start : Reading mem oprom ⟨mem, []⟩ := ⟨rfl, by simp⟩
  refine (opromExists_total start).bind ?_
  rintro r t ⟨rfl, ht⟩
  by_cases hs : Signature mem oprom
  · rw [decide_eq_true hs, if_pos rfl]
    refine (opromChecksumValid_total ht).mono ?_
    rintro r u ⟨rfl, hu⟩
    exact ⟨decide_eq_true_iff.trans (and_iff_right hs).symm, hu⟩
  · rw [decide_eq_false hs, if_neg Bool.false_ne_true]
    exact total_pure ⟨iff_of_false Bool.false_ne_true fun h => hs h.1, ht⟩

/-- A ROM of size 0 passes with its signature alone. -/
theorem byteSum_of_size_zero (h : romByte mem oprom 2 = 0) :
    byteSum mem oprom (imageSize mem oprom) = 0 := by
  rw [imageSize, h]
  rfl

theorem validates_of_size (h : ¬ (Signature mem oprom ∧ romByte mem oprom 2 = 0)) :
    Validates mem oprom where
  decides := by
    refine (opromValid_total mem oprom).mono fun r t ht => ⟨ht.1.trans ?_, ht.2.2⟩
    exact ⟨fun hr => ⟨hr.1, fun hzero => h ⟨hr.1, hzero⟩, hr.2⟩, fun hr => ⟨hr.1, hr.3⟩⟩
  exact := by
    obtain ⟨hsize, -⟩ := size_toNat mem oprom
    refine (opromChecksum_total ⟨rfl, by simp⟩ (Nat.le_of_eq hsize)).mono fun c t hc => ?_
    rw [hc.1, hsize]

theorem not_validates_of_size_zero (hs : Signature mem oprom) (hzero : romByte mem oprom 2 = 0) :
    ¬ Validates mem oprom := by
  intro h
  obtain ⟨r, t, hreturns, hr, -⟩ := opromValid_total mem oprom
  have htrue : r = true := hr.mpr ⟨hs, by rw [byteSum_of_size_zero hzero]⟩
  exact ((h.decides.returns hreturns).1.mp htrue).size hzero

/-- `oprom_valid` tells option ROMs apart exactly where no signature stands in front of the
size 0. -/
theorem oprom_valid_iff (mem : ByteMem) (oprom : U32) :
    Validates mem oprom ↔ ¬ (Signature mem oprom ∧ romByte mem oprom 2 = 0) := by
  constructor
  · exact fun h hbad => not_validates_of_size_zero hbad.1 hbad.2 h
  · exact validates_of_size

/-- The bytes 55 AA 00 at the address of the VGA BIOS. -/
theorem oprom_valid_size_zero : ¬ ∀ mem oprom, Validates mem oprom := by
  intro h
  have hvalid := h (ByteMem.zeros.writeBytes 0xC0000 [0x55, 0xAA]) 0xC0000
  exact not_validates_of_size_zero (by decide) (by decide) hvalid

end MyBios.Oprom
