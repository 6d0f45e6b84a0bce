import MyBios.Lib.Runs
import MyBios.Post.Size

/-!
The scan of memory for regions of RAM (`probeAll`), one pass at a time.

Memory has whole blocks of 1 KB, given by `installed`. The address of a test wraps at
the top of the address space, so a block is seen again `2 ^ 22` blocks further up
(`Seen`). `probeRam` with a stride of 1024 counts the tests that pass, of words that may
lie in two blocks (`Hit`, `Counted`), and `scanPass_hit` and `scanPass_miss` say what
one pass of `probeAll` makes of the count.
-/

namespace MyBios.ProbeAll

open Prog

/-! ### The program -/

/-- The variables of the loop, and the regions that are printed: start and size. -/
structure Scan where
  i : U32
  total : U32
  regions : List (U32 × U32)

section Program

variable {ρ : Type} [Ram ρ]

/-- One pass of `for (u32 i = 0; i < top;)`. -/
def scanPass (stride top : U32) (v : Scan) : Prog ρ (Pass Scan (U32 × List (U32 × U32))) :=
  if v.i < top then do
    let ram ← probeRam v.i 1024
    if 0 < ram then
      return .again ⟨v.i + (ram - ram % stride), v.total + ram, v.regions ++ [(v.i, ram)]⟩
    else return .again ⟨v.i + stride, v.total + ram, v.regions⟩
  else return .done (v.total, v.regions)

/-- `probeAll`, with the regions it prints when `print_message` is set. -/
def probeAll (stride top : U32) : Prog ρ (U32 × List (U32 × U32)) :=
  loop (scanPass stride top) ⟨0, 0, []⟩

end Program

/-! ### Memory of blocks -/

/-- The bytes of the installed blocks hold data, and no others do. -/
def HasBlocks (installed : Nat → Bool) (m : CellMemory) : Prop :=
  ∀ a, (m.cell a).writable = if installed (a.toNat / 1024) then BitVec.allOnes 8 else 0

/-- Block `b` counted on beyond the top of the address space. -/
def Seen (installed : Nat → Bool) (b : Nat) : Prop := installed (b % 2 ^ 22) = true

/-- The word that is tested first from `p` is all RAM. -/
def Hit (installed : Nat → Bool) (p : Nat) : Prop :=
  Seen installed ((p + 1020) / 1024) ∧ Seen installed ((p + 1023) / 1024)

/-- From `p`, the first `n` tests pass. -/
def Counted (installed : Nat → Bool) (p n : Nat) : Prop :=
  (∀ k < n, Hit installed (p + 1024 * k)) ∧ ¬ Hit installed (p + 1024 * n)

section Blocks

variable {installed : Nat → Bool} {m : CellMemory} {p n k j : Nat}

/-- A store does not change what holds data. -/
theorem HasBlocks.write (h : HasBlocks installed m) (i v : U32) :
    HasBlocks installed (Ram.write32 i v m) := by
  intro a
  rw [← h a]
  show (if (a - i).toNat < 4 then (m.cell a).write _ else m.cell a).writable = _
  split <;> rfl

theorem testPoint_ofNat (p k : Nat) :
    testPoint (BitVec.ofNat 32 p) 1024 k = BitVec.ofNat 32 (p + 1020 + 1024 * k) := by
  rw [testPoint, BitVec.ofNat_add, BitVec.ofNat_add, BitVec.ofNat_mul, BitVec.sub_eq_add_neg,
    BitVec.add_assoc (BitVec.ofNat 32 p)]
  rfl

/-- The byte `j` of the word at `x` is in the block where `x + j` is seen. -/
theorem block_ofNat (x j : Nat) :
    (BitVec.ofNat 32 x + BitVec.ofNat 32 j).toNat / 1024 = (x + j) / 1024 % 2 ^ 22 := by
  rw [← BitVec.ofNat_add, BitVec.toNat_ofNat]
  omega

/-- A word is good when its bytes are. -/
theorem good_iff_bytes (h : HasBlocks installed m) (i : U32) :
    Good m i ↔ ∀ j < 4, installed ((i + BitVec.ofNat 32 j).toNat / 1024) = true := by
  constructor
  · intro hgood j hj
    have hbyte : (m.cell (i + BitVec.ofNat 32 j)).writable = BitVec.allOnes 8 := by
      have hget := congrArg (Lane.get 8 (j * 8)) hgood
      rw [CellMemory.writable, Lane.get_gather hj] at hget
      rw [hget]
      apply BitVec.eq_of_getLsbD_eq
      intro l hl
      rw [Lane.getLsbD_get, BitVec.getLsbD_allOnes, BitVec.getLsbD_allOnes]
      have hlane : j * 8 + l < 32 := by omega
      rw [decide_eq_true hl, decide_eq_true hlane, Bool.true_and]
    by_contra hnot
    rw [h, if_neg hnot] at hbyte
    exact absurd hbyte (by decide)
  · intro hall
    have hgather : CellMemory.writable 4 i m = Lane.gather 4 fun _ => BitVec.allOnes 8 :=
      Lane.gather_congr fun j hj => by rw [h, if_pos (hall j hj)]
    rw [Good, hgather]
    decide

/-- The word of test `k` is in the blocks of its first and last byte. -/
theorem good_iff_hit (h : HasBlocks installed m) (p k : Nat) :
    Good m (testPoint (BitVec.ofNat 32 p) 1024 k) ↔ Hit installed (p + 1024 * k) := by
  rw [good_iff_bytes h, testPoint_ofNat]
  simp only [block_ofNat]
  constructor
  · intro hall
    refine ⟨?_, ?_⟩
    · have hfirst := hall 0 (by decide)
      rwa [show p + 1020 + 1024 * k + 0 = p + 1024 * k + 1020 by omega] at hfirst
    · have hlast := hall 3 (by decide)
      rwa [show p + 1020 + 1024 * k + 3 = p + 1024 * k + 1023 by omega] at hlast
  · rintro ⟨hfirst, hlast⟩ j hj
    have hblock : (p + 1020 + 1024 * k + j) / 1024 = (p + 1024 * k + 1020) / 1024 ∨
        (p + 1020 + 1024 * k + j) / 1024 = (p + 1024 * k + 1023) / 1024 := by omega
    rcases hblock with hblock | hblock
    · rw [hblock]
      exact hfirst
    · rw [hblock]
      exact hlast

/-- No good word begins in the last byte of the address space. -/
theorem Hit.inRange (hlast : installed (2 ^ 22 - 1) = false) (h : Hit installed (p + 1024 * k)) :
    testPoint (BitVec.ofNat 32 p) 1024 k < 0xffffffff := by
  rw [testPoint_ofNat, BitVec.lt_def, BitVec.toNat_ofNat]
  show (p + 1020 + 1024 * k) % 2 ^ 32 < 0xffffffff
  by_contra hnot
  have hblock : (p + 1024 * k + 1020) / 1024 % 2 ^ 22 = 2 ^ 22 - 1 := by omega
  have hfirst := h.1
  rw [Seen, hblock, hlast] at hfirst
  exact absurd hfirst (by decide)

/-- Some test fails within one round of the address space. -/
theorem exists_counted (hlast : installed (2 ^ 22 - 1) = false) (p : Nat) :
    ∃ n < 2 ^ 22, Counted installed p n := by
  have hfails : ∃ k < 2 ^ 22, ¬ Hit installed (p + 1024 * k) := by
    refine ⟨2 ^ 22 - 1 - (p + 1023) / 1024 % 2 ^ 22, by omega, fun hhit => ?_⟩
    have hblock : (p + 1024 * (2 ^ 22 - 1 - (p + 1023) / 1024 % 2 ^ 22) + 1023) / 1024 % 2 ^ 22 =
        2 ^ 22 - 1 := by omega
    have hsecond := hhit.2
    rw [Seen, hblock, hlast] at hsecond
    exact absurd hsecond (by decide)
  classical
  have hfirst : ∃ k, ¬ Hit installed (p + 1024 * k) :=
    hfails.elim fun k hk => ⟨k, hk.2⟩
  obtain ⟨k, hk, hkfails⟩ := hfails
  refine ⟨Nat.find hfirst, Nat.lt_of_le_of_lt (Nat.find_min' hfirst hkfails) hk,
    fun j hj => ?_, Nat.find_spec hfirst⟩
  exact not_not.mp (Nat.find_min hfirst hj)

/-- `probeRam` returns 1 KB for every test that passes. -/
theorem probeRam_counted (hlast : installed (2 ^ 22 - 1) = false) (h : HasBlocks installed m)
    (hcounted : Counted installed p n) :
    Total (probeRam (BitVec.ofNat 32 p) 1024) m fun bytes t =>
      bytes = BitVec.ofNat 32 (1024 * n) ∧ HasBlocks installed t := by
  have total : Total (loop (probePass (BitVec.ofNat 32 p) 1024)
      (testPoint (BitVec.ofNat 32 p) 1024 0, 1024 * BitVec.ofNat 32 0)) m fun bytes t =>
        bytes = 1024 * BitVec.ofNat 32 n ∧ HasBlocks installed t := by
    refine Total.loop_counted (I := fun _ t => HasBlocks installed t) (n := n)
      (b := fun k => (testPoint (BitVec.ofNat 32 p) 1024 k, 1024 * BitVec.ofNat 32 k)) ?_ ?_ h
    · intro k t hk ht
      have hhit := hcounted.1 k hk
      refine ⟨t, ?_, ht⟩
      rw [probePass_eq, if_pos (hhit.inRange hlast), testPoint_found, ← testPoint_succ]
      exact samplePass_good ((good_iff_hit ht p k).mpr hhit)
    · intro t ht
      have hfaulty := mt (good_iff_hit ht p n).mp hcounted.2
      rw [probePass_eq]
      split
      · exact ⟨_, _, samplePass_faulty _ _ hfaulty, rfl, ht.write _ _⟩
      · exact ⟨_, t, returns_pure.mpr ⟨rfl, rfl⟩, rfl, ht⟩
  rw [testPoint, BitVec.mul_zero, BitVec.add_zero] at total
  refine total.mono fun bytes t ht => ⟨ht.1.trans ?_, ht.2⟩
  rw [BitVec.ofNat_mul]
  rfl

/-! ### One pass -/

variable {stride top total : U32} {regions : List (U32 × U32)}

/-- A pass keeps the regions that are found. -/
theorem scanPass_again {v v' : Scan} {t : CellMemory}
    (h : (scanPass stride top v).Returns m (.again v') t) : v.regions <+: v'.regions := by
  rw [scanPass] at h
  split at h
  · obtain ⟨ram, u, -, h⟩ := returns_bind.mp h
    split at h
    · cases (returns_pure.mp h).1
      exact List.prefix_append _ _
    · cases (returns_pure.mp h).1
      exact List.prefix_refl _
  · exact absurd (returns_pure.mp h).1 (by simp)

theorem scanPass_done {v : Scan} {r : U32 × List (U32 × U32)} {t : CellMemory}
    (h : (scanPass stride top v).Returns m (.done r) t) : r = (v.total, v.regions) := by
  rw [scanPass] at h
  split at h
  · obtain ⟨ram, u, -, h⟩ := returns_bind.mp h
    split at h <;> exact absurd (returns_pure.mp h).1 (by simp)
  · cases (returns_pure.mp h).1
    rfl

theorem ofNat_lt (hp : p < top.toNat) : BitVec.ofNat 32 p < top := by
  rw [BitVec.lt_def, BitVec.toNat_ofNat, Nat.mod_eq_of_lt (Nat.lt_trans hp top.isLt)]
  exact hp

/-- Nothing is found: on to the next multiple of the stride. -/
theorem scanPass_miss (hlast : installed (2 ^ 22 - 1) = false) (h : HasBlocks installed m)
    (hp : p < top.toNat) (hmiss : ¬ Hit installed p) :
    ∃ t, (scanPass stride top ⟨BitVec.ofNat 32 p, total, regions⟩).Returns m
      (.again ⟨BitVec.ofNat 32 (p + stride.toNat), total, regions⟩) t ∧ HasBlocks installed t := by
  have hcounted : Counted installed p 0 := ⟨fun k hk => absurd hk (Nat.not_lt_zero k), hmiss⟩
  obtain ⟨_, t, hprobe, rfl, ht⟩ := probeRam_counted hlast h hcounted
  refine ⟨t, ?_, ht⟩
  rw [scanPass, if_pos (ofNat_lt hp), hprobe.bind_iff, BitVec.ofNat_add, BitVec.ofNat_toNat,
    BitVec.setWidth_eq]
  simp

/-- Something is found: on by its size, rounded down to a multiple of the stride. -/
theorem scanPass_hit (hlast : installed (2 ^ 22 - 1) = false) (h : HasBlocks installed m)
    (hp : p < top.toNat) (hcounted : Counted installed p n) (hpos : 0 < n) (hn : n < 2 ^ 22) :
    ∃ t, (scanPass stride top ⟨BitVec.ofNat 32 p, total, regions⟩).Returns m
      (.again ⟨BitVec.ofNat 32 (p + 1024 * n / stride.toNat * stride.toNat),
        total + BitVec.ofNat 32 (1024 * n),
        regions ++ [(BitVec.ofNat 32 p, BitVec.ofNat 32 (1024 * n))]⟩) t ∧
        HasBlocks installed t := by
  obtain ⟨_, t, hprobe, rfl, ht⟩ := probeRam_counted hlast h hcounted
  have hsize : (BitVec.ofNat 32 (1024 * n)).toNat = 1024 * n := by
    rw [BitVec.toNat_ofNat, Nat.mod_eq_of_lt (by omega)]
  have hfound : (0 : U32) < BitVec.ofNat 32 (1024 * n) := by
    rw [BitVec.lt_def, hsize]
    exact Nat.mul_pos (by decide) hpos
  have hstep : BitVec.ofNat 32 (1024 * n) - BitVec.ofNat 32 (1024 * n) % stride =
      BitVec.ofNat 32 (1024 * n / stride.toNat * stride.toNat) := by
    have hlt : 1024 * n / stride.toNat * stride.toNat < 2 ^ 32 :=
      Nat.lt_of_le_of_lt (Nat.div_mul_le_self _ _) (by omega)
    have hle : BitVec.ofNat 32 (1024 * n) % stride ≤ BitVec.ofNat 32 (1024 * n) := by
      rw [BitVec.le_def, BitVec.toNat_umod]
      exact Nat.mod_le _ _
    apply BitVec.eq_of_toNat_eq
    rw [BitVec.toNat_sub_of_le hle, BitVec.toNat_umod, hsize, BitVec.toNat_ofNat,
      Nat.mod_eq_of_lt hlt]
    exact Nat.sub_eq_of_eq_add (Nat.div_add_mod' (1024 * n) stride.toNat).symm
  refine ⟨t, ?_, ht⟩
  rw [scanPass, if_pos (ofNat_lt hp), hprobe.bind_iff, if_pos hfound, hstep, BitVec.ofNat_add]
  exact returns_pure.mpr ⟨rfl, rfl⟩

end Blocks

end MyBios.ProbeAll
