import MyBios.Post.Size

/-!
How long `probeRam` goes on, in memory of any behaviour.

The tested words are 4 below a multiple of the stride, so the address never
equals the `end` that it is compared with, and it wraps at the top of the address
space. Only a word that does not read back ends the loop. `probeRam_ends_iff`:
the loop ends in time and stays above its start exactly when such a word comes
before the address wraps.
-/

namespace MyBios

open Prog

section Memory

variable {ρ : Type} [Ram ρ]

/-- Both patterns read back from the word. -/
def ReadsBack (i : U32) (s : ρ) : Prop :=
  Ram.read32 i (Ram.write32 i pattern₁ s) = pattern₁ ∧
    Ram.read32 i (Ram.write32 i pattern₂ (Ram.write32 i pattern₁ s)) = pattern₂

instance {i : U32} {s : ρ} : Decidable (ReadsBack i s) := inferInstanceAs (Decidable (_ ∧ _))

/-- The memory after a word has passed its test. -/
def tested (i : U32) (s : ρ) : ρ :=
  Ram.write32 i (Ram.read32 i s) (Ram.write32 i pattern₂ (Ram.write32 i pattern₁ s))

/-- The memory after the first `k` words have passed. -/
def afterTests (start stride : U32) (s : ρ) : Nat → ρ
  | 0 => s
  | k + 1 => tested (testPoint start stride k) (afterTests start stride s k)

/-- Probe `n`, from zero, is of the word `i`. -/
def Probes (start stride : U32) (s : ρ) (n : Nat) (i : U32) : Prop :=
  i < 0xffffffff ∧
    ∃ found t, Rounds (probePass start stride) (start + stride - 4, 0) s n (i, found) t

/-- The call returns, after at most as many probes as there are blocks in the address space,
none of them below the start. -/
structure EndsInTime (start stride : U32) (s : ρ) : Prop where
  returns : ∃ bytes t, (probeRam start stride).Returns s bytes t
  few : ∀ n i, Probes start stride s n i → n < (2 ^ 32 + stride.toNat - 1) / stride.toNat
  above : ∀ n i, Probes start stride s n i → start ≤ i

/-! ### One probe -/

variable {β γ : Type} {start stride i : U32} {s t : ρ} {next b : β} {failed : γ} {k n : Nat}

theorem samplePass_again_iff : (samplePass i next failed).Returns s (.again b) t ↔
    ReadsBack i s ∧ b = next ∧ t = tested i s := by
  by_cases hfirst : Ram.read32 i (Ram.write32 i pattern₁ s) = pattern₁
  · by_cases hsecond : Ram.read32 i (Ram.write32 i pattern₂ (Ram.write32 i pattern₁ s)) = pattern₂
    · simp [samplePass, ReadsBack, tested, hfirst, hsecond]
    · simp [samplePass, ReadsBack, hfirst, hsecond]
  · simp [samplePass, ReadsBack, hfirst]

theorem samplePass_done (next : β) (failed : γ) (h : ¬ ReadsBack i s) :
    ∃ t, (samplePass i next failed).Returns s (.done failed) t := by
  by_cases hfirst : Ram.read32 i (Ram.write32 i pattern₁ s) = pattern₁
  · have hsecond : ¬ Ram.read32 i (Ram.write32 i pattern₂ (Ram.write32 i pattern₁ s)) =
        pattern₂ := fun hsecond => h ⟨hfirst, hsecond⟩
    refine ⟨Ram.write32 i pattern₂ (Ram.write32 i pattern₁ s), ?_⟩
    simp [samplePass, hfirst, hsecond]
  · refine ⟨Ram.write32 i pattern₁ s, ?_⟩
    simp [samplePass, hfirst]

/-! ### The addresses -/

/-- A start and a stride that a caller passes. -/
structure Called (start stride : U32) : Prop where
  start : start = 0 ∨ start = 0x100000
  stride : stride = 0x400 ∨ stride = 0x1000 ∨ stride = 0x8000

/-- The number of blocks from the start to the top of the address space. -/
def blocksAbove (start stride : U32) : Nat := (2 ^ 32 - start.toNat) / stride.toNat

theorem testPoint_toNat (positive : 0 < stride.toNat) (multiple : 4 ∣ stride.toNat) :
    (testPoint start stride k).toNat = (start.toNat + stride.toNat * (k + 1) - 4) % 2 ^ 32 := by
  obtain ⟨j, hj⟩ := lastWord positive multiple k
  rw [testPoint_word hj, BitVec.toNat_add, BitVec.toNat_ofNat, Nat.add_mod_mod, ← hj]
  rfl

/-- The blocks are whole, and fill the address space from the start on. -/
theorem Called.whole (called : Called start stride) :
    4 ∣ start.toNat ∧ 4 ∣ stride.toNat ∧ 0 < stride.toNat ∧
      start.toNat + stride.toNat * blocksAbove start stride = 2 ^ 32 := by
  rcases called with ⟨rfl | rfl, rfl | rfl | rfl⟩ <;> decide

/-- There are no more of them than in the whole address space, and as many only from 0. -/
theorem Called.blocksAbove_le (called : Called start stride) :
    blocksAbove start stride ≤ (2 ^ 32 + stride.toNat - 1) / stride.toNat ∧
      (blocksAbove start stride < (2 ^ 32 + stride.toNat - 1) / stride.toNat →
        stride.toNat ≤ start.toNat) := by
  rcases called with ⟨rfl | rfl, rfl | rfl | rfl⟩ <;> decide

/-- No tested word is at `end`. -/
theorem Called.inRange (called : Called start stride) (k : Nat) :
    testPoint start stride k < 0xffffffff := by
  obtain ⟨hstart, hstride, hpos, -⟩ := called.whole
  obtain ⟨j, hj⟩ := lastWord hpos hstride k
  show (testPoint start stride k).toNat < 0xffffffff
  rw [testPoint_toNat hpos hstride]
  omega

/-- The words of the blocks above the start are above it. -/
theorem Called.start_le (called : Called start stride) (hk : k < blocksAbove start stride) :
    start ≤ testPoint start stride k := by
  obtain ⟨-, hstride, hpos, hfill⟩ := called.whole
  have hblock : stride.toNat * (k + 1) ≤ stride.toNat * blocksAbove start stride :=
    Nat.mul_le_mul_left _ hk
  obtain ⟨j, hj⟩ := lastWord hpos hstride k
  show start.toNat ≤ (testPoint start stride k).toNat
  rw [testPoint_toNat hpos hstride]
  omega

/-- After them comes the last word of the first block of the address space. -/
theorem Called.wraps (called : Called start stride) :
    (testPoint start stride (blocksAbove start stride)).toNat = stride.toNat - 4 := by
  obtain ⟨-, hstride, hpos, hfill⟩ := called.whole
  have hlt := stride.isLt
  rw [testPoint_toNat hpos hstride, Nat.mul_succ]
  omega

/-! ### The loop -/

/-- After `n` probes that read back. -/
theorem probe_rounds_iff (called : Called start stride) {b : U32 × U32} :
    Rounds (probePass start stride) (start + stride - 4, 0) s n b t ↔
      (∀ k < n, ReadsBack (testPoint start stride k) (afterTests start stride s k)) ∧
        b = (testPoint start stride n, stride * BitVec.ofNat 32 n) ∧
        t = afterTests start stride s n := by
  have step : ∀ k b' u, (probePass start stride (testPoint start stride k,
      stride * BitVec.ofNat 32 k)).Returns (afterTests start stride s k) (.again b') u ↔
        ReadsBack (testPoint start stride k) (afterTests start stride s k) ∧
          b' = (testPoint start stride (k + 1), stride * BitVec.ofNat 32 (k + 1)) ∧
          u = afterTests start stride s (k + 1) := by
    intro k b' u
    rw [probePass_eq, if_pos (called.inRange k), testPoint_found, ← testPoint_succ]
    exact samplePass_again_iff
  have rounds : Rounds (probePass start stride) (testPoint start stride 0,
      stride * BitVec.ofNat 32 0) s n b t ↔ _ :=
    rounds_iff (fun k => (testPoint start stride k, stride * BitVec.ofNat 32 k))
      (afterTests start stride s) _ step
  rwa [testPoint, BitVec.mul_zero, BitVec.add_zero] at rounds

theorem probes_iff (called : Called start stride) : Probes start stride s n i ↔
    (∀ k < n, ReadsBack (testPoint start stride k) (afterTests start stride s k)) ∧
      i = testPoint start stride n := by
  constructor
  · rintro ⟨-, found, t, rounds⟩
    obtain ⟨hpass, hb, -⟩ := (probe_rounds_iff called).mp rounds
    exact ⟨hpass, (Prod.mk.inj hb).1⟩
  · rintro ⟨hpass, rfl⟩
    exact ⟨called.inRange n, _, _, (probe_rounds_iff called).mpr ⟨hpass, rfl, rfl⟩⟩

/-- A word that does not read back ends the loop, at the latest. -/
theorem probeRam_returns (called : Called start stride)
    (h : ¬ ReadsBack (testPoint start stride k) (afterTests start stride s k)) :
    ∃ bytes t, (probeRam start stride).Returns s bytes t := by
  induction k using Nat.strongRecOn with
  | ind k ih =>
      by_cases hbefore : ∀ j < k,
          ReadsBack (testPoint start stride j) (afterTests start stride s j)
      · have rounds := (probe_rounds_iff called).mpr ⟨hbefore, rfl, rfl⟩
        obtain ⟨t, hlast⟩ := samplePass_done
          (testPoint start stride (k + 1), stride * BitVec.ofNat 32 (k + 1))
          (stride * BitVec.ofNat 32 k) h
        refine ⟨stride * BitVec.ofNat 32 k, t, rounds.returns ?_⟩
        rw [probePass_eq, if_pos (called.inRange k), testPoint_found, ← testPoint_succ]
        exact hlast
      · simp only [not_forall] at hbefore
        obtain ⟨j, hj, hfails⟩ := hbefore
        exact ih j hj hfails

/-- Where every block reads back, the loop goes round the address space. -/
theorem not_endsInTime (called : Called start stride) (h : ∀ k < blocksAbove start stride,
    ReadsBack (testPoint start stride k) (afterTests start stride s k)) :
    ¬ EndsInTime start stride s := by
  intro ends
  have probes := (probes_iff called).mpr ⟨h, rfl⟩
  have hbelow := called.blocksAbove_le.2 (ends.few _ _ probes)
  have habove : start.toNat ≤ (testPoint start stride (blocksAbove start stride)).toNat :=
    ends.above _ _ probes
  obtain ⟨-, -, hpos, -⟩ := called.whole
  rw [called.wraps] at habove
  omega

/-- A call ends in time and stays above its start exactly when one of the words it tests
before the address wraps does not read back, in the memory as the tests before leave it. -/
theorem probeRam_ends_iff (called : Called start stride) (s : ρ) :
    EndsInTime start stride s ↔ ∃ k < blocksAbove start stride,
      ¬ ReadsBack (testPoint start stride k) (afterTests start stride s k) := by
  constructor
  · intro ends
    by_contra hnone
    simp only [not_exists, not_and, not_not] at hnone
    exact not_endsInTime called hnone ends
  · rintro ⟨k, hk, hfails⟩
    have hfew : ∀ n i, Probes start stride s n i →
        n < blocksAbove start stride ∧ i = testPoint start stride n := by
      intro n i probes
      obtain ⟨hpass, hi⟩ := (probes_iff called).mp probes
      have hn : n ≤ k := Nat.le_of_not_lt fun hn => hfails (hpass k hn)
      exact ⟨Nat.lt_of_le_of_lt hn hk, hi⟩
    refine ⟨probeRam_returns called hfails, fun n i probes => ?_, fun n i probes => ?_⟩
    · exact Nat.lt_of_lt_of_le (hfew n i probes).1 called.blocksAbove_le.1
    · obtain ⟨hn, rfl⟩ := hfew n i probes
      exact called.start_le hn

end Memory

/-- A single block at 1 MB. -/
theorem probeRam_ends_iff_block : EndsInTime 0x100000 0x400 (ramOf 0x100000 0x400) :=
  (probeRam_ends_iff ⟨.inr rfl, .inl rfl⟩ _).mpr ⟨1, by decide, by decide⟩

/-! ### A full address space -/

theorem afterTests_good {m : CellMemory} {start stride : U32} {n : Nat}
    (good : ∀ k < n, Good m (testPoint start stride k)) : afterTests start stride m n = m := by
  induction n with
  | zero => rfl
  | succ n ih =>
      have hpass : (samplePass (testPoint start stride n) () ()).Returns m (.again ()) m :=
        samplePass_good (good n (Nat.lt_succ_self n))
      rw [afterTests, ih fun k hk => good k (Nat.lt_succ_of_lt hk)]
      exact (samplePass_again_iff.mp hpass).2.2.symm

/-- 4 GB of memory are probed for ever. -/
theorem probeRam_unbounded : ¬ ∀ (m : CellMemory) (start stride : U32), Called start stride →
    EndsInTime start stride m := by
  intro h
  have called : Called 0 0x400 := ⟨.inl rfl, .inl rfl⟩
  obtain ⟨-, hstride, hpos, hfill⟩ := called.whole
  have good : ∀ k < blocksAbove 0 0x400, Good (ramOf 0 (2 ^ 32)) (testPoint 0 0x400 k) := by
    intro k hk
    have hblock : (0x400 : U32).toNat * (k + 1) ≤ (0x400 : U32).toNat * blocksAbove 0 0x400 :=
      Nat.mul_le_mul_left _ hk
    obtain ⟨j, hj⟩ := lastWord hpos hstride k
    rw [testPoint_word hj]
    exact good_inside (fun _ => rfl) (by omega) (by omega)
  refine not_endsInTime called (fun k hk => ?_) (h (ramOf 0 (2 ^ 32)) 0 0x400 called)
  rw [afterTests_good fun j hj => good j (Nat.lt_trans hj hk)]
  exact good_iff.mp (good k hk)

end MyBios
