import MyBios.Chipset.Dram
import MyBios.Lib.Best

/-!
Choosing the DRAM configuration (`chipset_init` of `chipsets/um82c480.c`,
`detectDramConfig` of `chipsets/sis8c460.c`).

Both drivers try all configurations and keep the first of those with the most
memory, among those that do not mirror. They differ in what they check.

* The UM82C480 driver skips configurations under which a byte of low memory does
  not keep a value, and compares amounts of memory as `int`.
* The SiS driver hands the amount of memory to `detectMirroring`, which takes it
  for the end of the memory: the points in the last megabyte are not checked.

`Um82c480.selects_iff` and `Sis8c460.selects_iff` say under which controllers what
is selected is what should be.
-/

namespace MyBios.Dram

open Prog Board

namespace DramController

variable {κ : Type}

/-- What should be selected among the first `n` configurations: the fallback, or one
under which no two points of the memory alias, and none of these that also `passes`
has more memory. -/
structure SelectsWell (ctl : DramController κ) (n : Nat) (passes : U8 → Prop)
    (fallback best : U8) : Prop where
  clear : best = fallback ∨ ctl.Distinct best (0x100000 + ctl.ram best)
  most : ∀ k < n, passes (BitVec.ofNat 8 k) →
    ctl.Distinct (BitVec.ofNat 8 k) (0x100000 + ctl.ram (BitVec.ofNat 8 k)) →
      ctl.ram (BitVec.ofNat 8 k) ≤ ctl.ram best

variable {ctl : DramController κ} {c : U8} {k limit limit' : Nat}

theorem Distinct.mono (h : ctl.Distinct c limit') (hle : limit ≤ limit') :
    ctl.Distinct c limit :=
  fun k hk => h k (Nat.lt_of_lt_of_le hk hle)

theorem ram_lt (h : ctl.ram c < 2 ^ 32) : ctl.row c < 0x20000 := by
  rw [ram] at h
  omega

/-- A point of the memory is in a block that holds data. -/
theorem holds_point (h : 0x80000 * k < ctl.ram c) : ctl.holds c (block (point k)) = true := by
  have hblock : block (point k) = (32 + 16 * k) % 0x20000 := by
    rw [block, point_toNat]
    omega
  rw [ram] at h
  rw [hblock]
  exact row_holds (by omega)

end DramController

/-! ### Keeping the best configuration -/

/-- The configuration that stands for the best candidate. -/
def chosen (fallback : U8) : Option Nat → U8
  | none => fallback
  | some k => BitVec.ofNat 8 k

section Tracks

variable {r : U8} {κ : Type} {ctl : DramController κ} {good : Nat → Prop} {fallback : U8} {k : Nat}

/-- The variables of a loop after `k` configurations: the next one, the best one so far
and its memory. -/
structure Tracks (ctl : DramController κ) (good : Nat → Prop) (fallback : U8) (k : Nat)
    (vars : U8 × U8 × U32) (s : Board r κ) : Prop where
  controller : s.controller = ctl
  config : vars.1 = BitVec.ofNat 8 k
  best : ∃ o, Best good (fun k => ctl.ram (BitVec.ofNat 8 k)) 0 k o ∧
    vars.2.1 = chosen fallback o ∧
      vars.2.2.toNat = Best.worth (fun k => ctl.ram (BitVec.ofNat 8 k)) 0 o

variable {best : U8} {most ram : U32} {s t : Board r κ}

theorem Tracks.init (hs : s.controller = ctl) : Tracks ctl good fallback 0 (0, fallback, 0) s :=
  ⟨hs, rfl, none, Best.zero, rfl, rfl⟩

/-- The configuration is not taken. -/
theorem Tracks.keep (h : Tracks ctl good fallback k (BitVec.ofNat 8 k, best, most) s)
    (ht : t.controller = ctl) (hless : good k → ctl.ram (BitVec.ofNat 8 k) ≤ most.toNat) :
    Tracks ctl good fallback (k + 1) (BitVec.ofNat 8 k + 1, best, most) t := by
  obtain ⟨o, hbest, hchosen, hworth⟩ := h.best
  refine ⟨ht, (BitVec.ofNat_add k 1).symm, o, hbest.keep fun hgood => ?_, hchosen, hworth⟩
  exact Nat.le_trans (hless hgood) (Nat.le_of_eq hworth)

/-- The configuration is taken. -/
theorem Tracks.take (h : Tracks ctl good fallback k (BitVec.ofNat 8 k, best, most) s)
    (ht : t.controller = ctl) (hgood : good k) (hram : ram.toNat = ctl.ram (BitVec.ofNat 8 k))
    (hmore : most.toNat < ram.toNat) :
    Tracks ctl good fallback (k + 1) (BitVec.ofNat 8 k + 1, BitVec.ofNat 8 k, ram) t := by
  obtain ⟨o, hbest, -, hworth⟩ := h.best
  refine ⟨ht, (BitVec.ofNat_add k 1).symm, some k, hbest.take hgood ?_, rfl, hram⟩
  rw [← hworth, ← hram]
  exact hmore

theorem outIndexed_configured {c : U8} (hs : s.controller = ctl) :
    Configured ctl c (outIndexed r c s) :=
  ⟨hs, Function.update_self ..⟩

end Tracks

/-! ### The UM82C480 -/

namespace Um82c480

section Driver

variable {κ : Type}

def writeReg480 (reg v : U8) : Prog (Board 0x9A κ) Unit := modify (outIndexed reg v)

variable [DecidableEq κ]

/-- One pass of the loop in `chipset_init`. -/
def tryConfig : U8 × U8 × U32 → Prog (Board 0x9A κ) (U8 × U8 × U32)
  | (config, bestConfig, bestMemCount) => do
    writeReg480 0x9A config
    modify (Ram.write8 0x1000 0x55)
    let test ← gets (Ram.read8 0x1000)
    if test ≠ 0x55 then do
      writeReg480 0x9A bestConfig
      return (config + 1, bestConfig, bestMemCount)
    else do
      let mem ← probeRam 0x100000 0x1000
      if bestMemCount.slt mem then do
        let mirrored ← detectMirroring (mem + 0x100000)
        if mirrored then return (config + 1, bestConfig, bestMemCount)
        else return (config + 1, config, mem)
      else return (config + 1, bestConfig, bestMemCount)

/-- `chipset_init` up to the choice of the configuration. -/
def chipsetInit : Prog (Board 0x9A κ) Unit := do
  let vars ← repeatN tryConfig 0x10 (0, 1, 0)
  writeReg480 0x9A vars.2.1

end Driver

section Choice

variable {κ : Type}

/-- The byte that is stored at `0x1000` is read back. -/
def Passes (ctl : DramController κ) (c : U8) : Prop :=
  ctl.holds c 0 ∨ (ctl.floating c 0x400).setWidth 8 = (0x55 : U8)

/-- What the driver looks for. -/
def Good (ctl : DramController κ) (k : Nat) : Prop :=
  Passes ctl (BitVec.ofNat 8 k) ∧ ctl.ram (BitVec.ofNat 8 k) < 2 ^ 31 ∧
    ctl.Distinct (BitVec.ofNat 8 k) (0x100000 + ctl.ram (BitVec.ofNat 8 k))

/-- The probe of the configuration comes to an end, or is skipped. -/
def Ends (ctl : DramController κ) (k : Nat) : Prop :=
  Passes ctl (BitVec.ofNat 8 k) → ctl.ram (BitVec.ofNat 8 k) < 2 ^ 32

theorem slt_iff {most mem : U32} (h : most.toNat < 2 ^ 31) :
    most.slt mem ↔ mem.toNat < 2 ^ 31 ∧ most.toNat < mem.toNat := by
  rw [BitVec.slt_iff_toInt_lt, BitVec.toInt_eq_toNat_cond, BitVec.toInt_eq_toNat_cond]
  have := mem.isLt
  split <;> split <;> omega

variable {ctl : DramController κ} {k : Nat} {c : U8} {s : Board 0x9A κ} {vars : U8 × U8 × U32}

/-- The best amount so far is not negative as an `int`. -/
theorem most_lt {fallback : U8} (h : Tracks ctl (Good ctl) fallback k vars s) :
    vars.2.2.toNat < 2 ^ 31 := by
  obtain ⟨o, hbest, -, hworth⟩ := h.best
  rw [hworth]
  cases o with
  | none => exact Nat.two_pow_pos 31
  | some b => exact hbest.2.1.2.1

variable [DecidableEq κ]

theorem read_test (hs : Configured ctl c s) :
    Ram.read8 0x1000 (Ram.write8 0x1000 0x55 s) = 0x55 ↔ Passes ctl c := by
  change (readDword 0x1000 (writeDword 0x1000 _ s) >>> (0 * 8)).setWidth 8 = (0x55 : U8) ↔ _
  by_cases hold : ctl.holds c (block 0x1000)
  · refine iff_of_true ?_ (Or.inl hold)
    rw [hs.read_same hold hold rfl rfl]
    exact Lane.get_set (by omega)
  · rw [hs.write.read_floating hold]
    exact ⟨Or.inr, fun h => h.resolve_left hold⟩

theorem tryConfig_total (hends : Ends ctl k) (h : Tracks ctl (Good ctl) 1 k vars s) :
    Total (tryConfig vars) s (Tracks ctl (Good ctl) 1 (k + 1)) := by
  obtain ⟨config, best, most⟩ := vars
  obtain rfl : config = BitVec.ofNat 8 k := h.config
  have hmost := most_lt h
  have ht : Configured ctl (BitVec.ofNat 8 k) (outIndexed 0x9A (BitVec.ofNat 8 k) s) :=
    outIndexed_configured h.controller
  have htest := read_test ht
  refine Total.modify_bind (Total.modify_bind (Total.gets_bind ?_))
  by_cases hpasses : Passes ctl (BitVec.ofNat 8 k)
  · rw [if_neg (not_not.mpr (htest.mpr hpasses))]
    have hrow := DramController.ram_lt (hends hpasses)
    refine Total.bind (probeRam_ram divides_4k ht.write hrow) ?_
    rintro mem v ⟨hmem, hv⟩
    by_cases hslt : most.slt mem
    · obtain ⟨hsmall, hmore⟩ := (slt_iff hmost).mp hslt
      have hsize : (mem + 0x100000).toNat = 0x100000 + ctl.ram (BitVec.ofNat 8 k) := by
        rw [BitVec.toNat_add, ← hmem]
        change (mem.toNat + 0x100000) % 2 ^ 32 = _
        omega
      rw [if_pos hslt]
      refine Total.bind (detectMirroring_total hv (by omega) fun j hj => ?_) ?_
      · rw [hsize, lt_points] at hj
        exact DramController.holds_point (by omega)
      · rintro mirrored w ⟨hmirrored, hw⟩
        rw [hsize] at hmirrored
        by_cases hm : mirrored = true
        · rw [if_pos hm]
          refine total_pure (h.keep hw.1 ?_)
          intro hgood
          rw [hmirrored.mpr hgood.2.2] at hm
          exact nomatch hm
        · rw [if_neg hm]
          have hdistinct := hmirrored.mp (Bool.eq_false_of_not_eq_true hm)
          exact total_pure (h.take hw.1 ⟨hpasses, hmem ▸ hsmall, hdistinct⟩ hmem hmore)
    · rw [if_neg hslt]
      refine total_pure (h.keep hv.1 ?_)
      intro hgood
      rw [slt_iff hmost, hmem] at hslt
      exact Nat.not_lt.mp fun hlt => hslt ⟨hgood.2.1, hlt⟩
  · rw [if_pos (mt htest.mp hpasses)]
    refine Total.modify_bind (total_pure (h.keep ht.write.1 ?_))
    intro hgood
    exact absurd hgood.1 hpasses

theorem not_returns_tryConfig (hends : ¬ Ends ctl k)
    (h : Tracks ctl (Good ctl) 1 k vars s) {vars' : U8 × U8 × U32} {t : Board 0x9A κ} :
    ¬ (tryConfig vars).Returns s vars' t := by
  obtain ⟨config, best, most⟩ := vars
  obtain rfl : config = BitVec.ofNat 8 k := h.config
  obtain ⟨hpasses, hram⟩ := Classical.not_imp.mp hends
  have ht : Configured ctl (BitVec.ofNat 8 k) (outIndexed 0x9A (BitVec.ofNat 8 k) s) :=
    outIndexed_configured h.controller
  have htest := (read_test ht).mpr hpasses
  have hrow : ¬ ctl.row (BitVec.ofNat 8 k) < 0x20000 := by
    rw [DramController.ram] at hram
    omega
  intro hrun
  obtain ⟨_, _, hwrite, hrun⟩ := returns_bind.mp hrun
  cases returns_modify.mp hwrite
  obtain ⟨_, _, hwrite, hrun⟩ := returns_bind.mp hrun
  cases returns_modify.mp hwrite
  obtain ⟨_, _, hread, hrun⟩ := returns_bind.mp hrun
  obtain ⟨rfl, rfl⟩ := returns_gets.mp hread
  rw [if_neg (not_not.mpr htest)] at hrun
  obtain ⟨_, _, hprobe, -⟩ := returns_bind.mp hrun
  exact not_returns_probeRam divides_4k ht.write hrow hprobe

/-- The best configuration is selected. -/
theorem chipsetInit_total (hs : s.controller = ctl) (hends : ∀ k < 16, Ends ctl k) :
    Total chipsetInit s fun _ t => ∃ o,
      Best (Good ctl) (fun k => ctl.ram (BitVec.ofNat 8 k)) 0 16 o ∧ t.config = chosen 1 o := by
  refine Total.bind (Total.repeatN (n := 16) (I := Tracks ctl (Good ctl) 1)
    (fun k vars t hk ht => tryConfig_total (hends k hk) ht) (Tracks.init hs)) fun vars t ht => ?_
  obtain ⟨o, hbest, hchosen, -⟩ := ht.best
  refine total_modify ⟨o, hbest, ?_⟩
  rw [← hchosen]
  exact (outIndexed_configured ht.controller).2

theorem chipsetInit_ends {u : Unit} {t : Board 0x9A κ} (hs : s.controller = ctl)
    (h : chipsetInit.Returns s u t) : ∀ k < 16, Ends ctl k := by
  obtain ⟨vars, t, hrun, -⟩ := returns_bind.mp h
  exact Returns.repeatN (I := Tracks ctl (Good ctl) 1)
    (fun k vars t hk hends ht => tryConfig_total hends ht)
    (fun k vars t vars' t' hk hends ht => not_returns_tryConfig hends ht) (Tracks.init hs) hrun

/-- What is selected is what should be. -/
def Selects (s : Board 0x9A κ) : Prop :=
  Total chipsetInit s fun _ t => s.controller.SelectsWell 16 (Passes s.controller) 1 t.config

/-- The controllers for which it is: every probe comes to an end, and what the driver
skips as a negative amount has no more memory than a fallback that is selected because
nothing else was found. -/
structure Selectable (ctl : DramController κ) : Prop where
  ends : ∀ k < 16, Ends ctl k
  small : ∀ k < 16, Passes ctl (BitVec.ofNat 8 k) →
    ctl.Distinct (BitVec.ofNat 8 k) (0x100000 + ctl.ram (BitVec.ofNat 8 k)) →
    2 ^ 31 ≤ ctl.ram (BitVec.ofNat 8 k) →
      ctl.ram (BitVec.ofNat 8 k) ≤ ctl.ram 1 ∧
        ∀ j < 16, Good ctl j → ctl.ram (BitVec.ofNat 8 j) = 0

theorem selects_iff : Selects s ↔ Selectable s.controller := by
  constructor
  · rintro ⟨u, t, hrun, hselects⟩
    have hends := chipsetInit_ends rfl hrun
    obtain ⟨_, t', hrun', o, hbest, hchosen⟩ := chipsetInit_total rfl hends
    obtain ⟨-, rfl⟩ := hrun.functional hrun'
    refine ⟨hends, ?_⟩
    intro k hk hpasses hdistinct hlarge
    have hmost := hselects.most k hk hpasses hdistinct
    rw [hchosen] at hmost
    cases o with
    | none => exact ⟨hmost, fun j hj hgood => Nat.le_zero.mp (hbest j hj hgood)⟩
    | some b => exact absurd hbest.2.1.2.1 (Nat.not_lt.mpr (hlarge.trans hmost))
  · rintro ⟨hends, hsmall⟩
    refine (chipsetInit_total rfl hends).mono ?_
    rintro u t ⟨o, hbest, hchosen⟩
    rw [hchosen]
    cases o with
    | none =>
        refine ⟨Or.inl rfl, ?_⟩
        intro k hk hpasses hdistinct
        by_cases hlarge : 2 ^ 31 ≤ s.controller.ram (BitVec.ofNat 8 k)
        · exact (hsmall k hk hpasses hdistinct hlarge).1
        · have hgood : Good s.controller k := ⟨hpasses, Nat.not_le.mp hlarge, hdistinct⟩
          exact (hbest k hk hgood).trans (Nat.zero_le _)
    | some b =>
        obtain ⟨hb, hgood, hpos, hmax, -⟩ := hbest
        refine ⟨Or.inr hgood.2.2, ?_⟩
        intro k hk hpasses hdistinct
        by_cases hlarge : 2 ^ 31 ≤ s.controller.ram (BitVec.ofNat 8 k)
        · have hzero := (hsmall k hk hpasses hdistinct hlarge).2 b hb hgood
          exact absurd hzero (Nat.ne_of_gt hpos)
        · exact hmax k hk ⟨hpasses, Nat.not_le.mp hlarge, hdistinct⟩

end Choice

end Um82c480

/-! ### The SiS 85C460 -/

namespace Sis8c460

section Driver

variable {κ : Type}

def writeReg (reg v : U8) : Prog (Board 0x50 κ) Unit := modify (outIndexed reg v)

def readReg (reg : U8) : Prog (Board 0x50 κ) U8 := do
  modify fun s => { s with index := reg }
  gets fun s => s.regs reg

def configDram (cfg : U8) : Prog (Board 0x50 κ) Unit := writeReg 0x50 cfg

def readDramConfig : Prog (Board 0x50 κ) U8 := readReg 0x50

variable [DecidableEq κ]

/-- One pass of the loop in `detectDramConfig`. -/
def tryConfig : U8 × U8 × U32 → Prog (Board 0x50 κ) (U8 × U8 × U32)
  | (i, bestCfg, mostRam) => do
    configDram i
    let ram ← probeRam 0x100000 32768
    let mirroring ← detectMirroring ram
    configDram 0x0
    if !mirroring then
      if mostRam < ram then return (i + 1, i, ram)
      else return (i + 1, bestCfg, mostRam)
    else return (i + 1, bestCfg, mostRam)

/-- `detectDramConfig` without the restart of `main`. -/
def detectDramConfig : Prog (Board 0x50 κ) Unit := do
  let cfg ← readDramConfig
  if cfg = 0 then do
    let vars ← repeatN tryConfig 32 (0, 0, 0)
    let vgaIvt ← gets (Ram.read32 0x40)
    configDram vars.2.1
    let ivt ← gets (Ram.read32 0x40)
    when (vgaIvt ≠ ivt) (modify (Ram.write32 0x40 vgaIvt))
  else return ()

end Driver

section Choice

variable {κ : Type}

/-- What the driver looks for: its points end below the amount of memory. -/
def Good (ctl : DramController κ) (k : Nat) : Prop :=
  ctl.Distinct (BitVec.ofNat 8 k) (ctl.ram (BitVec.ofNat 8 k))

/-- The probe of the configuration and the marking of its points come to an end. -/
def Ends (ctl : DramController κ) (k : Nat) : Prop := ctl.ram (BitVec.ofNat 8 k) ≤ 0xFFF80000

variable {ctl : DramController κ} {k : Nat} {s : Board 0x50 κ} {vars : U8 × U8 × U32}

/-- A point below the amount of memory is in a block that holds data. -/
theorem holds_lt {c : U8} (h : k < points (ctl.ram c)) : ctl.holds c (block (point k)) = true := by
  rw [lt_points] at h
  exact DramController.holds_point (by omega)

theorem readDramConfig_total : Total readDramConfig s fun cfg t =>
    cfg = s.regs 0x50 ∧ t.controller = s.controller :=
  Total.modify_bind (total_gets ⟨rfl, rfl⟩)

variable [DecidableEq κ]

theorem tryConfig_total (hends : Ends ctl k) (h : Tracks ctl (Good ctl) 0 k vars s) :
    Total (tryConfig vars) s (Tracks ctl (Good ctl) 0 (k + 1)) := by
  obtain ⟨i, best, most⟩ := vars
  obtain rfl : i = BitVec.ofNat 8 k := h.config
  have hrow : ctl.row (BitVec.ofNat 8 k) < 0x20000 :=
    DramController.ram_lt (Nat.lt_of_le_of_lt hends (by decide))
  refine Total.modify_bind ?_
  refine Total.bind (probeRam_ram divides_32k (outIndexed_configured h.controller) hrow) ?_
  rintro ram t ⟨hram, ht⟩
  rw [Ends, ← hram] at hends
  refine Total.bind (detectMirroring_total ht hends fun j hj => holds_lt (hram ▸ hj)) ?_
  rintro mirroring u ⟨hmirroring, hu⟩
  rw [hram] at hmirroring
  refine Total.modify_bind ?_
  cases mirroring with
  | false =>
      rw [if_pos Bool.not_false]
      by_cases hmore : most < ram
      · rw [if_pos hmore]
        exact total_pure (h.take hu.1 (hmirroring.mp rfl) hram (BitVec.lt_def.mp hmore))
      · rw [if_neg hmore]
        refine total_pure (h.keep hu.1 ?_)
        intro _
        rw [← hram]
        exact Nat.not_lt.mp fun hlt => hmore (BitVec.lt_def.mpr hlt)
  | true =>
      rw [if_neg (ne_true_of_eq_false Bool.not_true)]
      exact total_pure (h.keep hu.1 fun hgood => nomatch hmirroring.mpr hgood)

theorem not_returns_tryConfig (hends : ¬ Ends ctl k)
    (h : Tracks ctl (Good ctl) 0 k vars s) {vars' : U8 × U8 × U32} {t : Board 0x50 κ} :
    ¬ (tryConfig vars).Returns s vars' t := by
  obtain ⟨i, best, most⟩ := vars
  obtain rfl : i = BitVec.ofNat 8 k := h.config
  have ht : Configured ctl (BitVec.ofNat 8 k) (outIndexed 0x50 (BitVec.ofNat 8 k) s) :=
    outIndexed_configured h.controller
  intro hrun
  obtain ⟨_, _, hwrite, hrun⟩ := returns_bind.mp hrun
  cases returns_modify.mp hwrite
  obtain ⟨ram, u, hprobe, hrun⟩ := returns_bind.mp hrun
  obtain ⟨_, _, hdetect, -⟩ := returns_bind.mp hrun
  by_cases hrow : ctl.row (BitVec.ofNat 8 k) < 0x20000
  · obtain ⟨ram', u', hprobe', hram, -⟩ := probeRam_ram divides_32k ht hrow
    obtain ⟨rfl, rfl⟩ := hprobe.functional hprobe'
    rw [Ends, ← hram] at hends
    exact not_returns_detectMirroring hends hdetect
  · exact not_returns_probeRam divides_32k ht hrow hprobe

/-- The best configuration is selected. -/
theorem detectDramConfig_total (hreset : s.regs 0x50 = 0) (hs : s.controller = ctl)
    (hends : ∀ k < 32, Ends ctl k) :
    Total detectDramConfig s fun _ t => ∃ o,
      Best (Good ctl) (fun k => ctl.ram (BitVec.ofNat 8 k)) 0 32 o ∧ t.config = chosen 0 o := by
  refine Total.bind readDramConfig_total ?_
  rintro cfg t ⟨rfl, ht⟩
  rw [if_pos hreset]
  refine Total.bind (Total.repeatN (n := 32) (I := Tracks ctl (Good ctl) 0)
    (fun k vars t hk ht => tryConfig_total (hends k hk) ht) (Tracks.init (ht.trans hs)))
    fun vars u hu => ?_
  obtain ⟨o, hbest, hchosen, -⟩ := hu.best
  have hv : Configured ctl (chosen 0 o) (outIndexed 0x50 vars.2.1 u) :=
    hchosen ▸ outIndexed_configured hu.controller
  refine Total.gets_bind (Total.modify_bind (Total.gets_bind ?_))
  unfold when
  split
  · exact total_modify ⟨o, hbest, hv.write.2⟩
  · exact total_pure ⟨o, hbest, hv.2⟩

theorem detectDramConfig_ends {u : Unit} {t : Board 0x50 κ} (hreset : s.regs 0x50 = 0)
    (hs : s.controller = ctl) (h : detectDramConfig.Returns s u t) : ∀ k < 32, Ends ctl k := by
  obtain ⟨cfg, v, hread, hrun⟩ := returns_bind.mp h
  obtain ⟨cfg', v', hread', hcfg, hv⟩ := readDramConfig_total (s := s)
  obtain ⟨rfl, rfl⟩ := hread.functional hread'
  rw [if_pos (hcfg.trans hreset)] at hrun
  obtain ⟨vars, _, hloop, -⟩ := returns_bind.mp hrun
  exact Returns.repeatN (I := Tracks ctl (Good ctl) 0)
    (fun k vars t hk hends ht => tryConfig_total hends ht)
    (fun k vars t vars' t' hk hends ht => not_returns_tryConfig hends ht)
    (Tracks.init (hv.trans hs)) hloop

/-- What is selected, if the DRAM is not initialized, is what should be. -/
def Selects (s : Board 0x50 κ) : Prop :=
  Total detectDramConfig s fun _ t =>
    s.regs 0x50 = 0 → s.controller.SelectsWell 32 (fun _ => True) 0 t.config

/-- The controllers for which it is: every loop comes to an end, and the first of the
configurations with the most memory that do not mirror below that amount does not
mirror in the last megabyte either. -/
structure Selectable (ctl : DramController κ) : Prop where
  ends : ∀ k < 32, Ends ctl k
  clear : ∀ k, Best (Good ctl) (fun k => ctl.ram (BitVec.ofNat 8 k)) 0 32 (some k) → k ≠ 0 →
    ctl.Distinct (BitVec.ofNat 8 k) (0x100000 + ctl.ram (BitVec.ofNat 8 k))

theorem selects_iff : Selects s ↔ (s.regs 0x50 = 0 → Selectable s.controller) := by
  by_cases hreset : s.regs 0x50 = 0
  · rw [Selects]
    simp only [hreset, true_imp_iff]
    constructor
    · rintro ⟨u, t, hrun, hselects⟩
      have hends := detectDramConfig_ends hreset rfl hrun
      obtain ⟨_, t', hrun', o, hbest, hchosen⟩ := detectDramConfig_total hreset rfl hends
      obtain ⟨-, rfl⟩ := hrun.functional hrun'
      refine ⟨hends, ?_⟩
      intro k hk hne
      obtain rfl := hbest.unique hk
      have hclear := hselects.clear
      rw [hchosen] at hclear
      refine hclear.resolve_left fun heq => hne ?_
      have hlt := hk.1
      have hzero := congrArg BitVec.toNat heq
      rw [chosen, BitVec.toNat_ofNat] at hzero
      change k % 256 = 0 at hzero
      omega
    · rintro ⟨hends, hclear⟩
      refine (detectDramConfig_total hreset rfl hends).mono ?_
      rintro u t ⟨o, hbest, hchosen⟩
      have hmost : ∀ k < 32, s.controller.Distinct (BitVec.ofNat 8 k)
          (0x100000 + s.controller.ram (BitVec.ofNat 8 k)) →
          s.controller.ram (BitVec.ofNat 8 k) ≤
            Best.worth (fun k => s.controller.ram (BitVec.ofNat 8 k)) 0 o :=
        fun k hk hdistinct => hbest.le_worth hk (hdistinct.mono (Nat.le_add_left _ _))
      rw [hchosen]
      cases o with
      | none =>
          exact ⟨Or.inl rfl, fun k hk _ hdistinct => (hmost k hk hdistinct).trans (Nat.zero_le _)⟩
      | some k =>
          refine ⟨?_, fun j hj _ hdistinct => hmost j hj hdistinct⟩
          by_cases hzero : k = 0
          · exact Or.inl (congrArg (BitVec.ofNat 8) hzero)
          · exact Or.inr (hclear k hbest hzero)
  · refine iff_of_true ?_ fun h => absurd h hreset
    refine Total.bind readDramConfig_total ?_
    rintro cfg t ⟨rfl, -⟩
    rw [if_neg hreset]
    exact total_pure fun h => absurd h hreset

end Choice

/-! 1 MB above 1 MB whose halves are the same cells. -/

def mirroredBank : DramController Nat where
  holds c b := decide (b < 32 ∨ c = 1 ∧ b < 64)
  cell _ b := if b < 48 then b else b - 16
  floating _ _ := 0

def mirroredBoard : Board 0x50 Nat where
  controller := mirroredBank
  index := 0
  regs _ := 0
  cells _ _ := 0

theorem mirroredBank_one : mirroredBank.ram (BitVec.ofNat 8 1) = 0x100000 := by
  have hrow : mirroredBank.row (BitVec.ofNat 8 1) = 32 := by
    refine DramController.row_eq (by omega) ?_ rfl
    intro k hk
    exact decide_eq_true (Or.inr ⟨rfl, by omega⟩)
  rw [DramController.ram, hrow]

theorem mirroredBank_other {c : U8} (hc : c ≠ 1) : mirroredBank.ram c = 0 := by
  have hrow : mirroredBank.row c = 0 := by
    refine DramController.row_eq (by omega) (fun k hk => absurd hk (Nat.not_lt_zero k)) ?_
    exact decide_eq_false fun h => hc (h.resolve_left (by omega)).1
  rw [DramController.ram, hrow]

/-- The mirrored memory is selected. -/
theorem selects_fails : ¬ Selects mirroredBoard := by
  rw [selects_iff]
  intro hselects
  have h : Selectable mirroredBank := hselects rfl
  have hle : ∀ c, mirroredBank.ram c ≤ mirroredBank.ram (BitVec.ofNat 8 1) := by
    intro c
    by_cases hc : c = 1
    · exact Nat.le_of_eq (congrArg mirroredBank.ram hc)
    · rw [mirroredBank_other hc]
      exact Nat.zero_le _
  have hpos : 0 < mirroredBank.ram (BitVec.ofNat 8 1) := by
    rw [mirroredBank_one]
    decide
  have hgood : Good mirroredBank 1 := by
    intro k hk
    rw [mirroredBank_one] at hk
    omega
  have hbest : Best (Good mirroredBank) (fun k => mirroredBank.ram (BitVec.ofNat 8 k)) 0 32
      (some 1) := by
    refine ⟨by decide, hgood, hpos, fun d _ _ => hle _, ?_⟩
    intro d hd _
    obtain rfl : d = 0 := Nat.lt_one_iff.mp hd
    exact Nat.lt_of_le_of_lt (Nat.le_of_eq (mirroredBank_other (by decide))) hpos
  have hdistinct := h.clear 1 hbest one_ne_zero
  have hlimit : 0x100000 + 0x80000 * 1 < 0x100000 + mirroredBank.ram (BitVec.ofNat 8 1) := by
    rw [mirroredBank_one]
    decide
  exact hdistinct 1 hlimit 0 Nat.one_pos rfl

end Sis8c460

/-! ### Both -/

/-- For every state of the two boards, and so for every controller. -/
theorem selects_iff_selectable {κ : Type} [DecidableEq κ] (um : Board 0x9A κ)
    (sis : Board 0x50 κ) :
    (Um82c480.Selects um ↔ Um82c480.Selectable um.controller) ∧
      (Sis8c460.Selects sis ↔ (sis.regs 0x50 = 0 → Sis8c460.Selectable sis.controller)) :=
  ⟨Um82c480.selects_iff, Sis8c460.selects_iff⟩

end MyBios.Dram
