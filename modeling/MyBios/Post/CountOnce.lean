import MyBios.Post.ProbeAll

/-!
When `probeAll` counts every byte of RAM once.

The scan moves on from a region by its size rounded down to a multiple of the
stride. Where that stops short of the last block of the region, the rest is counted
again, or the scan stands still. A scan that comes within 1020 bytes of the top of the
address space tests a word at its bottom.

`countsOnce_iff`: the count is right exactly when neither happens.
-/

namespace MyBios.ProbeAll

open Prog

/-! ### What a right count is -/

/-- The bytes that are counted for a region. -/
def Counts (region : U32 × U32) (x : U32) : Prop := (x - region.1).toNat < region.2.toNat

/-- No byte of RAM is in two of the regions. -/
def Once (installed : Nat → Bool) (regions : List (U32 × U32)) : Prop :=
  regions.Pairwise fun r r' =>
    ∀ x : U32, installed (x.toNat / 1024) = true → ¬ (Counts r x ∧ Counts r' x)

/-- Every region of RAM begins at a multiple of the stride. -/
def Aligned (stride : Nat) (installed : Nat → Bool) : Prop :=
  ∀ a e, IsRun (installed · = true) a e → stride ∣ 1024 * a

/-- The number of the installed blocks below `b`. -/
def blocksBelow (installed : Nat → Bool) (b : Nat) : Nat := Nat.count (installed · = true) b

/-- The result is the size of the regions, no byte of RAM is in two of them, and it is at most
the total size of RAM, and equal to it where the regions of RAM are aligned. -/
structure CountedOnce (stride : Nat) (installed : Nat → Bool) (total : U32)
    (regions : List (U32 × U32)) : Prop where
  sum : total.toNat = (regions.map fun r => r.2.toNat).sum
  once : Once installed regions
  atMost : total.toNat ≤ 1024 * blocksBelow installed (2 ^ 22)
  exact : Aligned stride installed → total.toNat = 1024 * blocksBelow installed (2 ^ 22)

/-- `probeAll` returns such a count. -/
def CountsOnce (stride top : U32) (installed : Nat → Bool) (m : CellMemory) : Prop :=
  Total (probeAll stride top) m fun r _ => CountedOnce stride.toNat installed r.1 r.2

/-- Blocks of RAM below `top`. -/
structure Layout (stride top : U32) (installed : Nat → Bool) (m : CellMemory) : Prop where
  positive : 0 < stride.toNat
  fits : top.toNat + stride.toNat < 2 ^ 32
  below : ∀ b, installed b = true → 1024 * (b + 1) ≤ top.toNat
  memory : HasBlocks installed m

/-! ### Where the scan goes -/

/-- The first multiple of the stride at which the scan can find the region that begins with
block `a`: the first word it tests there is at least at the start of the block. -/
def firstProbe (stride a : Nat) : Nat := (1024 * a - 1020 + (stride - 1)) / stride * stride

/-- Where the scan goes from `p` in a region that ends with block `e`. -/
def next (stride e p : Nat) : Nat := p + 1024 * ((1024 * e - p) / 1024) / stride * stride

/-- The scan moves from each region it finds into its last KB or behind it, and block 0, if it is
RAM, is not found again at the top of the address space. -/
structure StepsOver (stride top : Nat) (installed : Nat → Bool) : Prop where
  runs : ∀ a e, IsRun (installed · = true) a e → firstProbe stride a + 1024 ≤ 1024 * e →
    1024 * e < next stride e (firstProbe stride a) + 1024
  wraps : installed 0 = true → ∀ i, stride ∣ i → i < top → i + 1020 < 2 ^ 32

section Arithmetic

variable {stride a e p : Nat}

theorem add_le_of_dvd {q : Nat} (hp : stride ∣ p) (hq : stride ∣ q) (h : p < q) :
    p + stride ≤ q := by
  have hle := Nat.le_of_dvd (Nat.sub_pos_of_lt h) (Nat.dvd_sub hq hp)
  omega

theorem dvd_firstProbe : stride ∣ firstProbe stride a := Nat.dvd_mul_left _ _

theorem firstProbe_le_iff (positive : 0 < stride) (hp : stride ∣ p) :
    firstProbe stride a ≤ p ↔ 1024 * a ≤ p + 1020 := by
  obtain ⟨q, rfl⟩ := hp
  rw [firstProbe, Nat.mul_comm stride q, Nat.mul_le_mul_right_iff positive,
    Nat.div_le_iff_le_mul_add_pred positive, Nat.mul_comm stride q]
  omega

theorem le_firstProbe (positive : 0 < stride) : 1024 * a ≤ firstProbe stride a + 1020 :=
  (firstProbe_le_iff positive dvd_firstProbe).mp (Nat.le_refl _)

theorem dvd_next (hp : stride ∣ p) : stride ∣ next stride e p :=
  Nat.dvd_add hp (Nat.dvd_mul_left _ _)

theorem le_next : p ≤ next stride e p := Nat.le_add_right _ _

theorem next_le (hp : p ≤ 1024 * e) : next stride e p ≤ 1024 * e := by
  have hle : 1024 * ((1024 * e - p) / 1024) / stride * stride ≤ 1024 * ((1024 * e - p) / 1024) :=
    Nat.div_mul_le_self _ _
  rw [next]
  omega

end Arithmetic

/-! ### Runs and hits -/

section Runs

variable {installed : Nat → Bool} {a a' b e e' p : Nat}

theorem seen_iff (hb : b < 2 ^ 22) : Seen installed b ↔ installed b = true := by
  rw [Seen, Nat.mod_eq_of_lt hb]

/-- In a run, with at least 1 KB to go. -/
theorem hit_of_run (run : IsRun (Seen installed) a e) (hlo : 1024 * a ≤ p + 1020)
    (hhi : p + 1024 ≤ 1024 * e) : Hit installed p :=
  ⟨run.inside _ (by omega) (by omega), run.inside _ (by omega) (by omega)⟩

theorem exists_run_of_hit (hlast : installed (2 ^ 22 - 1) = false) (h : Hit installed p) :
    ∃ a e, IsRun (Seen installed) a e ∧ 1024 * a ≤ p + 1020 ∧ p + 1024 ≤ 1024 * e := by
  obtain ⟨hfirst, hsecond⟩ := h
  have hnot : ∀ b, b % 2 ^ 22 = 2 ^ 22 - 1 → ¬ Seen installed b := fun b hb hseen => by
    rw [Seen, hb, hlast] at hseen
    exact absurd hseen (by decide)
  have hresidue : (p + 1023) / 1024 % 2 ^ 22 ≠ 2 ^ 22 - 1 := fun h => hnot _ h hsecond
  have hmod : (p + 1023) / 1024 % 2 ^ 22 < 2 ^ 22 := Nat.mod_lt _ (by decide)
  have hbehind : ¬ Seen installed
      ((p + 1023) / 1024 + (2 ^ 22 - 1 - (p + 1023) / 1024 % 2 ^ 22)) := hnot _ (by omega)
  obtain ⟨a, e, run, hac, hce⟩ := IsRun.exists_of_mem hsecond (by omega) hbehind
  have ha := run.start_le hfirst (by omega)
  exact ⟨a, e, run, by omega, by omega⟩

/-- The tests pass up to the end of the run. -/
theorem counted_of_run (run : IsRun (Seen installed) a e) (hlo : 1024 * a ≤ p + 1020)
    (hhi : p + 1024 ≤ 1024 * e) : Counted installed p ((1024 * e - p) / 1024) := by
  constructor
  · intro k hk
    exact hit_of_run run (by omega) (by omega)
  · rintro ⟨-, hlast⟩
    have hend : (p + 1024 * ((1024 * e - p) / 1024) + 1023) / 1024 = e := by omega
    exact run.stop (hend ▸ hlast)

/-- Block 0 is seen again at the top of the address space. -/
theorem hit_image (hinstalled : installed 0 = true) (hlo : 2 ^ 32 ≤ p + 1020) (hp : p < 2 ^ 32) :
    Hit installed p := by
  have hfirst : (p + 1020) / 1024 % 2 ^ 22 = 0 := by omega
  have hsecond : (p + 1023) / 1024 % 2 ^ 22 = 0 := by omega
  rw [Hit, Seen, Seen, hfirst, hsecond]
  exact ⟨hinstalled, hinstalled⟩

/-- The tests that pass in a run, as blocks. -/
theorem blocksBelow_run (run : IsRun (installed · = true) a e) (hlo : 1024 * a ≤ p + 1020)
    (hhi : p + 1024 ≤ 1024 * e) :
    blocksBelow installed e =
      blocksBelow installed ((p + 1023) / 1024) + (1024 * e - p) / 1024 := by
  have hcount : blocksBelow installed e =
      blocksBelow installed ((p + 1023) / 1024) + (e - (p + 1023) / 1024) :=
    count_filled (by omega) fun b hlo hhi => run.inside b (by omega) hhi
  rw [hcount]
  omega

end Runs

section Layout

variable {stride top : U32} {installed : Nat → Bool} {m : CellMemory} {a b e p : Nat}

theorem Layout.last (layout : Layout stride top installed m) :
    installed (2 ^ 22 - 1) = false := by
  have htop := top.isLt
  by_contra hnot
  have hbelow := layout.below _ (Bool.eq_true_of_not_eq_false hnot)
  omega

/-- A run of installed blocks ends below the top. -/
theorem Layout.run_le (layout : Layout stride top installed m)
    (run : IsRun (installed · = true) a e) : 1024 * e ≤ top.toNat := by
  have hlt := run.lt
  have hbelow := layout.below (e - 1) (run.inside (e - 1) (by omega) (by omega))
  omega

theorem Layout.run_seen (layout : Layout stride top installed m)
    (run : IsRun (installed · = true) a e) : IsRun (Seen installed) a e := by
  have hle := layout.run_le run
  have htop := top.isLt
  exact run.congr fun b hb => (seen_iff (by omega)).symm

/-- A run that begins in the address space is one of installed blocks. -/
theorem Layout.run_installed (layout : Layout stride top installed m)
    (run : IsRun (Seen installed) a e) (ha : a < 2 ^ 22) : IsRun (installed · = true) a e := by
  have hlast : ¬ Seen installed (2 ^ 22 - 1) := by
    rw [seen_iff (by decide), layout.last]
    decide
  have hstop := run.stop_le (by omega) hlast
  exact run.congr fun b hb => seen_iff (by omega)

/-- Every installed block is in a run. -/
theorem Layout.exists_run (layout : Layout stride top installed m) (hb : installed b = true) :
    ∃ a e, IsRun (installed · = true) a e ∧ a ≤ b ∧ b < e := by
  have hbelow := layout.below b hb
  have htop := top.isLt
  refine IsRun.exists_of_mem (P := (installed · = true)) (k := 2 ^ 22 - 1) hb (by omega) ?_
  rw [layout.last]
  decide

end Layout

/-! ### A right count steps over -/

/-- On its way to the result `r`, the scan comes to `p` with these regions found. -/
def Reaches (stride top : U32) (installed : Nat → Bool) (r : U32 × List (U32 × U32))
    (t : CellMemory) (p : Nat) (regions : List (U32 × U32)) : Prop :=
  ∃ total s, HasBlocks installed s ∧
    (loop (scanPass stride top) ⟨BitVec.ofNat 32 p, total, regions⟩).Returns s r t

section Reaches

variable {stride top : U32} {installed : Nat → Bool} {m t : CellMemory}
  {r : U32 × List (U32 × U32)} {regions : List (U32 × U32)} {a e n p q : Nat}

theorem Reaches.miss (h : Reaches stride top installed r t p regions)
    (hlast : installed (2 ^ 22 - 1) = false) (hp : p < top.toNat) (hmiss : ¬ Hit installed p) :
    Reaches stride top installed r t (p + stride.toNat) regions := by
  obtain ⟨total, s, hs, hreturns⟩ := h
  obtain ⟨u, hpass, hu⟩ := scanPass_miss hlast hs hp hmiss
  exact ⟨total, u, hu, hpass.loop_again_iff.mp hreturns⟩

theorem Reaches.hit (h : Reaches stride top installed r t p regions)
    (hlast : installed (2 ^ 22 - 1) = false) (hp : p < top.toNat)
    (hcounted : Counted installed p n) (hpos : 0 < n) (hn : n < 2 ^ 22) :
    Reaches stride top installed r t (p + 1024 * n / stride.toNat * stride.toNat)
      (regions ++ [(BitVec.ofNat 32 p, BitVec.ofNat 32 (1024 * n))]) := by
  obtain ⟨total, s, hs, hreturns⟩ := h
  obtain ⟨u, hpass, hu⟩ := scanPass_hit hlast hs hp hcounted hpos hn
  exact ⟨_, u, hu, hpass.loop_again_iff.mp hreturns⟩

/-- What is found stays in the result. -/
theorem Reaches.found_kept (h : Reaches stride top installed r t p regions) : regions <+: r.2 := by
  obtain ⟨total, s, -, hreturns⟩ := h
  obtain ⟨v, u, hpre, hdone⟩ := hreturns.loop_induct (I := fun v _ => regions <+: v.regions)
    (fun _ _ _ _ hv hpass => hv.trans (scanPass_again hpass)) (List.prefix_refl regions)
  rw [scanPass_done hdone]
  exact hpre

/-- Two regions found one after the other have no byte of RAM in common. -/
theorem Reaches.apart {found found' : U32 × U32}
    (h : Reaches stride top installed r t p (regions ++ [found'])) (once : Once installed r.2)
    (hfound : found ∈ regions) (x : U32) (hx : installed (x.toNat / 1024) = true) :
    ¬ (Counts found x ∧ Counts found' x) := by
  have hpair : Once installed (regions ++ [found']) :=
    List.Pairwise.sublist h.found_kept.sublist once
  exact (List.pairwise_append.mp hpair).2.2 found hfound found' (List.mem_singleton_self _) x hx

theorem toNat_ofNat_of_lt {x : Nat} (hx : x < 2 ^ 32) : (BitVec.ofNat 32 x).toNat = x := by
  rw [BitVec.toNat_ofNat, Nat.mod_eq_of_lt hx]

/-- The bytes of a region that does not wrap. -/
theorem counts_iff {i size x : Nat} (hfits : i + size < 2 ^ 32) (hx : x < 2 ^ 32) :
    Counts (BitVec.ofNat 32 i, BitVec.ofNat 32 size) (BitVec.ofNat 32 x) ↔
      i ≤ x ∧ x < i + size := by
  rw [Counts, BitVec.toNat_sub, toNat_ofNat_of_lt (by omega), toNat_ofNat_of_lt hx,
    toNat_ofNat_of_lt (by omega)]
  omega

/-- In a run the scan moves into the last KB or behind it: otherwise it would find the rest of
the run again. -/
theorem Reaches.lt_next (h : Reaches stride top installed r t p regions)
    (layout : Layout stride top installed m) (once : Once installed r.2)
    (run : IsRun (installed · = true) a e) (hlo : 1024 * a ≤ p + 1020)
    (hhi : p + 1024 ≤ 1024 * e) : 1024 * e < next stride.toNat e p + 1024 := by
  by_contra hnot
  have hseen := layout.run_seen run
  have htop := layout.run_le run
  have hlt := top.isLt
  have hp' : p ≤ next stride.toNat e p := le_next
  generalize hnext : next stride.toNat e p = p' at hnot hp'
  have hfirst := h.hit layout.last (by omega) (counted_of_run hseen hlo hhi) (by omega) (by omega)
  rw [show p + 1024 * ((1024 * e - p) / 1024) / stride.toNat * stride.toNat = p' from hnext]
    at hfirst
  have hsecond := hfirst.hit layout.last (by omega)
    (counted_of_run hseen (by omega : 1024 * a ≤ p' + 1020) (by omega)) (by omega) (by omega)
  -- the first whole block from `p'` on is in both
  have hblock :
      installed ((BitVec.ofNat 32 (1024 * ((p' + 1023) / 1024))).toNat / 1024) = true := by
    rw [toNat_ofNat_of_lt (by omega), Nat.mul_div_cancel_left _ (by decide)]
    exact run.inside _ (by omega) (by omega)
  refine hsecond.apart once (List.mem_append_right _ (List.mem_singleton_self _)) _ hblock ⟨?_, ?_⟩
  · exact (counts_iff (by omega) (by omega)).mpr ⟨by omega, by omega⟩
  · exact (counts_iff (by omega) (by omega)).mpr ⟨by omega, by omega⟩

/-- The scan comes to the first probe of every run. -/
theorem Reaches.toFirstProbe (h : Reaches stride top installed r t p regions)
    (layout : Layout stride top installed m) (once : Once installed r.2)
    (hp : stride.toNat ∣ p) (ha : a ≤ 2 ^ 22) (hstart : a = 0 ∨ ¬ Seen installed (a - 1))
    (hq : firstProbe stride.toNat a < top.toNat) (hle : p ≤ firstProbe stride.toNat a) :
    ∃ regions', regions <+: regions' ∧
      Reaches stride top installed r t (firstProbe stride.toNat a) regions' := by
  induction hd : firstProbe stride.toNat a - p using Nat.strongRecOn
    generalizing p regions with
  | ind d ih =>
      rcases Nat.eq_or_lt_of_le hle with rfl | hlt
      · exact ⟨regions, List.prefix_refl _, h⟩
      · have positive := layout.positive
        have hbefore : p + 1020 < 1024 * a := by
          by_contra hnot
          have := (firstProbe_le_iff positive hp).mpr (Nat.not_lt.mp hnot)
          omega
        have hself : 1024 * a ≤ firstProbe stride.toNat a + 1020 := le_firstProbe positive
        by_cases hhit : Hit installed p
        · obtain ⟨b, e, hseen, hlo, hhi⟩ := exists_run_of_hit layout.last hhit
          have run := layout.run_installed hseen (by omega)
          have hstop : e ≤ a - 1 := hseen.stop_le (by omega) (hstart.resolve_left (by omega))
          have hjump := h.lt_next layout once run hlo hhi
          have hnext : next stride.toNat e p ≤ 1024 * e := next_le (by omega)
          have hstep : Reaches stride top installed r t (next stride.toNat e p) _ :=
            h.hit layout.last (by omega) (counted_of_run hseen hlo hhi) (by omega) (by omega)
          obtain ⟨regions', hpre, hreach⟩ :=
            ih _ (by omega) hstep (dvd_next hp) (by omega) rfl
          exact ⟨regions', (List.prefix_append _ _).trans hpre, hreach⟩
        · have hnext : p + stride.toNat ≤ firstProbe stride.toNat a :=
            add_le_of_dvd hp dvd_firstProbe hlt
          exact ih _ (by omega) (h.miss layout.last (by omega) hhit)
            (Nat.dvd_add hp (Nat.dvd_refl _)) hnext rfl

/-- The scan finds block 0 first. Where it comes to the image of block 0 at the top of the
address space, it finds it again. -/
theorem Reaches.no_image (h : Reaches stride top installed r t 0 [])
    (layout : Layout stride top installed m) (once : Once installed r.2)
    (hinstalled : installed 0 = true) (hdvd : stride.toNat ∣ p) (hp : p < top.toNat) :
    p + 1020 < 2 ^ 32 := by
  by_contra hnot
  have htop := top.isLt
  have hlast := layout.last
  obtain ⟨a, e, hseen, hlo, hhi⟩ :=
    exists_run_of_hit hlast (p := 0) ⟨hinstalled, hinstalled⟩
  have hle := layout.run_le (layout.run_installed hseen (by omega))
  have hstep : Reaches stride top installed r t (next stride.toNat e 0) _ :=
    h.hit hlast (by omega) (counted_of_run hseen hlo hhi) (by omega) (by omega)
  have hnext : next stride.toNat e 0 ≤ 1024 * e := next_le (by omega)
  -- from block 0 the scan goes to the first probe of the image
  have hq : firstProbe stride.toNat (2 ^ 22) ≤ p :=
    (firstProbe_le_iff layout.positive hdvd).mpr (by omega)
  have hself : 1024 * 2 ^ 22 ≤ firstProbe stride.toNat (2 ^ 22) + 1020 :=
    le_firstProbe layout.positive
  have hstart : ¬ Seen installed (2 ^ 22 - 1) := by
    rw [seen_iff (by decide), hlast]
    decide
  obtain ⟨regions, hpre, hreach⟩ := hstep.toFirstProbe layout once
    (dvd_next (Nat.dvd_zero _)) (Nat.le_refl _) (.inr hstart) (by omega) (by omega)
  have hagain : Hit installed (firstProbe stride.toNat (2 ^ 22)) :=
    hit_image hinstalled (by omega) (by omega)
  obtain ⟨n, hn, hcounted⟩ := exists_counted hlast (firstProbe stride.toNat (2 ^ 22))
  have hpos : 0 < n := Nat.pos_of_ne_zero fun hn => by
    subst hn
    exact hcounted.2 hagain
  have hsecond := hreach.hit hlast (by omega) hcounted hpos hn
  refine hsecond.apart once (hpre.subset (List.mem_singleton_self _)) 0 hinstalled ⟨?_, ?_⟩
  · exact (counts_iff (x := 0) (by omega) (by decide)).mpr ⟨Nat.le_refl 0, by omega⟩
  · rw [Counts, BitVec.toNat_sub, toNat_ofNat_of_lt (by omega), toNat_ofNat_of_lt (by omega)]
    show (2 ^ 32 - _ + 0) % 2 ^ 32 < _
    omega

/-- A right count steps over. -/
theorem CountsOnce.stepsOver (layout : Layout stride top installed m)
    (h : CountsOnce stride top installed m) : StepsOver stride.toNat top.toNat installed := by
  obtain ⟨r, t, hreturns, hcount⟩ := h
  have start : Reaches stride top installed r t 0 [] := ⟨0, m, layout.memory, hreturns⟩
  have htop := top.isLt
  constructor
  · intro a e run hhi
    have hle := layout.run_le run
    have hlt := run.lt
    obtain ⟨regions, -, hreach⟩ := start.toFirstProbe layout hcount.once (Nat.dvd_zero _) (by omega)
      (layout.run_seen run).start (by omega) (Nat.zero_le _)
    exact hreach.lt_next layout hcount.once run (le_firstProbe layout.positive) hhi
  · intro hinstalled i hdvd hi
    exact start.no_image layout hcount.once hinstalled hdvd hi

end Reaches

/-! ### A scan that steps over counts right -/

/-- What the scan has found when it comes to `p`: the runs whose first probe is behind are
behind it but for their last KB, and so are the regions it has found. -/
structure Progress (stride : Nat) (installed : Nat → Bool) (p : Nat) (total : U32)
    (regions : List (U32 × U32)) : Prop where
  dvd : stride ∣ p
  lt : p < 2 ^ 32
  clear : ∀ a e, IsRun (installed · = true) a e →
    p ≤ firstProbe stride a ∨ 1024 * e < p + 1024
  behind : ∀ r ∈ regions, ∃ e, installed e = false ∧ r.1.toNat + r.2.toNat ≤ 1024 * e ∧
    1024 * e < p + 1024
  sum : total.toNat = (regions.map fun r => r.2.toNat).sum
  once : Once installed regions
  atMost : total.toNat ≤ 1024 * blocksBelow installed ((p + 1023) / 1024)
  exact : Aligned stride installed →
    total.toNat = 1024 * blocksBelow installed ((p + 1023) / 1024)

section Progress

variable {stride top total : U32} {installed : Nat → Bool} {m : CellMemory}
  {regions : List (U32 × U32)} {a e p : Nat}

theorem Progress.start : Progress stride.toNat installed 0 0 [] where
  dvd := Nat.dvd_zero _
  lt := by decide
  clear _ _ _ := .inl (Nat.zero_le _)
  behind _ hr := absurd hr List.not_mem_nil
  sum := rfl
  once := .nil
  atMost := Nat.zero_le _
  exact _ := rfl

/-- Below the top a test passes in a run of installed blocks. -/
theorem StepsOver.run_of_hit (steps : StepsOver stride.toNat top.toNat installed)
    (layout : Layout stride top installed m) (hdvd : stride.toNat ∣ p) (hp : p < top.toNat)
    (hhit : Hit installed p) :
    ∃ a e, IsRun (installed · = true) a e ∧ 1024 * a ≤ p + 1020 ∧ p + 1024 ≤ 1024 * e := by
  have htop := top.isLt
  obtain ⟨a, e, hseen, hlo, hhi⟩ := exists_run_of_hit layout.last hhit
  refine ⟨a, e, layout.run_installed hseen ?_, hlo, hhi⟩
  by_contra hnot
  have hblock : (p + 1020) / 1024 % 2 ^ 22 = 0 := by omega
  have hfirst := hhit.1
  rw [Seen, hblock] at hfirst
  have hwraps := steps.wraps hfirst p hdvd hp
  omega

theorem Progress.miss (h : Progress stride.toNat installed p total regions)
    (layout : Layout stride top installed m) (hp : p < top.toNat) (hmiss : ¬ Hit installed p) :
    Progress stride.toNat installed (p + stride.toNat) total regions := by
  have positive := layout.positive
  have hfits := layout.fits
  have hblocks : (p + 1023) / 1024 ≤ (p + stride.toNat + 1023) / 1024 := by omega
  refine ⟨Nat.dvd_add h.dvd (Nat.dvd_refl _), by omega, fun a e run => ?_, fun r hr => ?_, h.sum,
    h.once, ?_, fun aligned => ?_⟩
  · cases h.clear a e run with
    | inl hbefore =>
        rcases Nat.eq_or_lt_of_le hbefore with heq | hlt
        · have hlo := (firstProbe_le_iff positive h.dvd).mp (Nat.le_of_eq heq.symm)
          have hhi : ¬ p + 1024 ≤ 1024 * e := fun hhi =>
            hmiss (hit_of_run (layout.run_seen run) hlo hhi)
          exact .inr (by omega)
        · exact .inl (add_le_of_dvd h.dvd dvd_firstProbe hlt)
    | inr hbehind => exact .inr (by omega)
  · obtain ⟨e, hstop, hle, hbehind⟩ := h.behind r hr
    exact ⟨e, hstop, hle, by omega⟩
  · exact Nat.le_trans h.atMost (Nat.mul_le_mul_left _ (Nat.count_monotone _ hblocks))
  · rw [h.exact aligned]
    refine congrArg _ (count_gap hblocks fun b hlo hhi hb => hmiss ?_).symm
    -- a run with a block here has its first probe at `p` or before
    obtain ⟨a, e, run, hab, hbe⟩ := layout.exists_run hb
    have hstart : 1024 * a ≤ p := by
      by_contra hnot
      have := add_le_of_dvd h.dvd (aligned a e run) (Nat.lt_of_not_le hnot)
      omega
    exact hit_of_run (layout.run_seen run) (by omega) (by omega)

/-- A run is found at its first probe, and the scan steps over it. -/
theorem Progress.lt_next (h : Progress stride.toNat installed p total regions)
    (layout : Layout stride top installed m)
    (steps : StepsOver stride.toNat top.toNat installed)
    (run : IsRun (installed · = true) a e) (hlo : 1024 * a ≤ p + 1020)
    (hhi : p + 1024 ≤ 1024 * e) : 1024 * e < next stride.toNat e p + 1024 := by
  have hfirst : p = firstProbe stride.toNat a := by
    have hle := (firstProbe_le_iff layout.positive h.dvd).mpr hlo
    have hclear := h.clear a e run
    omega
  have hnext := steps.runs a e run (by omega)
  rwa [← hfirst] at hnext

theorem Progress.clear_next (h : Progress stride.toNat installed p total regions)
    (layout : Layout stride top installed m) (run : IsRun (installed · = true) a e)
    (hp : p ≤ 1024 * e) (hnext : 1024 * e < next stride.toNat e p + 1024) {a' e' : Nat}
    (run' : IsRun (installed · = true) a' e') :
    next stride.toNat e p ≤ firstProbe stride.toNat a' ∨
      1024 * e' < next stride.toNat e p + 1024 := by
  have hle : next stride.toNat e p ≤ 1024 * e := next_le hp
  by_cases hae : a' ≤ e
  · have hstop := run'.stop_le hae run.stop
    exact .inr (by omega)
  · refine .inl (Nat.le_of_not_lt fun hlt => ?_)
    have := (firstProbe_le_iff layout.positive (dvd_next h.dvd)).mp (Nat.le_of_lt hlt)
    omega

/-- What is found in a run has no byte in common with a region found before: that one ends with
a block that is not RAM, before the run. -/
theorem Progress.apart (h : Progress stride.toNat installed p total regions)
    (run : IsRun (installed · = true) a e) (hlo : 1024 * a ≤ p + 1020)
    (hhi : p + 1024 ≤ 1024 * e) {size : Nat} (hfits : p + size < 2 ^ 32) {r : U32 × U32}
    (hr : r ∈ regions) (x : U32) :
    ¬ (Counts r x ∧ Counts (BitVec.ofNat 32 p, BitVec.ofNat 32 size) x) := by
  rintro ⟨hcounts, hcounts'⟩
  have hself : x = BitVec.ofNat 32 x.toNat := by simp
  rw [hself, counts_iff hfits x.isLt] at hcounts'
  obtain ⟨e', hstop, hle, hbehind⟩ := h.behind r hr
  have hne : e' ≠ (p + 1023) / 1024 := fun heq => by
    have hin := run.inside ((p + 1023) / 1024) (by omega) (by omega)
    rw [← heq, hstop] at hin
    exact absurd hin (by decide)
  have hx := x.isLt
  have hr₁ := r.1.isLt
  rw [Counts, BitVec.toNat_sub] at hcounts
  omega

theorem Progress.hit (h : Progress stride.toNat installed p total regions)
    (layout : Layout stride top installed m)
    (steps : StepsOver stride.toNat top.toNat installed)
    (run : IsRun (installed · = true) a e) (hlo : 1024 * a ≤ p + 1020)
    (hhi : p + 1024 ≤ 1024 * e) :
    p < next stride.toNat e p ∧ Progress stride.toNat installed (next stride.toNat e p)
      (total + BitVec.ofNat 32 (1024 * ((1024 * e - p) / 1024)))
      (regions ++ [(BitVec.ofNat 32 p, BitVec.ofNat 32 (1024 * ((1024 * e - p) / 1024)))]) := by
  have htop := top.isLt
  have hend := layout.run_le run
  have hnext := h.lt_next layout steps run hlo hhi
  have hnext_le : next stride.toNat e p ≤ 1024 * e := next_le (by omega)
  have hblock : (next stride.toNat e p + 1023) / 1024 = e := by omega
  have hcount := blocksBelow_run run hlo hhi
  have hbelow : blocksBelow installed e ≤ e := Nat.count_le _
  have hatMost := h.atMost
  have hsize : (BitVec.ofNat 32 (1024 * ((1024 * e - p) / 1024))).toNat =
      1024 * ((1024 * e - p) / 1024) := toNat_ofNat_of_lt (by omega)
  have htotal : (total + BitVec.ofNat 32 (1024 * ((1024 * e - p) / 1024))).toNat =
      total.toNat + 1024 * ((1024 * e - p) / 1024) := by
    rw [BitVec.toNat_add, hsize]
    exact Nat.mod_eq_of_lt (by omega)
  refine ⟨by omega, dvd_next h.dvd, by omega,
    fun a' e' run' => h.clear_next layout run (by omega) hnext run', fun r hr => ?_, ?_, ?_, ?_,
    fun aligned => ?_⟩
  · cases List.mem_append.mp hr with
    | inl hold =>
        obtain ⟨e', hstop, hle, hbehind⟩ := h.behind r hold
        exact ⟨e', hstop, hle, by omega⟩
    | inr hnew =>
        rw [List.mem_singleton.mp hnew]
        refine ⟨e, Bool.eq_false_of_not_eq_true run.stop, ?_, hnext⟩
        rw [hsize, toNat_ofNat_of_lt h.lt]
        omega
  · rw [htotal, h.sum, List.map_append, List.sum_append, List.map_singleton, List.sum_singleton,
      hsize]
  · refine List.pairwise_append.mpr ⟨h.once, List.pairwise_singleton _ _, ?_⟩
    intro r hr r' hr' x _
    rw [List.mem_singleton.mp hr']
    exact h.apart run hlo hhi (by omega) hr x
  · rw [htotal, hblock, hcount]
    omega
  · rw [htotal, hblock, hcount, h.exact aligned]
    omega

/-- At the top the count is complete. -/
theorem Progress.complete (h : Progress stride.toNat installed p total regions)
    (layout : Layout stride top installed m) (hp : top.toNat ≤ p) :
    CountedOnce stride.toNat installed total regions := by
  have hp' := h.lt
  have hall : blocksBelow installed (2 ^ 22) = blocksBelow installed ((p + 1023) / 1024) :=
    count_gap (by omega) fun b hlo _ hb => by
      have hbelow := layout.below b hb
      omega
  refine ⟨h.sum, h.once, ?_, fun aligned => ?_⟩
  · rw [hall]
    exact h.atMost
  · rw [hall]
    exact h.exact aligned

theorem StepsOver.countsOnce (steps : StepsOver stride.toNat top.toNat installed)
    (layout : Layout stride top installed m) : CountsOnce stride top installed m := by
  have positive := layout.positive
  refine Total.loop (fun v _ => 2 ^ 32 - v.i.toNat)
    (I := fun v s => HasBlocks installed s ∧ ∃ p, v.i = BitVec.ofNat 32 p ∧
      Progress stride.toNat installed p v.total v.regions) ?_
    ⟨layout.memory, 0, rfl, Progress.start⟩
  rintro ⟨i, total, regions⟩ s ⟨hs, p, rfl, h⟩
  have hcloser : ∀ p', p < p' → p' < 2 ^ 32 →
      2 ^ 32 - (BitVec.ofNat 32 p').toNat < 2 ^ 32 - (BitVec.ofNat 32 p).toNat := by
    intro p' hlt hp'
    rw [toNat_ofNat_of_lt h.lt, toNat_ofNat_of_lt hp']
    omega
  by_cases hp : p < top.toNat
  · by_cases hhit : Hit installed p
    · obtain ⟨a, e, run, hlo, hhi⟩ := steps.run_of_hit layout h.dvd hp hhit
      obtain ⟨hlt, hnext⟩ := h.hit layout steps run hlo hhi
      have hend := layout.run_le run
      have htop := top.isLt
      obtain ⟨t, hpass, ht⟩ := scanPass_hit layout.last hs hp
        (counted_of_run (layout.run_seen run) hlo hhi) (by omega) (by omega)
      exact ⟨_, t, hpass, ⟨ht, _, rfl, hnext⟩, hcloser _ hlt hnext.lt⟩
    · obtain ⟨t, hpass, ht⟩ := scanPass_miss layout.last hs hp hhit
      have hnext := h.miss layout hp hhit
      exact ⟨_, t, hpass, ⟨ht, _, rfl, hnext⟩, hcloser _ (by omega) hnext.lt⟩
  · refine ⟨.done (total, regions), s, ?_, h.complete layout (Nat.le_of_not_lt hp)⟩
    have hstop : ¬ BitVec.ofNat 32 p < top := by
      rw [BitVec.lt_def, toNat_ofNat_of_lt h.lt]
      exact hp
    rw [scanPass, if_neg hstop]
    exact returns_pure.mpr ⟨rfl, rfl⟩

end Progress

/-- `probeAll` terminates and counts every byte of RAM at most once, and all of them where the
regions are aligned, exactly when the scan steps over each region and does not come round to
block 0. -/
theorem countsOnce_iff {stride top : U32} {installed : Nat → Bool} {m : CellMemory}
    (layout : Layout stride top installed m) :
    CountsOnce stride top installed m ↔ StepsOver stride.toNat top.toNat installed :=
  ⟨fun h => h.stepsOver layout, fun steps => steps.countsOnce layout⟩

/-! ### Strides of 1 KB and 2 KB -/

/-- Memory of zeros with these blocks. -/
def blockMemory (installed : Nat → Bool) : CellMemory where
  cell a :=
    { value := 0
      writable := if installed (a.toNat / 1024) then BitVec.allOnes 8 else 0
      clears := 0
      apart := BitVec.and_zero }
  plain _ := rfl

/-- A stride of 1 KB steps over every region. -/
theorem stepsOver_kb {top : Nat} {installed : Nat → Bool} (htop : top + 0x400 < 2 ^ 32) :
    StepsOver 0x400 top installed where
  runs a e _ hhi := by
    rw [next]
    omega
  wraps _ i _ hi := by omega

/-- A region of 2 KB and one of 1 KB. -/
def twoRegions (b : Nat) : Bool := b = 0 ∨ b = 1 ∨ b = 3

theorem countsOnce_iff_twoRegions :
    CountsOnce 0x400 0x1000 twoRegions (blockMemory twoRegions) :=
  (countsOnce_iff ⟨by decide, by decide, fun b hb => by
    have hb := of_decide_eq_true hb
    show 1024 * (b + 1) ≤ 4096
    omega, fun _ => rfl⟩).mpr (stepsOver_kb (by decide))

/-- A stride of 2 KB stays at a region of 1 KB. -/
theorem countsOnce_fails : ¬ ∀ (stride top : U32) (installed : Nat → Bool) (m : CellMemory),
    Layout stride top installed m → CountsOnce stride top installed m := by
  intro h
  have layout : Layout 0x800 0x1000 (fun b => b = 0) (blockMemory fun b => b = 0) :=
    ⟨by decide, by decide, fun b hb => by
      obtain rfl := of_decide_eq_true hb
      decide, fun _ => rfl⟩
  have steps := (h _ _ _ _ layout).stepsOver layout
  have run : IsRun (fun b => decide (b = 0) = true) 0 1 := by
    refine ⟨by decide, fun b _ hb => ?_, by decide, .inl rfl⟩
    exact decide_eq_true (Nat.lt_one_iff.mp hb)
  exact absurd (steps.runs 0 1 run (by decide)) (by decide)

end MyBios.ProbeAll
