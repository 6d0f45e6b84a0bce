import MyBios.Chipset.I440fx
import MyBios.Post.Ram

/-!
DRAM behind a memory controller, and what the drivers probe (`detectMirroring` of
`chipsets/um82c480.c` and `chipsets/sis8c460.c`).

A controller may do anything: for every value of its configuration register it
decides which blocks of 32 KB hold data, and which of those are the same cells.
Only how far the memory above 1 MB goes (`DramController.ram`) and which of its blocks
alias (`DramController.Distinct`) matter.

`probeRam_ram`: `probeRam` returns the amount of memory, and does not return where
all blocks hold data. `detectMirroring_total`: `detectMirroring` finds out whether
two of its points below `size` alias.
-/

namespace MyBios.Dram

open Prog

/-- For every configuration: the blocks that hold data, the cells behind a block, and
what is read from a dword where nothing holds data. -/
structure DramController (κ : Type) where
  holds : U8 → Nat → Bool
  cell : U8 → Nat → κ
  floating : U8 → Nat → U32

/-- A chipset with its index register and its other registers, one of which configures
the DRAM, and the contents of the cells. -/
structure Board (dramRegister : U8) (κ : Type) where
  controller : DramController κ
  index : U8
  regs : U8 → U8
  cells : κ → Nat → U32

/-- The number of a block of 32 KB. -/
def block (a : U32) : Nat := a.toNat / 0x8000

/-- The point `0x100000 + k * 0x80000`. -/
def point (k : Nat) : U32 := 0x100000 + 0x80000 * BitVec.ofNat 32 k

namespace DramController

variable {κ : Type}

/-- How many blocks from 1 MB on hold data before the first that does not. The
addresses wrap at 4 GB. -/
def row (ctl : DramController κ) (c : U8) : Nat :=
  (List.range' 0 0x20000).findIdx fun k => !ctl.holds c ((32 + k) % 0x20000)

/-- The memory above 1 MB, in bytes. -/
def ram (ctl : DramController κ) (c : U8) : Nat := 0x8000 * ctl.row c

/-- No two of the points below `limit` alias. -/
def Distinct (ctl : DramController κ) (c : U8) (limit : Nat) : Prop :=
  ∀ k, 0x100000 + 0x80000 * k < limit → ∀ j < k,
    ctl.cell c (block (point j)) ≠ ctl.cell c (block (point k))

end DramController

/-! ### Loads and stores -/

namespace Board

variable {r : U8} {κ : Type}

def config (s : Board r κ) : U8 := s.regs r

/-- The dword that `a` is in. The drivers make aligned accesses only. -/
def readDword (a : U32) (s : Board r κ) : U32 :=
  if s.controller.holds s.config (block a) then
    s.cells (s.controller.cell s.config (block a)) (a.toNat % 0x8000 / 4)
  else s.controller.floating s.config (a.toNat / 4)

/-- A dword with `mask` replaced at the lane of `a`. -/
def withLane (a mask v w : U32) : U32 :=
  (w &&& ~~~(mask <<< (a.toNat % 4 * 8))) ||| (v <<< (a.toNat % 4 * 8))

section Stores

variable [DecidableEq κ]

def writeDword (a v : U32) (s : Board r κ) : Board r κ :=
  if s.controller.holds s.config (block a) then
    let cell := s.controller.cell s.config (block a)
    { s with
      cells := Function.update s.cells cell
        (Function.update (s.cells cell) (a.toNat % 0x8000 / 4) v) }
  else s

instance : Ram (Board r κ) where
  read8 a s := (readDword a s >>> (a.toNat % 4 * 8)).setWidth 8
  read16 a s := (readDword a s >>> (a.toNat % 4 * 8)).setWidth 16
  read32 := readDword
  write8 a v s := writeDword a (withLane a 0xFF (v.setWidth 32) (readDword a s)) s
  write16 a v s := writeDword a (withLane a 0xFFFF (v.setWidth 32) (readDword a s)) s
  write32 := writeDword

end Stores

/-- Select a register and store to it. -/
def outIndexed (reg v : U8) (s : Board r κ) : Board r κ :=
  { s with index := reg, regs := Function.update s.regs reg v }

/-- This controller in this configuration. -/
def Configured (ctl : DramController κ) (c : U8) (s : Board r κ) : Prop :=
  s.controller = ctl ∧ s.config = c

end Board

/-! ### What is probed -/

section Access

open Board

variable {r : U8} {κ : Type} {ctl : DramController κ} {c : U8} {a b v : U32} {s : Board r κ}

theorem Board.Configured.read_holds (h : Configured ctl c s) (hb : ctl.holds c (block b)) :
    readDword b s = s.cells (ctl.cell c (block b)) (b.toNat % 0x8000 / 4) := by
  obtain ⟨rfl, rfl⟩ := h
  exact if_pos hb

theorem Board.Configured.read_floating (h : Configured ctl c s) (hb : ¬ ctl.holds c (block b)) :
    readDword b s = ctl.floating c (b.toNat / 4) := by
  obtain ⟨rfl, rfl⟩ := h
  exact if_neg hb

variable [DecidableEq κ]

theorem Board.Configured.write (h : Configured ctl c s) : Configured ctl c (writeDword a v s) := by
  unfold writeDword
  split
  · exact h
  · exact h

theorem Board.Configured.cells_write (h : Configured ctl c s) (ha : ctl.holds c (block a)) :
    (writeDword a v s).cells = Function.update s.cells (ctl.cell c (block a))
      (Function.update (s.cells (ctl.cell c (block a))) (a.toNat % 0x8000 / 4) v) := by
  obtain ⟨rfl, rfl⟩ := h
  exact congrArg cells (if_pos ha)

/-- A store is read back where it was made. -/
theorem Board.Configured.read_same (h : Configured ctl c s) (ha : ctl.holds c (block a))
    (hb : ctl.holds c (block b)) (hcell : ctl.cell c (block a) = ctl.cell c (block b))
    (hdword : a.toNat % 0x8000 / 4 = b.toNat % 0x8000 / 4) :
    readDword b (writeDword a v s) = v := by
  rw [h.write.read_holds hb, h.cells_write ha, hcell, hdword, Function.update_self,
    Function.update_self]

/-- A store to other cells is not. -/
theorem Board.Configured.read_other (h : Configured ctl c s) (ha : ctl.holds c (block a))
    (hb : ctl.holds c (block b)) (hcell : ctl.cell c (block a) ≠ ctl.cell c (block b)) :
    readDword b (writeDword a v s) = readDword b s := by
  rw [h.write.read_holds hb, h.cells_write ha, Function.update_of_ne (Ne.symm hcell),
    h.read_holds hb]

theorem decoded : Decoded (Configured ctl c : Board r κ → Prop)
    (fun a => ctl.holds c (block a) = true) where
  keep _ _ _ h := h.write
  stored _ _ _ h ha := h.read_same ha ha rfl rfl
  floating _ _ _ h ha := (h.write.read_floating ha).trans (h.read_floating ha).symm

end Access

section Row

variable {κ : Type} {ctl : DramController κ} {c : U8} {k : Nat}

theorem DramController.row_holds (h : k < ctl.row c) : ctl.holds c ((32 + k) % 0x20000) = true := by
  have hk := List.not_of_lt_findIdx h
  rw [List.getElem_range', Nat.zero_add, Nat.one_mul] at hk
  simpa using hk

theorem DramController.row_hole (h : ctl.row c < 0x20000) :
    ctl.holds c ((32 + ctl.row c) % 0x20000) = false := by
  unfold DramController.row at h ⊢
  have hk := List.findIdx_getElem (w := h.trans_eq List.length_range'.symm)
  rw [List.getElem_range', Nat.zero_add, Nat.one_mul] at hk
  simpa using hk

/-- A row is as long as this if its blocks hold data and the next one does not. -/
theorem DramController.row_eq {n : Nat} (hn : n < 0x20000)
    (found : ∀ k < n, ctl.holds c ((32 + k) % 0x20000) = true)
    (hole : ctl.holds c ((32 + n) % 0x20000) = false) : ctl.row c = n := by
  rcases Nat.lt_trichotomy (ctl.row c) n with hlt | heq | hlt
  · have hrow := ctl.row_hole (hlt.trans hn)
    rw [found _ hlt] at hrow
    exact nomatch hrow
  · exact heq
  · have hrow := DramController.row_holds hlt
    rw [hole] at hrow
    exact nomatch hrow

end Row

section Probe

open Board

/-- The points that `probeRam` tests from 1 MB on with this stride: `m` in a block. -/
structure Divides (stride : U32) (m : Nat) : Prop where
  pos : 0 < m
  size : stride.toNat * m = 0x8000
  block : ∀ k, block (testPoint 0x100000 stride k) = (32 + k / m) % 0x20000
  inside : ∀ k, testPoint 0x100000 stride k < 0xffffffff

theorem testPoint_4k (k : Nat) :
    (testPoint 0x100000 0x1000 k).toNat = (0x100000 + 0x1000 * k + 0xFFC) % 2 ^ 32 := by
  rw [testPoint, BitVec.toNat_add, BitVec.toNat_mul, BitVec.toNat_ofNat]
  change (0x100FFC + 0x1000 * (k % 2 ^ 32) % 2 ^ 32) % 2 ^ 32 = _
  omega

theorem testPoint_32k (k : Nat) :
    (testPoint 0x100000 0x8000 k).toNat = (0x100000 + 0x8000 * k + 0x7FFC) % 2 ^ 32 := by
  rw [testPoint, BitVec.toNat_add, BitVec.toNat_mul, BitVec.toNat_ofNat]
  change (0x107FFC + 0x8000 * (k % 2 ^ 32) % 2 ^ 32) % 2 ^ 32 = _
  omega

theorem divides_4k : Divides 0x1000 8 where
  pos := by decide
  size := rfl
  block k := by
    rw [Dram.block, testPoint_4k]
    omega
  inside k := by
    rw [BitVec.lt_def, testPoint_4k]
    change _ < 0xffffffff
    omega

theorem divides_32k : Divides 0x8000 1 where
  pos := by decide
  size := rfl
  block k := by
    rw [Dram.block, testPoint_32k]
    omega
  inside k := by
    rw [BitVec.lt_def, testPoint_32k]
    change _ < 0xffffffff
    omega

variable {r : U8} {κ : Type} [DecidableEq κ] {ctl : DramController κ} {c : U8} {s : Board r κ}
  {stride : U32} {m : Nat}

/-- What is probed is the amount of memory. -/
theorem probeRam_ram (d : Divides stride m) (hs : Configured ctl c s)
    (hrow : ctl.row c < 0x20000) :
    Total (probeRam 0x100000 stride) s fun ram t =>
      ram.toNat = ctl.ram c ∧ Configured ctl c t := by
  have found : ∀ k < m * ctl.row c,
      ctl.holds c (block (testPoint 0x100000 stride k)) = true := by
    intro k hk
    rw [d.block]
    exact DramController.row_holds (Nat.div_lt_of_lt_mul hk)
  have hole : ¬ ctl.holds c (block (testPoint 0x100000 stride (m * ctl.row c))) = true := by
    rw [d.block, Nat.mul_div_cancel_left _ d.pos, DramController.row_hole hrow]
    exact Bool.false_ne_true
  refine (probeRam_total decoded hs (fun k _ => d.inside k) found hole).mono ?_
  rintro ram t ⟨rfl, ht⟩
  refine ⟨?_, ht⟩
  have hsize : stride.toNat * (m * ctl.row c) = 0x8000 * ctl.row c := by
    rw [← Nat.mul_assoc, d.size]
  have hcount : m * ctl.row c < 2 ^ 32 := by
    have hm : m ≤ 0x8000 := Nat.le_of_dvd (by decide) (Dvd.intro_left _ d.size)
    have := Nat.mul_le_mul_right (ctl.row c) hm
    omega
  rw [BitVec.toNat_mul, BitVec.toNat_ofNat, Nat.mod_eq_of_lt hcount, hsize, DramController.ram]
  omega

/-- Where all blocks hold data, the probe does not return. -/
theorem not_returns_probeRam (d : Divides stride m) (hs : Configured ctl c s)
    (hrow : ¬ ctl.row c < 0x20000) {ram : U32} {t : Board r κ} :
    ¬ (probeRam 0x100000 stride).Returns s ram t := by
  refine probeRam_diverges decoded hs d.inside ?_
  intro k
  have hk : k / m % 0x20000 < ctl.row c := by omega
  have hholds := DramController.row_holds hk
  rw [d.block]
  rwa [Nat.add_mod_mod] at hholds

end Probe

/-! ### Mirroring -/

section Mirroring

variable {ρ : Type} [Ram ρ]

/-- `*probe = i;` -/
def markPass (size i : U32) : Prog ρ (Pass U32 Unit) :=
  if i < size then do
    modify (Ram.write32 i i)
    return .again (i + 0x80000)
  else return .done ()

/-- `if (*probe != i) return 1;` -/
def checkPass (size i : U32) : Prog ρ (Pass U32 Bool) :=
  if i < size then do
    let v ← gets (Ram.read32 i)
    if v ≠ i then return .done true
    else return .again (i + 0x80000)
  else return .done false

/-- `detectMirroring` of both drivers: where one has `int i` for `unsigned int i`, `i` wraps and is
compared as `unsigned`. -/
def detectMirroring (size : U32) : Prog ρ Bool := do
  loop (markPass size) 0x100000
  loop (checkPass size) 0x100000

end Mirroring

section Points

variable {k n limit : Nat}

theorem point_toNat (k : Nat) : (point k).toNat = (0x100000 + 0x80000 * k) % 2 ^ 32 := by
  rw [point, BitVec.toNat_add, BitVec.toNat_mul, BitVec.toNat_ofNat]
  change (0x100000 + 0x80000 * (k % 2 ^ 32) % 2 ^ 32) % 2 ^ 32 = _
  omega

theorem point_succ (k : Nat) : point k + 0x80000 = point (k + 1) := by
  rw [point, point, BitVec.ofNat_add, BitVec.mul_add, BitVec.add_assoc]
  rfl

/-- The number of points below `limit`. -/
def points (limit : Nat) : Nat := (limit - 0x100000 + 0x7FFFF) / 0x80000

theorem lt_points : k < points limit ↔ 0x100000 + 0x80000 * k < limit := by
  unfold points
  omega

theorem point_lt {size : U32} (hsize : size.toNat ≤ 0xFFF80000) (hk : k < points size.toNat) :
    point k < size := by
  rw [lt_points] at hk
  rw [BitVec.lt_def, point_toNat]
  omega

theorem not_point_lt {size : U32} (hsize : size.toNat ≤ 0xFFF80000) :
    ¬ point (points size.toNat) < size := by
  rw [BitVec.lt_def, point_toNat]
  unfold points
  omega

/-- Where `size` is within the last 512 KB of 4 GB, the points never leave it. -/
theorem point_lt_always {size : U32} (hsize : ¬ size.toNat ≤ 0xFFF80000) (k : Nat) :
    point k < size := by
  rw [BitVec.lt_def, point_toNat]
  omega

theorem point_inj {j : Nat} (hsize : limit ≤ 0xFFF80000) (hj : j < points limit)
    (hk : k < points limit) (h : point j = point k) : j = k := by
  have heq := congrArg BitVec.toNat h
  rw [lt_points] at hj hk
  rw [point_toNat, point_toNat] at heq
  omega

theorem point_dword (k : Nat) : (point k).toNat % 0x8000 / 4 = 0 := by
  rw [point_toNat]
  omega

end Points

section Detect

open Board

variable {r : U8} {κ : Type} [DecidableEq κ] {ctl : DramController κ} {c : U8} {s : Board r κ}
  {size : U32}

/-- What the first loop leaves: a point whose cells no later point shares is marked. -/
def Marked (ctl : DramController κ) (c : U8) (n : Nat) (s : Board r κ) : Prop :=
  ∀ j < n, (∀ i, j < i → i < n → ctl.cell c (block (point i)) ≠ ctl.cell c (block (point j))) →
    readDword (point j) s = point j

theorem mark_total (hs : Configured ctl c s) (hsize : size.toNat ≤ 0xFFF80000)
    (hholds : ∀ k < points size.toNat, ctl.holds c (block (point k)) = true) :
    Total (loop (markPass size) 0x100000) s fun _ t =>
      Configured ctl c t ∧ Marked ctl c (points size.toNat) t := by
  refine Total.loop_counted (I := fun k t => Configured ctl c t ∧ Marked ctl c k t)
    (n := points size.toNat) (b := point) ?_ ?_ ⟨hs, fun j hj => absurd hj (Nat.not_lt_zero j)⟩
  · rintro k t hk ⟨ht, hmarked⟩
    refine ⟨writeDword (point k) (point k) t, ?_, ht.write, ?_⟩
    · rw [markPass, if_pos (point_lt hsize hk), ← point_succ]
      simp [Ram.write32]
    · intro j hj hlast
      rcases Nat.lt_succ_iff_lt_or_eq.mp hj with hlt | rfl
      · have hother := hlast k hlt (Nat.lt_succ_self k)
        rw [ht.read_other (hholds k hk) (hholds j (hlt.trans hk)) hother]
        exact hmarked j hlt fun i hji hik => hlast i hji (Nat.lt_succ_of_lt hik)
      · exact ht.read_same (hholds j hk) (hholds j hk) rfl rfl
  · rintro t ht
    refine ⟨(), t, ?_, ht⟩
    rw [markPass, if_neg (not_point_lt hsize)]
    exact returns_pure.mpr ⟨rfl, rfl⟩

/-- The second loop reads all marks, up to the first that is wrong. -/
theorem check_total (hsize : size.toNat ≤ 0xFFF80000) :
    Total (loop (checkPass size) 0x100000) s fun mirrored t => t = s ∧
      (mirrored = false ↔ ∀ j < points size.toNat, readDword (point j) s = point j) := by
  have again : ∀ k < points size.toNat, readDword (point k) s = point k →
      (checkPass size (point k)).Returns s (.again (point (k + 1))) s := by
    intro k hk hread
    rw [checkPass, if_pos (point_lt hsize hk), ← point_succ]
    simp [Ram.read32, hread]
  by_cases hall : ∀ j < points size.toNat, readDword (point j) s = point j
  · refine Total.loop_counted (I := fun _ t => t = s) (n := points size.toNat) (b := point)
      ?_ ?_ rfl
    · rintro k t hk rfl
      exact ⟨t, again k hk (hall k hk), rfl⟩
    · rintro t rfl
      refine ⟨false, t, ?_, rfl, iff_of_true rfl hall⟩
      rw [checkPass, if_neg (not_point_lt hsize)]
      exact returns_pure.mpr ⟨rfl, rfl⟩
  · have hwrong : ∃ j, j < points size.toNat ∧ readDword (point j) s ≠ point j := by
      simpa only [not_forall, exists_prop] using hall
    classical
    obtain ⟨hlt, hread⟩ := Nat.find_spec hwrong
    refine Total.loop_counted (I := fun _ t => t = s) (n := Nat.find hwrong) (b := point)
      ?_ ?_ rfl
    · rintro k t hk rfl
      have hright := Nat.find_min hwrong hk
      exact ⟨t, again k (hk.trans hlt) (not_not.mp fun h => hright ⟨hk.trans hlt, h⟩), rfl⟩
    · rintro t rfl
      refine ⟨true, t, ?_, rfl, iff_of_false Bool.true_eq_false.mp hall⟩
      rw [checkPass, if_pos (point_lt hsize hlt)]
      simp [Ram.read32, hread]

/-- The detector says whether two of the points below `size` alias. -/
theorem detectMirroring_total (hs : Configured ctl c s) (hsize : size.toNat ≤ 0xFFF80000)
    (hholds : ∀ k < points size.toNat, ctl.holds c (block (point k)) = true) :
    Total (detectMirroring size) s fun mirrored t =>
      (mirrored = false ↔ ctl.Distinct c size.toNat) ∧ Configured ctl c t := by
  refine Total.bind (mark_total hs hsize hholds) ?_
  intro _ t ht
  obtain ⟨ht, hmarked⟩ := ht
  refine (check_total hsize).mono ?_
  rintro mirrored u ⟨rfl, hmirrored⟩
  refine ⟨hmirrored.trans ?_, ht⟩
  constructor
  · intro hread k hk j hjk hcell
    have hk' := lt_points.mpr hk
    have hj' := hjk.trans hk'
    have hmark : point j = point k := by
      rw [← hread j hj', ← hread k hk', ht.read_holds (hholds j hj'),
        ht.read_holds (hholds k hk'), hcell, point_dword, point_dword]
    exact absurd (point_inj hsize hj' hk' hmark) (Nat.ne_of_lt hjk)
  · intro hdistinct j hj
    exact hmarked j hj fun i hji hi => Ne.symm (hdistinct i (lt_points.mp hi) j hji)

/-- Where `size` is within the last 512 KB of 4 GB, the detector does not return. -/
theorem not_returns_detectMirroring (hsize : ¬ size.toNat ≤ 0xFFF80000) {mirrored : Bool}
    {t : Board r κ} : ¬ (detectMirroring size).Returns s mirrored t := by
  intro h
  obtain ⟨_, u, hmark, -⟩ := returns_bind.mp h
  refine not_returns_loop (I := fun i _ => ∃ k, i = point k) ?_ ⟨0, rfl⟩ hmark
  rintro _ v ⟨k, rfl⟩
  refine ⟨_, writeDword (point k) (point k) v, ?_, k + 1, rfl⟩
  rw [markPass, if_pos (point_lt_always hsize k), ← point_succ]
  exact returns_bind.mpr ⟨(), _, returns_modify.mpr rfl, returns_pure.mpr ⟨rfl, rfl⟩⟩

end Detect

end MyBios.Dram
