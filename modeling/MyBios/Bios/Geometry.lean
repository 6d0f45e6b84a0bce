import Mathlib.Tactic.IntervalCases
import MyBios.Bios.Disk

/-!
The geometry that INT 13h reports against the sectors it addresses.

A drive with geometry `g` has sector `g.sector c h s` at cylinder `c`, head `h`,
sector `s`. The LBA path of AH=02/03 computes the same number with one head too
many, and AH=08 reports the number of heads where the highest head is meant, and
the number of cylinders modulo 1024 where the highest cylinder is meant.

* `paths_agree_iff`: the LBA path and the CHS path address the same sector on
  cylinder 0 only.
* `stays_on_disk_iff`: the reported addresses all stay on the disk only if the
  cylinder count was cut off by the 10 bits of the reply.
-/

namespace MyBios

variable {frame reply : ItrFrameRealMode} {info : AtaDrive}

/-! ### Packing and unpacking CX -/

theorem toNat_topBits (cl : U8) : (cl &&& 0xC0).toNat = 64 * (cl.toNat / 64) := by
  revert cl
  decide

theorem toNat_int13Cylinder :
    (int13Cylinder frame).toNat = frame.ch.toNat + 256 * (frame.cl.toNat / 64) := by
  have hch := frame.ch.isLt
  have hcl := frame.cl.isLt
  rw [int13Cylinder, BitVec.toNat_or, BitVec.toNat_shiftLeft, BitVec.toNat_setWidth,
    BitVec.toNat_setWidth, toNat_topBits, Nat.shiftLeft_eq]
  have hmod : 64 * (frame.cl.toNat / 64) % 2 ^ 32 * 2 ^ 2 % 2 ^ 32 =
      2 ^ 8 * (frame.cl.toNat / 64) := by omega
  rw [hmod, Nat.mod_eq_of_lt (by omega), Nat.or_comm, ← Nat.two_pow_add_eq_or_of_lt hch]
  omega

theorem toNat_int13Sector : (int13Sector frame).toNat = frame.cl.toNat % 64 := by
  have hmask : (0x3F : U8).toNat = 2 ^ 6 - 1 := rfl
  rw [int13Sector, BitVec.toNat_and, hmask, Nat.and_two_pow_sub_one_eq_mod]

theorem int13Cylinder_lt : (int13Cylinder frame).toNat < 1024 := by
  have hch := frame.ch.isLt
  have hcl := frame.cl.isLt
  rw [toNat_int13Cylinder]
  omega

theorem int13Sector_lt : (int13Sector frame).toNat < 64 := by
  rw [toNat_int13Sector]
  omega

/-! ### The computed block address -/

def AtaDrive.geometry (info : AtaDrive) : Geometry :=
  ⟨info.cylinders.toNat, info.heads.toNat, info.sectors.toNat⟩

/-- 1 to 16 heads and 1 to 63 sectors. -/
structure Geometry.Standard (g : Geometry) : Prop where
  heads_pos : 1 ≤ g.heads
  heads_le : g.heads ≤ 16
  sectors_pos : 1 ≤ g.sectors
  sectors_le : g.sectors ≤ 63

/-- What the registers of INT 13h can address: heads up to 255, sectors up to 63. -/
structure Geometry.Addressable (g : Geometry) : Prop where
  heads_pos : 1 ≤ g.heads
  heads_le : g.heads ≤ 255
  sectors_pos : 1 ≤ g.sectors
  sectors_le : g.sectors ≤ 63

theorem Geometry.Standard.addressable {g : Geometry} (h : g.Standard) : g.Addressable :=
  ⟨h.heads_pos, Nat.le_trans h.heads_le (by decide), h.sectors_pos, h.sectors_le⟩

/-- The tracks in front of a request, with one head more than the drive has. -/
theorem Geometry.Addressable.tracks_le {g : Geometry} (hg : g.Addressable) :
    (int13Cylinder frame).toNat * (g.heads + 1) + frame.dh.toNat ≤ 1023 * 256 + 255 := by
  have hC : (int13Cylinder frame).toNat < 1024 := int13Cylinder_lt
  have hH := frame.dh.isLt
  have hheads := hg.heads_le
  have cylinders : (int13Cylinder frame).toNat * (g.heads + 1) ≤ 1023 * 256 :=
    Nat.mul_le_mul (by omega) (by omega)
  omega

theorem Geometry.Addressable.blocks_le {g : Geometry} (hg : g.Addressable) :
    ((int13Cylinder frame).toNat * (g.heads + 1) + frame.dh.toNat) * g.sectors ≤
      (1023 * 256 + 255) * 63 :=
  Nat.mul_le_mul hg.tracks_le hg.sectors_le

/-- The number that the LBA path computes: one head more than the drive has. -/
theorem toNat_int13Lba (hg : info.geometry.Addressable) (hs : 1 ≤ (int13Sector frame).toNat) :
    (int13Lba info frame).toNat =
      ((int13Cylinder frame).toNat * (info.geometry.heads + 1) + frame.dh.toNat) *
        info.geometry.sectors + (int13Sector frame).toNat - 1 := by
  have hS : (int13Sector frame).toNat < 64 := int13Sector_lt
  have hheads := hg.heads_le
  have hsectors := hg.sectors_le
  have htracks : (int13Cylinder frame).toNat * (info.geometry.heads + 1) + frame.dh.toNat ≤
      1023 * 256 + 255 := hg.tracks_le
  have hblocks : ((int13Cylinder frame).toNat * (info.geometry.heads + 1) + frame.dh.toNat) *
      info.geometry.sectors ≤ (1023 * 256 + 255) * 63 := hg.blocks_le
  simp only [AtaDrive.geometry] at hheads hsectors htracks hblocks
  -- no step of the 32-bit computation wraps
  have heads1 : (info.heads.setWidth 32 + 1 : U32).toNat = info.heads.toNat + 1 := by
    rw [BitVec.toNat_add, BitVec.toNat_setWidth]
    show (_ + 1) % 2 ^ 32 = _
    omega
  have cylinders : (int13Cylinder frame * (info.heads.setWidth 32 + 1)).toNat =
      (int13Cylinder frame).toNat * (info.heads.toNat + 1) := by
    rw [BitVec.toNat_mul_of_lt (by rw [heads1]; omega), heads1]
  have tracks : (int13Cylinder frame * (info.heads.setWidth 32 + 1) +
      (int13Head frame).setWidth 32).toNat =
      (int13Cylinder frame).toNat * (info.heads.toNat + 1) + frame.dh.toNat := by
    rw [BitVec.toNat_add, cylinders, BitVec.toNat_setWidth, int13Head]
    omega
  have sectors : (info.sectors.setWidth 32).toNat = info.sectors.toNat := by
    rw [BitVec.toNat_setWidth]
    omega
  have product : ((int13Cylinder frame * (info.heads.setWidth 32 + 1) +
      (int13Head frame).setWidth 32) * info.sectors.setWidth 32).toNat =
      ((int13Cylinder frame).toNat * (info.heads.toNat + 1) + frame.dh.toNat) *
        info.sectors.toNat := by
    rw [BitVec.toNat_mul_of_lt (by rw [tracks, sectors]; omega), tracks, sectors]
  have sum : ((int13Cylinder frame * (info.heads.setWidth 32 + 1) +
      (int13Head frame).setWidth 32) * info.sectors.setWidth 32 +
      (int13Sector frame).setWidth 32).toNat =
      ((int13Cylinder frame).toNat * (info.heads.toNat + 1) + frame.dh.toNat) *
        info.sectors.toNat + (int13Sector frame).toNat := by
    rw [BitVec.toNat_add, product, BitVec.toNat_setWidth]
    omega
  rw [int13Lba, BitVec.toNat_sub_of_le (by rw [BitVec.le_def, sum]; show 1 ≤ _; omega), sum]
  rfl

theorem int13Lba_lt (hg : info.geometry.Addressable) (hs : 1 ≤ (int13Sector frame).toNat) :
    (int13Lba info frame).toNat < 2 ^ 28 := by
  have hS : (int13Sector frame).toNat < 64 := int13Sector_lt
  have hblocks : ((int13Cylinder frame).toNat * (info.geometry.heads + 1) + frame.dh.toNat) *
      info.geometry.sectors ≤ (1023 * 256 + 255) * 63 := hg.blocks_le
  rw [toNat_int13Lba hg hs]
  omega

/-! ### The two addressing paths -/

section Paths

variable {δ : Type} [Bus δ] {s t : AtaState δ} {i : Fin 4} {g : Geometry}

/-- The sectors that the commands issued between two states address. -/
def sectorsAddressed (g : Geometry) (i : Fin 4) (s t : AtaState δ) : List Nat :=
  (commandsSince (s.ataDevices i).base s t).map fun task => task.sector g

/-- The first drive: its geometry, whether it takes LBA, and its channel. -/
structure FirstDrive (s : AtaState δ) (g : Geometry) (lba : Bool) (i : Fin 4) : Prop where
  geometry : (s.devAtaDrives 0).geometry = g
  lba28 : (s.devAtaDrives 0).lba28 = lba
  dev : (s.devAtaDrives 0).dev = some i

/-- A request inside the geometry. -/
structure Geometry.Contains (g : Geometry) (frame : ItrFrameRealMode) : Prop where
  cylinder : (int13Cylinder frame).toNat < g.cylinders
  head : frame.dh.toNat < g.heads
  sector_pos : 1 ≤ (int13Sector frame).toNat
  sector_le : (int13Sector frame).toNat ≤ g.sectors

/-- The sector that a request means. -/
def requested (g : Geometry) (frame : ItrFrameRealMode) : Nat :=
  g.sector (int13Cylinder frame).toNat frame.dh.toNat (int13Sector frame).toNat

/-- The LBA path addresses the number it computes. -/
theorem lba_path {reply : ItrFrameRealMode} (hah : IsTransfer frame) (hdl : frame.dl = 0x80)
    (hg : g.Standard) (hs : 1 ≤ (int13Sector frame).toNat) (hd : FirstDrive s g true i)
    (h : (biosHandleDiskInterrupt frame).Returns s reply t) :
    sectorsAddressed g i s t = [(int13Lba (s.devAtaDrives 0) frame).toNat] := by
  obtain ⟨-, c, hrun⟩ := (transfer_reply hah hdl).mp h
  rw [hd.dev] at hrun
  have hcommands : commandsSince (s.ataDevices i).base s t = [_] := Transfer.run_command hrun
  rw [sectorsAddressed, hcommands, List.map_singleton]
  simp only [int13Transfer, Transfer.task, hd.lba28, if_true]
  rw [sector_lbaTaskfile (int13Lba_lt (by rw [hd.geometry]; exact hg.addressable) hs)]

/-- The CHS path addresses the sector that is meant. -/
theorem chs_path {reply : ItrFrameRealMode} (hah : IsTransfer frame) (hdl : frame.dl = 0x80)
    (hg : g.Standard) (hin : g.Contains frame) (hd : FirstDrive s g false i)
    (h : (biosHandleDiskInterrupt frame).Returns s reply t) :
    sectorsAddressed g i s t = [requested g frame] := by
  obtain ⟨-, c, hrun⟩ := (transfer_reply hah hdl).mp h
  have hS : (int13Sector frame).toNat < 64 := int13Sector_lt
  have hwidth : ((int13Sector frame).setWidth 16).toNat = (int13Sector frame).toNat := by
    rw [BitVec.toNat_setWidth]
    omega
  rw [hd.dev] at hrun
  have hcommands : commandsSince (s.ataDevices i).base s t = [_] := Transfer.run_command hrun
  rw [sectorsAddressed, hcommands, List.map_singleton]
  simp only [int13Transfer, Transfer.task, hd.lba28]
  have := hin.head
  have := hg.heads_le
  have hC : (int13Cylinder frame).toNat < 1024 := int13Cylinder_lt
  rw [if_neg (by decide), sector_chsTaskfile (by rw [int13Head]; omega) (by omega) (by omega),
    hwidth, int13Head, requested]

/-- One head too many is a difference of `C * sectors` blocks. -/
theorem lba_eq_requested_iff (hg : g.Standard) (hs : 1 ≤ (int13Sector frame).toNat) :
    ((int13Cylinder frame).toNat * (g.heads + 1) + frame.dh.toNat) * g.sectors +
      (int13Sector frame).toNat - 1 = requested g frame ↔ (int13Cylinder frame).toNat = 0 := by
  have hpos := hg.sectors_pos
  have hsplit : ((int13Cylinder frame).toNat * (g.heads + 1) + frame.dh.toNat) * g.sectors =
      ((int13Cylinder frame).toNat * g.heads + frame.dh.toNat) * g.sectors +
        (int13Cylinder frame).toNat * g.sectors := by
    rw [Nat.mul_succ, Nat.add_right_comm, Nat.add_mul]
  rw [requested, Geometry.sector, hsplit]
  constructor
  · intro h
    have hzero : (int13Cylinder frame).toNat * g.sectors = 0 := by omega
    exact (Nat.mul_eq_zero.mp hzero).resolve_right (by omega)
  · intro h
    simp [h]

/-- A run of the LBA path and a run of the CHS path address the same sector, and
the number the LBA path computes is the sector that the request means. -/
structure PathsAgree (g : Geometry) (frame : ItrFrameRealMode) (i : Fin 4) (s t : AtaState δ)
    (i' : Fin 4) (s' t' : AtaState δ) : Prop where
  same : sectorsAddressed g i s t = sectorsAddressed g i' s' t'
  lba : (int13Lba (s.devAtaDrives 0) frame).toNat = requested g frame

/-- The two paths agree on cylinder 0 and on no other. -/
theorem paths_agree_iff {reply reply' : ItrFrameRealMode} {i' : Fin 4} {s' t' : AtaState δ}
    (hah : IsTransfer frame) (hdl : frame.dl = 0x80) (hg : g.Standard) (hin : g.Contains frame)
    (hd : FirstDrive s g true i) (h : (biosHandleDiskInterrupt frame).Returns s reply t)
    (hd' : FirstDrive s' g false i')
    (h' : (biosHandleDiskInterrupt frame).Returns s' reply' t') :
    PathsAgree g frame i s t i' s' t' ↔ int13Cylinder frame = 0 := by
  have hlba := lba_path hah hdl hg hin.sector_pos hd h
  have hchs := chs_path hah hdl hg hin hd' h'
  have hgeometry : (s.devAtaDrives 0).geometry.Standard := by rw [hd.geometry]; exact hg
  have hnumber := toNat_int13Lba hgeometry.addressable hin.sector_pos
  rw [hd.geometry] at hnumber
  have hstride : (int13Lba (s.devAtaDrives 0) frame).toNat = requested g frame ↔
      int13Cylinder frame = 0 := by
    rw [hnumber, lba_eq_requested_iff hg hin.sector_pos]
    exact ⟨fun h => BitVec.eq_of_toNat_eq h, fun h => by rw [h]; rfl⟩
  rw [← hstride]
  constructor
  · exact PathsAgree.lba
  · intro heq
    exact ⟨by rw [hlba, hchs, heq], heq⟩

theorem smallMachine_first (lba : Bool) : FirstDrive (smallMachine lba) ⟨4, 4, 4⟩ lba 0 := by
  cases lba <;> exact ⟨by decide, by decide, rfl⟩

/-- On cylinder 0 the two paths read the same sector. -/
theorem paths_agree_iff_zero :
    ∃ t t', PathsAgree ⟨4, 4, 4⟩ (readRequest 0) 0 (smallMachine true) t 0 (smallMachine false)
      t' := by
  have hah : IsTransfer (readRequest 0) := .inl (by decide)
  have hdl : (readRequest 0).dl = 0x80 := by decide
  obtain ⟨t, h⟩ := int13_returns (s := smallMachine true) hah hdl rfl
    ⟨rfl, by decide, by decide, by decide⟩
  obtain ⟨t', h'⟩ := int13_returns (s := smallMachine false) hah hdl rfl
    ⟨rfl, by decide, by decide, by decide⟩
  exact ⟨t, t', (paths_agree_iff hah hdl ⟨by decide, by decide, by decide, by decide⟩
    ⟨by decide, by decide, by decide, by decide⟩ (smallMachine_first true) h
    (smallMachine_first false) h').mpr (by decide)⟩

/-- On cylinder 1 they do not. -/
theorem paths_agree_fails :
    ¬ ∀ (s t s' t' : AtaState Disk) (reply reply' frame : ItrFrameRealMode) (g : Geometry)
        (i i' : Fin 4), IsTransfer frame → frame.dl = 0x80 → g.Standard → g.Contains frame →
      FirstDrive s g true i → (biosHandleDiskInterrupt frame).Returns s reply t →
      FirstDrive s' g false i' → (biosHandleDiskInterrupt frame).Returns s' reply' t' →
      PathsAgree g frame i s t i' s' t' := by
  intro hall
  have hah : IsTransfer (readRequest 1) := .inl (by decide)
  have hdl : (readRequest 1).dl = 0x80 := by decide
  obtain ⟨t, h⟩ := int13_returns (s := smallMachine true) hah hdl rfl
    ⟨rfl, by decide, by decide, by decide⟩
  obtain ⟨t', h'⟩ := int13_returns (s := smallMachine false) hah hdl rfl
    ⟨rfl, by decide, by decide, by decide⟩
  have agree := hall _ _ _ _ _ _ _ ⟨4, 4, 4⟩ 0 0 hah hdl
    ⟨by decide, by decide, by decide, by decide⟩
    ⟨by decide, by decide, by decide, by decide⟩ (smallMachine_first true) h
    (smallMachine_first false) h'
  exact absurd agree.lba (by decide)

end Paths

/-! ### The reported geometry -/

section Reported

/-- An address inside what the reply of AH=08 reports: no cylinder or head above
the reported ones, and a sector from 1 to the reported number. -/
structure Admits (reply frame : ItrFrameRealMode) : Prop where
  cylinder : (int13Cylinder frame).toNat ≤ (int13Cylinder reply).toNat
  head : frame.dh.toNat ≤ reply.dh.toNat
  sector_pos : 1 ≤ (int13Sector frame).toNat
  sector_le : (int13Sector frame).toNat ≤ (int13Sector reply).toNat

theorem toNat_packCl (sectors : Nat) (h : sectors < 64) (top : Nat) :
    sectors ||| 64 * top = sectors + 64 * top := by
  rw [Nat.or_comm, Nat.add_comm]
  exact (Nat.two_pow_add_eq_or_of_lt (i := 6) h top).symm

theorem ch_parametersReply :
    (parametersReply info frame).ch = ((info.cylinders.setWidth 32 : U32) &&& 0xFF).setWidth 8 := by
  simp [parametersReply, ItrFrameRealMode.ch, ItrFrameRealMode.clearCarry, ItrFrameRealMode.setDl,
    ItrFrameRealMode.setDh, ItrFrameRealMode.setCl, ItrFrameRealMode.setCh]

theorem cl_parametersReply :
    (parametersReply info frame).cl = info.sectors.setWidth 8 |||
      ((((info.cylinders.setWidth 32 : U32) >>> 8) &&& 0x3) <<< 6).setWidth 8 := by
  simp [parametersReply, ItrFrameRealMode.cl, ItrFrameRealMode.clearCarry, ItrFrameRealMode.setDl,
    ItrFrameRealMode.setDh, ItrFrameRealMode.setCl, ItrFrameRealMode.setCh]

theorem dh_parametersReply : (parametersReply info frame).dh = info.heads.setWidth 8 := by
  simp [parametersReply, ItrFrameRealMode.dh, ItrFrameRealMode.clearCarry, ItrFrameRealMode.setDl,
    ItrFrameRealMode.setDh]

/-- What the reply reports: cylinders modulo 1024, and the number of heads. -/
theorem toNat_parametersReply (frame : ItrFrameRealMode) (hg : info.geometry.Addressable) :
    (int13Cylinder (parametersReply info frame)).toNat = info.geometry.cylinders % 1024 ∧
      (parametersReply info frame).dh.toNat = info.geometry.heads ∧
      (int13Sector (parametersReply info frame)).toNat = info.geometry.sectors := by
  have hheads := hg.heads_le
  have hsectors := hg.sectors_le
  simp only [AtaDrive.geometry] at hheads hsectors ⊢
  have hcylinders := info.cylinders.isLt
  have hbyte : (0xFF : U32).toNat = 2 ^ 8 - 1 := rfl
  have htwo : (0x3 : U32).toNat = 2 ^ 2 - 1 := rfl
  have hch : (parametersReply info frame).ch.toNat = info.cylinders.toNat % 256 := by
    rw [ch_parametersReply, BitVec.toNat_setWidth, BitVec.toNat_and, BitVec.toNat_setWidth, hbyte,
      Nat.and_two_pow_sub_one_eq_mod]
    omega
  have hcl : (parametersReply info frame).cl.toNat =
      info.sectors.toNat + 64 * (info.cylinders.toNat / 256 % 4) := by
    rw [cl_parametersReply, BitVec.toNat_or, BitVec.toNat_setWidth, BitVec.toNat_setWidth,
      BitVec.toNat_shiftLeft, BitVec.toNat_and, BitVec.toNat_ushiftRight, BitVec.toNat_setWidth,
      htwo, Nat.and_two_pow_sub_one_eq_mod, Nat.shiftRight_eq_div_pow, Nat.shiftLeft_eq,
      ← toNat_packCl _ (by omega)]
    congr 1 <;> omega
  have hdh : (parametersReply info frame).dh.toNat = info.heads.toNat := by
    rw [dh_parametersReply, BitVec.toNat_setWidth]
    omega
  rw [toNat_int13Cylinder, toNat_int13Sector, hch, hcl, hdh]
  omega

/-- Every address the reply admits is translated to a block of the disk. -/
def StaysOnDisk (info : AtaDrive) (reply : ItrFrameRealMode) : Prop :=
  ∀ frame, IsTransfer frame → frame.dl = 0x80 → Admits reply frame →
    (int13Lba info frame).toNat < info.blocks28.toNat

/-- The highest admitted block is below `cylinders * heads * sectors` only if the
reported cylinders were cut off. -/
theorem corner_iff {c h : Nat} (hpos : 1 ≤ h) (hle : h ≤ 16) (hc : c < 2 ^ 16) :
    (c % 1024 + 1) * (h + 1) ≤ c * h ↔ 1024 ≤ c ∧ ¬ (c = 2047 ∧ h = 1) := by
  interval_cases h <;> omega

/-- The block just behind the corner cylinder `c`, head `h`, sector `n`. -/
theorem corner_succ (c h n : Nat) : (c * (h + 1) + h) * n + n = (c + 1) * (h + 1) * n := by
  rw [← Nat.succ_mul, Nat.succ_mul c (h + 1)]
  rfl

/-- The last address that a reply admits, as a read. -/
def corner (reply : ItrFrameRealMode) : ItrFrameRealMode := (reply.setAh 0x2).setDl 0x80

theorem admits_corner (h : 1 ≤ (int13Sector reply).toNat) : Admits reply (corner reply) := by
  have hcx : int13Cylinder (corner reply) = int13Cylinder reply ∧
      int13Sector (corner reply) = int13Sector reply := ⟨rfl, rfl⟩
  have hdh : (corner reply).dh = reply.dh := hi8_setLo8 _ _
  exact ⟨by rw [hcx.1], by rw [hdh], by rw [hcx.2]; exact h, by rw [hcx.2]⟩

variable {δ : Type} [Bus δ] {s t : AtaState δ} {ask : ItrFrameRealMode}

/-- AH=08 for the first drive. -/
theorem parameters_reply (hah : ask.ah = 0x8)
    (hdl : ask.dl = 0x80) (h : (biosHandleDiskInterrupt ask).Returns s reply t) :
    reply = parametersReply (s.devAtaDrives 0) ask := by
  rw [biosHandleDiskInterrupt, if_pos hah, if_pos hdl] at h
  obtain ⟨info, s', hinfo, hreply⟩ := Prog.returns_bind.mp h
  obtain ⟨rfl, -⟩ := Prog.returns_gets.mp hinfo
  exact (Prog.returns_pure.mp hreply).1

/-- When a caller that stays inside the reply of AH=08 stays on the disk. -/
theorem stays_on_disk_iff (hah : ask.ah = 0x8) (hdl : ask.dl = 0x80)
    (h : (biosHandleDiskInterrupt ask).Returns s reply t)
    (hg : (s.devAtaDrives 0).geometry.Standard)
    (hblocks : (s.devAtaDrives 0).blocks28.toNat =
      (s.devAtaDrives 0).geometry.cylinders * (s.devAtaDrives 0).geometry.heads *
        (s.devAtaDrives 0).geometry.sectors) :
    StaysOnDisk (s.devAtaDrives 0) reply ↔
      1024 ≤ (s.devAtaDrives 0).geometry.cylinders ∧
        ¬ ((s.devAtaDrives 0).geometry.cylinders = 2047 ∧
          (s.devAtaDrives 0).geometry.heads = 1) := by
  have hreply := parameters_reply hah hdl h
  obtain ⟨hC, hH, hS⟩ := toNat_parametersReply ask hg.addressable
  rw [← hreply] at hC hH hS
  have hcyl : (s.devAtaDrives 0).geometry.cylinders < 2 ^ 16 := (s.devAtaDrives 0).cylinders.isLt
  have hpos := hg.sectors_pos
  rw [← corner_iff hg.heads_pos hg.heads_le hcyl]
  have hnumber := fun (frame : ItrFrameRealMode) (hs : 1 ≤ (int13Sector frame).toNat) =>
    toNat_int13Lba hg.addressable hs
  generalize (s.devAtaDrives 0).geometry = g at *
  have hcorner := corner_succ (g.cylinders % 1024) g.heads g.sectors
  constructor
  · intro stays
    have hadmit : Admits reply (corner reply) := admits_corner (by omega)
    have hlt := stays (corner reply) (.inl (hi8_setHi8 _ _)) (lo8_setLo8 _ _) hadmit
    have hcx : int13Cylinder (corner reply) = int13Cylinder reply ∧
        int13Sector (corner reply) = int13Sector reply := ⟨rfl, rfl⟩
    have hdh : (corner reply).dh = reply.dh := hi8_setLo8 _ _
    rw [hnumber _ hadmit.sector_pos, hcx.1, hcx.2, hdh, hC, hH, hS, hblocks] at hlt
    exact Nat.le_of_mul_le_mul_right (by omega) hpos
  · intro hle frame _ _ hadmit
    have hc := hadmit.cylinder
    have hh := hadmit.head
    have hn := hadmit.sector_le
    rw [hC] at hc
    rw [hH] at hh
    rw [hS] at hn
    have htrack : (int13Cylinder frame).toNat * (g.heads + 1) + frame.dh.toNat ≤
        g.cylinders % 1024 * (g.heads + 1) + g.heads :=
      Nat.add_le_add (Nat.mul_le_mul_right _ hc) hh
    have hblock := Nat.mul_le_mul_right g.sectors htrack
    have hend := Nat.mul_le_mul_right g.sectors hle
    rw [hnumber frame hadmit.sector_pos, hblocks]
    omega

/-- A drive whose 1025 cylinders the reply cuts off to 1. -/
def longDrive : AtaDrive :=
  { AtaDrive.empty with
    cylinders := 1025, heads := 4, sectors := 4, blocks28 := 16400
    flags := ataDriveLba28, dev := some 0 }

/-- Ask for the parameters of the first drive. -/
def parametersRequest : ItrFrameRealMode :=
  { ItrFrameRealMode.zeros with eax := 0x0800, edx := 0x0080 }

theorem parameters_returns (info : AtaDrive) (d : Disk) :
    (biosHandleDiskInterrupt parametersRequest).Returns (AtaState.booted d info)
      (parametersReply info parametersRequest) (AtaState.booted d info) := by
  rw [biosHandleDiskInterrupt, if_pos (by decide), if_pos (by decide)]
  exact Prog.returns_bind.mpr ⟨info, _, Prog.returns_gets.mpr ⟨rfl, rfl⟩,
    Prog.returns_pure.mpr ⟨rfl, rfl⟩⟩

theorem stays_on_disk_iff_long :
    StaysOnDisk longDrive (parametersReply longDrive parametersRequest) :=
  (stays_on_disk_iff (by decide) (by decide)
    (parameters_returns longDrive (.blank 0x1F0 ⟨1025, 4, 4⟩))
    ⟨by decide, by decide, by decide, by decide⟩ (by decide)).mpr (by decide)

/-- The reply for 4 cylinders, 4 heads and 4 sectors admits blocks behind the
last one. -/
theorem stays_on_disk_fails :
    ¬ ∀ (s t : AtaState Disk) (ask reply : ItrFrameRealMode), ask.ah = 0x8 → ask.dl = 0x80 →
      (biosHandleDiskInterrupt ask).Returns s reply t →
      (s.devAtaDrives 0).geometry.Standard →
      (s.devAtaDrives 0).blocks28.toNat =
        (s.devAtaDrives 0).geometry.cylinders * (s.devAtaDrives 0).geometry.heads *
          (s.devAtaDrives 0).geometry.sectors →
      StaysOnDisk (s.devAtaDrives 0) reply := by
  intro h
  have stays := h _ _ _ _ (by decide) (by decide)
    (parameters_returns (smallDrive true) (.blank 0x1F0 ⟨4, 4, 4⟩))
    ⟨by decide, by decide, by decide, by decide⟩ (by decide)
  exact absurd (stays (corner (parametersReply (smallDrive true) parametersRequest))
    (.inl (by decide)) (by decide) (admits_corner (by decide))) (by decide)

end Reported

end MyBios
