import MyBios.Lib.Numbering
import MyBios.Bios.Geometry

/-!
The addresses of INT 13h as a numbering of blocks.

A request names a cylinder of 10 bits in CH and CL, a head in DH and a sector in CL. The
LBA path reads them as a number with three digits, of bases 1024, `heads + 1` and
`sectors`.

* `registers_inj`, `exists_registers`: the registers and the addresses are in bijection.
* `numbers_chsLba`: the LBA path numbers the addresses, in their order.
* `lba_map`: so the commands that AH=02 and 03 issue reach every block up to the last
  address exactly once, and AH=08 packs CX the way AH=02 and 03 unpack it.
-/

namespace MyBios

/-- A cylinder, a head and a sector. -/
abbrev Chs := (ℕ × ℕ) × ℕ

/-- The order of the addresses: by cylinder, then by head, then by sector. -/
abbrev Chs.Before : Chs → Chs → Prop := Prod.Lex (Prod.Lex (· < ·) (· < ·)) (· < ·)

/-- The address in a request. -/
def requestChs (frame : ItrFrameRealMode) : Chs :=
  (((int13Cylinder frame).toNat, frame.dh.toNat), (int13Sector frame).toNat)

namespace Geometry

variable (g : Geometry)

/-- The addresses: 1024 cylinders, heads 0 to `heads`, sectors 1 to `sectors`. -/
def addresses : Set Chs := {p | p.1.1 < 1024 ∧ p.1.2 ≤ g.heads ∧ 1 ≤ p.2 ∧ p.2 ≤ g.sectors}

/-- The block of an address, as the LBA path counts. -/
def chsLba (p : Chs) : ℕ := (p.1.1 * (g.heads + 1) + p.1.2) * g.sectors + p.2 - 1

/-- The three digits number the addresses. -/
theorem numbers_chsLba :
    Numbers Chs.Before g.addresses (1024 * (g.heads + 1) * g.sectors) g.chsLba := by
  have digits := ((numbers_range 0 1024).prod (numbers_range 0 (g.heads + 1))).prod
    (numbers_range 1 g.sectors)
  apply digits.congr
  · rintro ⟨⟨c, h⟩, n⟩
    simp only [addresses, Set.mem_ofPred_eq, Set.mem_prod]
    omega
  · rintro ⟨⟨c, h⟩, n⟩ ⟨-, -, hn, -⟩
    simp only [chsLba, Nat.sub_zero]
    exact Nat.add_sub_assoc hn _

/-- With the bytes of the registers no step leaves the range of an `int`. -/
theorem chsLba_range {g : Geometry} (hg : g.Addressable) {p : Chs} (hp : p ∈ g.addresses) :
    (p.1.1 * (g.heads + 1) + p.1.2) * g.sectors + p.2 < 2 ^ 31 := by
  obtain ⟨hc, hh, -, hn⟩ := hp
  have hheads := hg.heads_le
  have hsectors := hg.sectors_le
  have track : p.1.1 * (g.heads + 1) ≤ 1023 * 256 := Nat.mul_le_mul (by omega) (by omega)
  have blocks : (p.1.1 * (g.heads + 1) + p.1.2) * g.sectors ≤ (1023 * 256 + 255) * 63 :=
    Nat.mul_le_mul (by omega) hsectors
  omega

end Geometry

/-! ### The registers -/

variable {frame frame' : ItrFrameRealMode} {info : AtaDrive}

/-- CH, CL and DH can be told from the address. -/
theorem registers_inj (h : requestChs frame = requestChs frame') :
    frame.ch = frame'.ch ∧ frame.cl = frame'.cl ∧ frame.dh = frame'.dh := by
  simp only [requestChs, Prod.mk.injEq, toNat_int13Cylinder, toNat_int13Sector] at h
  obtain ⟨⟨hcylinder, hhead⟩, hsector⟩ := h
  have hch := frame.ch.isLt
  have hch' := frame'.ch.isLt
  refine ⟨BitVec.eq_of_toNat_eq ?_, BitVec.eq_of_toNat_eq ?_, BitVec.eq_of_toNat_eq hhead⟩
  · omega
  · omega

/-- A request for an address on the first drive. -/
def chsRequest (ah : U8) (p : Chs) : ItrFrameRealMode :=
  ((((ItrFrameRealMode.zeros.setAh ah).setDh (.ofNat 8 p.1.2)).setDl 0x80).setCh
    (.ofNat 8 (p.1.1 % 256))).setCl (.ofNat 8 (p.1.1 / 256 * 64 + p.2))

theorem chsRequest_call (ah : U8) (p : Chs) :
    (chsRequest ah p).ah = ah ∧ (chsRequest ah p).dl = 0x80 :=
  ⟨hi8_setHi8 _ _, lo8_setLo8 _ _⟩

/-- Every address has its registers. -/
theorem requestChs_chsRequest {g : Geometry} (hg : g.Addressable) {p : Chs}
    (hp : p ∈ g.addresses) (ah : U8) : requestChs (chsRequest ah p) = p := by
  obtain ⟨hc, hh, -, hn⟩ := hp
  have hheads := hg.heads_le
  have hsectors := hg.sectors_le
  have hch : (chsRequest ah p).ch = .ofNat 8 (p.1.1 % 256) :=
    (hi8_setLo8 _ _).trans (hi8_setHi8 _ _)
  have hcl : (chsRequest ah p).cl = .ofNat 8 (p.1.1 / 256 * 64 + p.2) := lo8_setLo8 _ _
  have hdh : (chsRequest ah p).dh = .ofNat 8 p.1.2 := (hi8_setLo8 _ _).trans (hi8_setHi8 _ _)
  rw [requestChs, toNat_int13Cylinder, toNat_int13Sector, hch, hcl, hdh, BitVec.toNat_ofNat,
    BitVec.toNat_ofNat, BitVec.toNat_ofNat]
  refine Prod.ext (Prod.ext ?_ ?_) ?_
  · show p.1.1 % 256 % 2 ^ 8 + 256 * ((p.1.1 / 256 * 64 + p.2) % 2 ^ 8 / 64) = p.1.1
    omega
  · show p.1.2 % 2 ^ 8 = p.1.2
    omega
  · show (p.1.1 / 256 * 64 + p.2) % 2 ^ 8 % 64 = p.2
    omega

/-! ### The map -/

variable {δ : Type} [Bus δ] {s : AtaState δ}

/-- What the first drive's geometry makes of the registers of INT 13h. -/
structure LbaMap (s : AtaState δ) (g : Geometry) : Prop where
  /-- An address is the contents of CH, CL and DH. -/
  registers : ∀ ah, ∀ p ∈ g.addresses, (chsRequest ah p).ah = ah ∧
    (chsRequest ah p).dl = 0x80 ∧ requestChs (chsRequest ah p) = p
  unique : ∀ frame frame', requestChs frame = requestChs frame' →
    frame.ch = frame'.ch ∧ frame.cl = frame'.cl ∧ frame.dh = frame'.dh
  bijection : Set.BijOn g.chsLba g.addresses (Set.Iio (1024 * (g.heads + 1) * g.sectors))
  increasing : ∀ p ∈ g.addresses, ∀ q ∈ g.addresses, Chs.Before p q ↔ g.chsLba p < g.chsLba q
  /-- The arithmetic of the source computes the block, and stays below `2 ^ 31`. -/
  computed : ∀ frame, requestChs frame ∈ g.addresses →
    (int13Lba (s.devAtaDrives 0) frame).toNat = g.chsLba (requestChs frame)
  range : ∀ p ∈ g.addresses, (p.1.1 * (g.heads + 1) + p.1.2) * g.sectors + p.2 < 2 ^ 31
  /-- A request issues one command, for that block. -/
  issued : ∀ (frame reply : ItrFrameRealMode) (t : AtaState δ) (i : Fin 4), IsTransfer frame →
    frame.dl = 0x80 → requestChs frame ∈ g.addresses → (s.devAtaDrives 0).dev = some i →
    (biosHandleDiskInterrupt frame).Returns s reply t →
    ∃ task, commandsSince (s.ataDevices i).base s t = [task] ∧ task.lbaMode = true ∧
      task.lba28 = g.chsLba (requestChs frame)
  /-- The reply of AH=08, unpacked by the rules of AH=02. -/
  packed : ∀ (ask reply : ItrFrameRealMode) (t : AtaState δ), ask.ah = 0x8 → ask.dl = 0x80 →
    (biosHandleDiskInterrupt ask).Returns s reply t →
    (int13Cylinder reply).toNat = g.cylinders % 1024 ∧ (int13Sector reply).toNat = g.sectors

/-- The block of a request, in the arithmetic of the source. -/
theorem int13Lba_eq_chsLba (hg : info.geometry.Addressable)
    (h : requestChs frame ∈ info.geometry.addresses) :
    (int13Lba info frame).toNat = info.geometry.chsLba (requestChs frame) :=
  toNat_int13Lba hg h.2.2.1

/-- INT 13h maps the addresses of an LBA28 drive to its blocks. -/
theorem lba_map {s : AtaState δ} (hlba : (s.devAtaDrives 0).lba28 = true)
    (hg : (s.devAtaDrives 0).geometry.Addressable) : LbaMap s (s.devAtaDrives 0).geometry := by
  have numbers := (s.devAtaDrives 0).geometry.numbers_chsLba
  constructor
  · intro ah p hp
    obtain ⟨hah, hdl⟩ := chsRequest_call ah p
    exact ⟨hah, hdl, requestChs_chsRequest hg hp ah⟩
  · intro frame frame' h
    exact registers_inj h
  · exact numbers.bijOn
  · intro p hp q hq
    exact numbers.lt_iff hp hq
  · intro frame h
    exact int13Lba_eq_chsLba hg h
  · intro p hp
    exact Geometry.chsLba_range hg hp
  · intro frame reply t i hah hdl hp hdev h
    obtain ⟨-, c, hrun⟩ := (transfer_reply hah hdl).mp h
    rw [hdev] at hrun
    refine ⟨_, Transfer.run_command hrun, ?_⟩
    simp only [int13Transfer, Transfer.task, hlba, if_true]
    rw [lba28_lbaTaskfile (int13Lba_lt hg hp.2.2.1), int13Lba_eq_chsLba hg hp]
    exact ⟨lbaMode_lbaTaskfile, rfl⟩
  · intro ask reply t hah hdl h
    rw [parameters_reply hah hdl h]
    obtain ⟨hcylinder, -, hsector⟩ := toNat_parametersReply ask hg
    exact ⟨hcylinder, hsector⟩

/-- The largest geometry that the registers can address. -/
def fullDrive : AtaDrive :=
  { AtaDrive.empty with
    cylinders := 1024, heads := 255, sectors := 63, flags := ataDriveLba28, dev := some 0 }

theorem lba_map_full :
    LbaMap (AtaState.booted (.blank 0x1F0 ⟨1024, 255, 63⟩) fullDrive) ⟨1024, 255, 63⟩ :=
  lba_map (s := AtaState.booted (.blank 0x1F0 ⟨1024, 255, 63⟩) fullDrive) (by decide)
    ⟨by decide, by decide, by decide, by decide⟩

end MyBios
