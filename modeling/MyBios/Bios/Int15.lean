import MyBios.Interrupt.Frame
import MyBios.Post.Ram

/-!
INT 15h (`bios_handle_int15`), and the memory size it reports.

AH=88 stores `bda.memory_kb - 1024` in AL alone, so AH stays 0x88, and
`checkRam` has put the sum of both regions in 16 bits. `reportsExtended_iff`
says for which sizes the caller nevertheless reads the right number.
-/

namespace MyBios

open Prog

variable {ρ : Type} [Ram ρ]

/-! ### The handler -/

/-- Three bytes of a descriptor, a 24-bit address. -/
def descriptorBase (gdt : U32) (s : ρ) : U32 :=
  (Ram.read8 gdt s).setWidth 32 ||| ((Ram.read8 (gdt + 1) s).setWidth 32 <<< 8) |||
    ((Ram.read8 (gdt + 2) s).setWidth 32 <<< 16)

/-- `for (int i = 0; i < count; i++) dest[i] = src[i];` -/
def copyWords (dest src : U32) (count : U16) : Prog ρ U32 :=
  repeatN (fun i => do
    modify fun s => Ram.write16 (dest + 2 * i) (Ram.read16 (src + 2 * i) s) s
    return i + 1) count.toNat 0

/-- `bda.memory_kb`. -/
def memoryKb (s : ρ) : U16 := Ram.read16 (BitVec.ofNat 32 BdaField.memoryKb.addr) s

/-- `bios_handle_int15`. -/
def biosHandleInt15 (frame : ItrFrameRealMode) : Prog ρ ItrFrameRealMode :=
  if frame.ah = 0x87 then do
    let gdt : U32 := (frame.es.setWidth 32 <<< 4) + frame.si.setWidth 32
    let src ← gets (descriptorBase (gdt + 0x12))
    let dest ← gets (descriptorBase (gdt + 0x1A))
    let _ ← copyWords dest src frame.cx
    pure (frame.clearCarry.setAh 0)
  else if frame.ah = 0x88 then do
    let memoryKb ← gets memoryKb
    pure (frame.clearCarry.setAl ((memoryKb.setWidth 32 - 1024 : U32).setWidth 8))
  else if frame.ah = 0x24 then
    if frame.al = 0x0 then pure frame.clearCarry
    else if frame.al = 0x3 then pure (frame.clearCarry.setBx 0)
    else pure frame
  else if frame.ah = 0xC0 then pure frame.setCarry
  else if frame.ah = 0x41 then pure frame
  else pure frame.setCarry

/-! ### The reported size -/

/-- Memory of any behaviour, except that the words of the BDA are really there. -/
class BdaRam (ρ : Type) extends Ram ρ where
  memoryKb_kept : ∀ (v : U16) (s : ρ), read16 (BitVec.ofNat 32 BdaField.memoryKb.addr)
    (write16 (BitVec.ofNat 32 BdaField.memoryKb.addr) v s) = v

/-- `checkRam` runs from `s` to `t`, and its two calls of `probeRam` return `lower`
and `extended` bytes. -/
def Detects (s : ρ) (lower extended : U32) (t : ρ) : Prop :=
  checkRam.Returns s () t ∧
    ∃ s₁ s₂, (probeRam 0x0 0x400).Returns s lower s₁ ∧
      (probeRam 0x100000 0x400).Returns s₁ extended s₂

/-- While `memory_kb` is as in `t`, AH=88 returns with carry clear and with the
kilobytes of `extended` in AX, or 65535 where they do not fit. -/
def ReportsExtended (extended : U32) (t : ρ) : Prop :=
  ∀ (u : ρ) (frame : ItrFrameRealMode), memoryKb u = memoryKb t → frame.ah = 0x88 →
    Total (biosHandleInt15 frame) u fun reply _ =>
      reply.carry = false ∧ reply.ax.toNat = min (extended.toNat / 1024) 65535

section Reported

/-- The value that `checkRam` stores: the sum in KB, without its bits from 16 on. -/
theorem memoryKb_stored {ρ : Type} [BdaRam ρ] {s t : ρ} {lower extended : U32}
    (h : Detects s lower extended t) :
    (memoryKb t).toNat = (lower.toNat / 1024 + extended.toNat / 1024) % 2 ^ 16 := by
  obtain ⟨hcheck, s₁, s₂, hlower, hextended⟩ := h
  simp only [checkRam, returns_bind, returns_modify] at hcheck
  obtain ⟨lower', t₁, hlower', extended', t₂, hextended', rfl⟩ := hcheck
  obtain ⟨rfl, rfl⟩ := hlower.functional hlower'
  obtain ⟨rfl, rfl⟩ := hextended.functional hextended'
  have hl := lower.isLt
  have he := extended.isLt
  rw [memoryKb, BdaRam.memoryKb_kept, BitVec.toNat_setWidth, BitVec.toNat_add, BitVec.toNat_udiv,
    BitVec.toNat_udiv, show (1024 : U32).toNat = 1024 from rfl]
  omega

variable {u : ρ} {frame : ItrFrameRealMode}

/-- The reply: the low byte of the size in AL, and nothing else of AX changed. -/
theorem extended_reply {reply : ItrFrameRealMode} {u' : ρ} (hah : frame.ah = 0x88) :
    (biosHandleInt15 frame).Returns u reply u' ↔
      reply = frame.clearCarry.setAl (((memoryKb u).setWidth 32 - 1024 : U32).setWidth 8) ∧
        u' = u := by
  have h₈₇ : ¬ frame.ah = 0x87 := by
    rw [hah]
    decide
  rw [biosHandleInt15, if_neg h₈₇, if_pos hah]
  simp [and_comm]

/-- AX as two bytes. -/
theorem ax_toNat (f : ItrFrameRealMode) : f.ax.toNat = f.ah.toNat * 2 ^ 8 + f.al.toNat := by
  have hax : f.ax = f.ah ++ f.al := by
    rw [ItrFrameRealMode.ah, ItrFrameRealMode.al, hi8_eq_lo16, lo8_eq_lo16]
    exact (ByteMem.halves_append _).symm
  rw [hax, BitVec.toNat_append, ← Nat.shiftLeft_add_eq_or_of_lt f.al.isLt, Nat.shiftLeft_eq]

/-- AX after the reply: 0x88 above the size modulo 256. -/
theorem extended_reply_ax (hah : frame.ah = 0x88) :
    (frame.clearCarry.setAl (((memoryKb u).setWidth 32 - 1024 : U32).setWidth 8)).ax.toNat =
      0x8800 + (memoryKb u).toNat % 256 := by
  have hkb := (memoryKb u).isLt
  have hal : (((memoryKb u).setWidth 32 - 1024 : U32).setWidth 8).toNat =
      (memoryKb u).toNat % 256 := by
    rw [BitVec.toNat_setWidth, BitVec.toNat_sub, BitVec.toNat_setWidth,
      show (1024 : U32).toNat = 1024 from rfl]
    omega
  rw [ax_toNat, ItrFrameRealMode.ah_setAl, show frame.clearCarry.ah = 0x88 from hah,
    ItrFrameRealMode.al, ItrFrameRealMode.setAl, lo8_setLo8, hal]
  rfl

/-- What a right report comes to: the value in AX is the number of kilobytes. -/
theorem reportsExtended_ax {t : ρ} {extended : U32} :
    ReportsExtended extended t ↔
      0x8800 + (memoryKb t).toNat % 256 = min (extended.toNat / 1024) 65535 := by
  constructor
  · intro hreports
    obtain ⟨reply, u', hreply, -, hax⟩ :=
      hreports t (ItrFrameRealMode.zeros.setAh 0x88) rfl (ItrFrameRealMode.ah_setAh _ _)
    obtain ⟨rfl, -⟩ := (extended_reply (ItrFrameRealMode.ah_setAh _ _)).mp hreply
    rwa [extended_reply_ax (ItrFrameRealMode.ah_setAh _ _)] at hax
  · intro hax u frame hu hah
    refine ⟨_, u, (extended_reply hah).mpr ⟨rfl, rfl⟩, ?_, ?_⟩
    · rw [ItrFrameRealMode.carry_setAl, ItrFrameRealMode.carry_clearCarry]
    · rw [extended_reply_ax hah, hu]
      exact hax

/-- AH=88 reports the memory above 1 MB exactly when its size is in the 256
kilobytes from 0x8800 on and the memory below is a multiple of 256 KB. -/
theorem reportsExtended_iff {ρ : Type} [BdaRam ρ] {s t : ρ} {lower extended : U32}
    (h : Detects s lower extended t) :
    ReportsExtended extended t ↔
      0x8800 ≤ extended.toNat / 1024 ∧ extended.toNat / 1024 ≤ 0x88FF ∧
        lower.toNat / 1024 % 256 = 0 := by
  have hkb := memoryKb_stored h
  rw [reportsExtended_ax]
  constructor
  · intro hax
    refine ⟨?_, ?_, ?_⟩ <;> omega
  · rintro ⟨hlow, hhigh, hlower⟩
    omega

end Reported

/-! ### A machine with installed memory -/

/-- `lower` bytes from 0 and `extended` bytes from 1 MB; the rest reads as ones. -/
structure Installed where
  lower : Nat
  extended : Nat
  cells : ByteMem
  bda : 0x500 ≤ lower

namespace Installed

def Present (lower extended : Nat) (a : U32) : Prop :=
  a.toNat < lower ∨ (0x100000 ≤ a.toNat ∧ a.toNat < 0x100000 + extended)

instance decidablePresent (lower extended : Nat) (a : U32) :
    Decidable (Present lower extended a) :=
  inferInstanceAs (Decidable (_ ∨ _))

/-- A store, where there is memory. -/
def store (a : U32) (f : ByteMem → ByteMem) (s : Installed) : Installed :=
  if Present s.lower s.extended a then { s with cells := f s.cells } else s

/-- A load, where there is memory. -/
def load {n : Nat} (a : U32) (f : ByteMem → BitVec n) (s : Installed) : BitVec n :=
  if Present s.lower s.extended a then f s.cells else BitVec.allOnes n

instance ram : Ram Installed where
  read8 a := load a fun m => m a.toNat
  read16 a := load a fun m => m.read16 a.toNat
  read32 a := load a fun m => m.read32 a.toNat
  write8 a v := store a fun m => m.write8 a.toNat v
  write16 a v := store a fun m => m.write16 a.toNat v
  write32 a v := store a fun m => m.write32 a.toNat v

@[simp] theorem store_lower {a : U32} {f : ByteMem → ByteMem} {s : Installed} :
    (store a f s).lower = s.lower := by
  rw [store]
  split <;> rfl

@[simp] theorem store_extended {a : U32} {f : ByteMem → ByteMem} {s : Installed} :
    (store a f s).extended = s.extended := by
  rw [store]
  split <;> rfl

theorem load_store {n : Nat} {a : U32} {f : ByteMem → ByteMem} {g : ByteMem → BitVec n}
    {s : Installed} (h : Present s.lower s.extended a) :
    load a g (store a f s) = g (f s.cells) := by
  rw [load, store_lower, store_extended, if_pos h, store, if_pos h]

theorem load_hole {n : Nat} {a : U32} {g : ByteMem → BitVec n} {s : Installed}
    (h : ¬ Present s.lower s.extended a) : load a g s = BitVec.allOnes n := by
  rw [load, if_neg h]

instance bdaRam : BdaRam Installed where
  memoryKb_kept _ s := by
    have haddr : (BitVec.ofNat 32 BdaField.memoryKb.addr).toNat = 0x413 := rfl
    have hbda := s.bda
    exact (load_store (.inl (by omega))).trans ByteMem.read16_write16_same

/-- The memory that is there is decided by the address. -/
theorem decoded (lower extended : Nat) :
    Decoded (fun s : Installed => s.lower = lower ∧ s.extended = extended)
      (Present lower extended) := by
  refine ⟨?_, ?_, ?_⟩
  · rintro i v s ⟨rfl, rfl⟩
    exact ⟨store_lower, store_extended⟩
  · rintro i v s ⟨rfl, rfl⟩ h
    exact (load_store h).trans ByteMem.read32_write32_same
  · rintro i v s ⟨rfl, rfl⟩ h
    refine (load_hole ?_).trans (load_hole h).symm
    change ¬ Present (store i _ s).lower (store i _ s).extended i
    rwa [store_lower, store_extended]

/-- `l` KB from 0 and `e` KB from 1 MB. -/
def ofKb (l e : Nat) (hl : 2 ≤ l) : Installed :=
  ⟨0x400 * l, 0x400 * e, .zeros, Nat.le_trans (by decide) (Nat.mul_le_mul_left _ hl)⟩

theorem testPoint_toNat {start : U32} {k : Nat} (h : start.toNat + 0x400 * (k + 1) < 2 ^ 32) :
    (testPoint start 0x400 k).toNat = start.toNat + 0x3FC + 0x400 * k := by
  simp only [testPoint, BitVec.toNat_add, BitVec.toNat_sub, BitVec.toNat_mul, BitVec.toNat_ofNat,
    show (0x400 : U32).toNat = 0x400 from rfl, show (4 : U32).toNat = 4 from rfl]
  omega

/-- A probe of `n` blocks that are there, followed by one that is not. -/
theorem probe_blocks {lower extended : Nat} (start : U32) (n : Nat) {s : Installed}
    (hs : s.lower = lower ∧ s.extended = extended)
    (hfits : start.toNat + 0x400 * (n + 1) < 2 ^ 32)
    (found : ∀ k < n, Present lower extended (testPoint start 0x400 k))
    (hole : ¬ Present lower extended (testPoint start 0x400 n)) :
    Total (probeRam start 0x400) s fun bytes t =>
      bytes = 0x400 * BitVec.ofNat 32 n ∧ t.lower = lower ∧ t.extended = extended := by
  refine probeRam_total (decoded lower extended) hs ?_ found hole
  intro k hk
  have hpoint : (testPoint start 0x400 k).toNat = start.toNat + 0x3FC + 0x400 * k := by
    apply testPoint_toNat
    have hmul : 0x400 * (k + 1) ≤ 0x400 * (n + 1) := Nat.mul_le_mul_left _ (by omega)
    exact Nat.lt_of_le_of_lt (Nat.add_le_add_left hmul _) hfits
  have hmul : 0x400 * (k + 1) ≤ 0x400 * n := Nat.mul_le_mul_left _ hk
  have htop : (0xffffffff : U32).toNat = 0xffffffff := rfl
  rw [BitVec.lt_def, hpoint, htop]
  omega

/-- `check_ram` finds what is installed. -/
theorem detects_ofKb {l e : Nat} (hl : 2 ≤ l) (hlower : l ≤ 640) (hextended : e ≤ 0x100000) :
    ∃ t, Detects (ofKb l e hl) (0x400 * BitVec.ofNat 32 l) (0x400 * BitVec.ofNat 32 e) t := by
  have hzero : (0 : U32).toNat = 0 := rfl
  have hmb : (0x100000 : U32).toNat = 0x100000 := rfl
  obtain ⟨_, s₁, hprobe, rfl, hs₁⟩ := probe_blocks 0 l (s := ofKb l e hl) ⟨rfl, rfl⟩ (by omega)
    (by
      intro k hk
      rw [Present, testPoint_toNat (by omega)]
      show _ < 0x400 * l ∨ _
      omega)
    (by
      rw [Present, testPoint_toNat (by omega)]
      show ¬ (_ < 0x400 * l ∨ _ ∧ _ < 0x100000 + 0x400 * e)
      omega)
  obtain ⟨_, s₂, hprobe', rfl, hs₂⟩ := probe_blocks 0x100000 e (s := s₁) hs₁ (by omega)
    (by
      intro k hk
      rw [Present, testPoint_toNat (by omega)]
      show _ ∨ _ ∧ _ < 0x100000 + 0x400 * e
      omega)
    (by
      rw [Present, testPoint_toNat (by omega)]
      show ¬ (_ < 0x400 * l ∨ _ ∧ _ < 0x100000 + 0x400 * e)
      omega)
  have hcheck : ∃ t, (checkRam (ρ := Installed)).Returns (ofKb l e hl) () t := by
    simp only [checkRam, returns_bind, returns_modify]
    exact ⟨_, _, _, hprobe, _, _, hprobe', rfl⟩
  obtain ⟨t, ht⟩ := hcheck
  exact ⟨t, ht, s₁, s₂, hprobe, hprobe'⟩

end Installed

/-- With 512 KB and 34 MB installed, AH=88 reports the 34816 KB. -/
theorem reportsExtended_iff_thirtyFourMb :
    ∃ t, Detects (Installed.ofKb 512 34816 (by decide)) 0x80000 0x2200000 t ∧
      ReportsExtended 0x2200000 t := by
  obtain ⟨t, h⟩ := Installed.detects_ofKb (l := 512) (e := 34816) (by decide) (by decide)
    (by decide)
  exact ⟨t, h, (reportsExtended_iff h).mpr (by decide)⟩

/-- With 640 KB and 15 MB installed, AH=88 reports 0x8880 KB. -/
theorem reportsExtended_fails :
    ¬ ∀ (s : Installed) (lower extended : U32) (t : Installed), Detects s lower extended t →
      ReportsExtended extended t := by
  intro h
  obtain ⟨t, hdetects⟩ := Installed.detects_ofKb (l := 640) (e := 15360) (by decide) (by decide)
    (by decide)
  have hkb := memoryKb_stored hdetects
  have hax := reportsExtended_ax.mp (h _ _ _ _ hdetects)
  rw [hkb] at hax
  exact absurd hax (by decide)

end MyBios
