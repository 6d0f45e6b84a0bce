import MyBios.Bios.Int15
import MyBios.Interrupt.Trampoline
import MyBios.Lib.Numeral
import MyBios.Video.Cursor

/-!
INT 15h AH=87 with the register frame in memory.

The handler finds the two ranges in a table at ES:SI, copies CX words, clears the
carry flag and stores 0 in AH. The loop reads CX again in every pass, and the
handler reports twice with `printf`, which puts its text on the screen when
`vga_enabled` is set.

`blockMove_moves`: where the destination is apart from the source and from the
frame, the destination gets the source and nothing else changes but AH and the
carry flag. With `vga_enabled` clear, as it is since `boot_from_hd`, there is no
other exception; with it set, the text page is one.
-/

namespace MyBios.BlockMove

open Prog Screen

instance byteRam : Ram ByteMem where
  read8 i m := m i.toNat
  read16 i m := m.read16 i.toNat
  read32 i m := m.read32 i.toNat
  write8 i v m := m.write8 i.toNat v
  write16 i v m := m.write16 i.toNat v
  write32 i v m := m.write32 i.toNat v

/-! ### The texts -/

def chars (s : String) : List U8 := s.toList.map fun c => BitVec.ofNat 8 c.toNat

/-- What `printf("Copying %d words from %x to %x\n", cx, src, dest)` sends. -/
def copyingText (cx : U16) (src dest : U32) : List U8 :=
  chars "Copying " ++ (Numeral.text 10 cx.toNat ++ (chars " words from " ++
    (Numeral.text 16 src.toNat ++ (chars " to " ++ (Numeral.text 16 dest.toNat ++ [0x0A])))))

/-! ### The handler -/

section Program

variable {δ : Type} [Bus δ]

/-- `putc` for each character of a text, with `vga_enabled`. -/
def print (vgaEnabled : Bool) (text : List U8) : Prog (Vga δ) Unit :=
  when vgaEnabled (vgaPutChars text)

/-- `*frame` -/
def frameAt (frame : Nat) (s : Vga δ) : ItrFrameRealMode := ItrFrameRealMode.load s.mem frame

/-- `(frame->es << 4) + frame->si` -/
def gdt (f : ItrFrameRealMode) : U32 := (f.es.setWidth 32 <<< 4) + f.si.setWidth 32

/-- The source that the table names. -/
def source (frame : Nat) (s : Vga δ) : U32 :=
  descriptorBase (gdt (frameAt frame s) + 0x12) s.mem

/-- The destination that the table names. -/
def dest (frame : Nat) (s : Vga δ) : U32 :=
  descriptorBase (gdt (frameAt frame s) + 0x1A) s.mem

/-- One pass of `for (int i = 0; i < frame->cx; i++) dest[i] = src[i];` -/
def movePass (frame : Nat) (dest src i : U32) : Prog (Vga δ) (Pass U32 Unit) := do
  let f ← gets (frameAt frame)
  if i.toInt < f.cx.toNat then do
    modify fun s => { s with mem := move16 (dest + 2 * i).toNat (src + 2 * i).toNat s.mem }
    return .again (i + 1)
  else return .done ()

/-- `frame->flags &= 0xFFFE; frame->ah = 0;` -/
def reply (frame : Nat) (m : ByteMem) : ByteMem :=
  (m.write16 (frame + 46) (m.read16 (frame + 46) &&& 0xFFFE)).write8 (frame + 27) 0

/-- The case 0x87 of `bios_handle_int15`. -/
def blockMove (vgaEnabled : Bool) (frame : Nat) : Prog (Vga δ) Unit := do
  print vgaEnabled (chars "Got int16 extended memory copy\n")
  let src ← gets (source frame)
  let dst ← gets (dest frame)
  let f ← gets (frameAt frame)
  print vgaEnabled (copyingText f.cx src dst)
  loop (movePass frame dst src) 0
  modify fun s => { s with mem := reply frame s.mem }

end Program

/-! ### What a request asks for -/

/-- `a` is one of the `n` bytes from `base` on. -/
def InRange (base n a : Nat) : Prop := base ≤ a ∧ a < base + n

/-- The 25 lines of the screen. -/
def TextPage (a : Nat) : Prop := InRange 0xB8000 4000 a

section Request

variable {δ : Type}

/-- The length of the two ranges. -/
def count (frame : Nat) (s : Vga δ) : Nat := 2 * (frameAt frame s).cx.toNat

/-- The destination is apart from the source and from the frame. -/
structure Request (frame : Nat) (s : Vga δ) : Prop where
  source_dest : ∀ a, InRange (source frame s).toNat (count frame s) a →
    ¬ InRange (dest frame s).toNat (count frame s) a
  dest_frame : ∀ a, InRange (dest frame s).toNat (count frame s) a → ¬ InRange frame 48 a

/-- What `printf` does not disturb: the cursor is on the screen, and the descriptors, the source
and the frame are not. -/
structure OffScreen (frame : Nat) (s : Vga δ) : Prop where
  cursor : OnScreen s
  table : ∀ a, InRange ((gdt (frameAt frame s)).toNat + 0x12) 11 a → ¬ TextPage a
  source : ∀ a, InRange (source frame s).toNat (count frame s) a → ¬ TextPage a
  frame : ∀ a, InRange frame 48 a → ¬ TextPage a

/-- From `s` to `t` the source is copied, AH becomes 0 and the carry flag is cleared, and no
other byte changes except those of `spared`. -/
structure Moved (spared : Nat → Prop) (frame : Nat) (s t : Vga δ) : Prop where
  copied : ∀ i < count frame s,
    t.mem ((dest frame s).toNat + i) = s.mem ((source frame s).toNat + i)
  others : ∀ a, ¬ InRange (dest frame s).toNat (count frame s) a →
    ¬ InRange frame 48 a → ¬ spared a → t.mem a = s.mem a
  frame : frameAt frame t = ((frameAt frame s).clearCarry.setAh 0)

end Request

/-! ### The frame -/

section Frame

variable {m m' : ByteMem} {frame a b k : Nat}

/-- A struct is read from its 48 bytes. -/
theorem load_congr (h : ∀ a, InRange frame 48 a → m' a = m a) :
    ItrFrameRealMode.load m' frame = ItrFrameRealMode.load m frame := by
  have half : ∀ k, k + 2 ≤ 48 → m'.read16 (frame + k) = m.read16 (frame + k) := fun k hk =>
    ByteMem.read16_congr fun a hlo hhi => h a ⟨by omega, by omega⟩
  have word : ∀ k, k + 4 ≤ 48 → m'.read32 (frame + k) = m.read32 (frame + k) := fun k hk =>
    ByteMem.read32_congr fun a hlo hhi => h a ⟨by omega, by omega⟩
  have first : m'.read16 frame = m.read16 frame := half 0 (by decide)
  simp only [ItrFrameRealMode.load, first, half _ (by decide : 2 + 2 ≤ 48),
    half _ (by decide : 4 + 2 ≤ 48), word _ (by decide : 6 + 4 ≤ 48),
    word _ (by decide : 10 + 4 ≤ 48), word _ (by decide : 14 + 4 ≤ 48),
    word _ (by decide : 18 + 4 ≤ 48), word _ (by decide : 22 + 4 ≤ 48),
    word _ (by decide : 26 + 4 ≤ 48), word _ (by decide : 30 + 4 ≤ 48),
    word _ (by decide : 34 + 4 ≤ 48), half _ (by decide : 38 + 2 ≤ 48),
    half _ (by decide : 40 + 2 ≤ 48), half _ (by decide : 42 + 2 ≤ 48),
    half _ (by decide : 44 + 2 ≤ 48), half _ (by decide : 46 + 2 ≤ 48)]

/-- Byte 1 of a register in memory. -/
theorem read32_write8_high {v : U8} : (m.write8 (a + 1) v).read32 a = setHi8 (m.read32 a) v := by
  have hhigh : (m.write8 (a + 1) v).read16 (a + 2) = m.read16 (a + 2) :=
    ByteMem.read16_write8_disjoint (by omega)
  have hlow : (m.write8 (a + 1) v).read16 a = v ++ m a := by
    rw [ByteMem.read16, ByteMem.write8_same, ByteMem.write8_other (by omega)]
  have hbyte : lo8 (m.read32 a) = m a := ByteMem.read32_byte (i := 0) (by decide)
  rw [setHi8, hbyte, ByteMem.read32, hhigh, hlow, ByteMem.read32, hi16_append]

theorem reply_other (h : ¬ InRange frame 48 a) : reply frame m a = m a := by
  have hapart : a < frame ∨ frame + 48 ≤ a := by
    rw [InRange] at h
    omega
  rw [reply, ByteMem.write8_other (by omega), ByteMem.write16_other (by omega)]

/-- The reply changes AH and the carry flag of the frame. -/
theorem load_reply : ItrFrameRealMode.load (reply frame m) frame =
    (ItrFrameRealMode.load m frame).clearCarry.setAh 0 := by
  have half : ∀ k, k + 2 ≤ 26 ∨ 30 ≤ k ∧ k + 2 ≤ 46 →
      (reply frame m).read16 (frame + k) = m.read16 (frame + k) := fun k hk => by
    rw [reply, ByteMem.read16_write8_disjoint (by omega),
      ByteMem.read16_write16_disjoint (by omega)]
  have word : ∀ k, k + 4 ≤ 26 ∨ 30 ≤ k ∧ k + 4 ≤ 46 →
      (reply frame m).read32 (frame + k) = m.read32 (frame + k) := fun k hk =>
    ByteMem.read32_congr fun a hlo hhi => by
      rw [reply, ByteMem.write8_other (by omega), ByteMem.write16_other (by omega)]
  have first : (reply frame m).read16 frame = m.read16 frame := half 0 (by decide)
  have hax : (reply frame m).read32 (frame + 26) = setHi8 (m.read32 (frame + 26)) 0 := by
    rw [reply, show frame + 27 = frame + 26 + 1 from rfl, read32_write8_high,
      ByteMem.read32_write16_disjoint (by omega)]
  have hflags : (reply frame m).read16 (frame + 46) = m.read16 (frame + 46) &&& 0xFFFE := by
    rw [reply, ByteMem.read16_write8_disjoint (by omega), ByteMem.read16_write16_same]
  simp only [ItrFrameRealMode.load, ItrFrameRealMode.clearCarry, ItrFrameRealMode.setAh, first,
    hax, hflags, half 2 (by decide), half 4 (by decide), half 38 (by decide), half 40 (by decide),
    half 42 (by decide), half 44 (by decide), word 6 (by decide), word 10 (by decide),
    word 14 (by decide), word 18 (by decide), word 22 (by decide), word 30 (by decide),
    word 34 (by decide)]

end Frame

/-! ### The table -/

section Table

variable {δ : Type} {m m' : ByteMem} {base : U32} {frame : Nat} {s t : Vga δ}

theorem descriptorBase_lt : (descriptorBase base m).toNat < 2 ^ 24 := by
  have hbyte : ∀ (b : U8) (k : Nat), k ≤ 16 → (b.setWidth 32 <<< k).toNat < 2 ^ 24 := by
    intro b k hk
    have hpow : 2 ^ k ≤ 2 ^ 16 := Nat.pow_le_pow_right (by decide) hk
    have hmul : b.toNat * 2 ^ k ≤ 255 * 2 ^ 16 := Nat.mul_le_mul (Nat.le_of_lt_succ b.isLt) hpow
    rw [BitVec.toNat_shiftLeft, BitVec.toNat_setWidth, Nat.shiftLeft_eq,
      Nat.mod_eq_of_lt (Nat.lt_trans b.isLt (by decide)), Nat.mod_eq_of_lt (by omega)]
    omega
  rw [descriptorBase, BitVec.toNat_or, BitVec.toNat_or]
  refine Nat.or_lt_two_pow (Nat.or_lt_two_pow ?_ (hbyte _ 8 (by decide))) (hbyte _ 16 (by decide))
  have hfirst := hbyte (Ram.read8 base m) 0 (by decide)
  rwa [BitVec.shiftLeft_zero] at hfirst

/-- A descriptor is read from three bytes. -/
theorem descriptorBase_congr (hfits : base.toNat + 3 ≤ 2 ^ 32)
    (h : ∀ a, InRange base.toNat 3 a → m' a = m a) :
    descriptorBase base m' = descriptorBase base m := by
  have hsecond : (base + 1).toNat = base.toNat + 1 := by
    rw [BitVec.toNat_add]
    exact Nat.mod_eq_of_lt (by show base.toNat + 1 < 2 ^ 32; omega)
  have hthird : (base + 2).toNat = base.toNat + 2 := by
    rw [BitVec.toNat_add]
    exact Nat.mod_eq_of_lt (by show base.toNat + 2 < 2 ^ 32; omega)
  show ((m' base.toNat).setWidth 32 ||| ((m' (base + 1).toNat).setWidth 32 <<< 8) |||
    ((m' (base + 2).toNat).setWidth 32 <<< 16)) = _
  rw [hsecond, hthird, h _ ⟨by omega, by omega⟩, h _ ⟨by omega, by omega⟩,
    h _ ⟨by omega, by omega⟩, ← hsecond, ← hthird]
  rfl

/-- The table is in the first megabyte or just above it. -/
theorem gdt_toNat_le (f : ItrFrameRealMode) : (gdt f).toNat ≤ 0x10FFEF := by
  have hes := f.es.isLt
  have hsi := f.si.isLt
  rw [gdt, BitVec.toNat_add, BitVec.toNat_shiftLeft, BitVec.toNat_setWidth, BitVec.toNat_setWidth,
    Nat.shiftLeft_eq]
  omega

/-- The ranges are those of the same frame and the same descriptors. -/
theorem ranges_congr (hframe : frameAt frame t = frameAt frame s)
    (h : ∀ a, InRange ((gdt (frameAt frame s)).toNat + 0x12) 11 a → t.mem a = s.mem a) :
    source frame t = source frame s ∧ dest frame t = dest frame s := by
  have hle := gdt_toNat_le (frameAt frame s)
  have hoffset : ∀ k : U32, k.toNat ≤ 0x1A →
      (gdt (frameAt frame s) + k).toNat = (gdt (frameAt frame s)).toNat + k.toNat := fun k hk => by
    rw [BitVec.toNat_add]
    exact Nat.mod_eq_of_lt (by omega)
  have hdescriptor : ∀ k : U32, 0x12 ≤ k.toNat → k.toNat ≤ 0x1A →
      descriptorBase (gdt (frameAt frame t) + k) t.mem =
        descriptorBase (gdt (frameAt frame s) + k) s.mem := by
    intro k hlo hhi
    rw [hframe]
    refine descriptorBase_congr ?_ fun a ⟨ha, ha'⟩ => h a ⟨?_, ?_⟩ <;> rw [hoffset k hhi] at * <;>
      omega
  exact ⟨hdescriptor 0x12 (by decide) (by decide), hdescriptor 0x1A (by decide) (by decide)⟩

end Table

/-! ### The steps of the handler -/

section Steps

variable {δ : Type} [Bus δ] {vgaEnabled : Bool} {frame : Nat} {s t : Vga δ}

/-- A text leaves the cursor on the screen and everything outside the text page as it was. -/
theorem print_total (text : List U8) (hcursor : vgaEnabled = true → OnScreen s) :
    Total (print vgaEnabled text) s fun _ t => (vgaEnabled = true → OnScreen t) ∧
      ∀ a, ¬ (vgaEnabled = true ∧ TextPage a) → t.mem a = s.mem a := by
  cases vgaEnabled with
  | false => exact total_pure ⟨hcursor, fun _ _ => rfl⟩
  | true =>
      refine (putChars_stays (hcursor rfl) text).mono fun _ t ⟨hon, htext⟩ => ⟨fun _ => hon, ?_⟩
      intro a ha
      refine htext a ?_
      rw [TextPage, InRange, and_iff_right rfl] at ha
      omega

/-- Disjoint ranges of one length lie one behind the other. -/
theorem apart_of_disjoint {src dst n k : Nat} (h : ∀ a, InRange src n a → ¬ InRange dst n a)
    (hk : k + 2 ≤ n) : dst + k ≤ src + k ∨ src + k + 2 ≤ dst := by
  by_contra hnot
  exact h dst ⟨by omega, by omega⟩ ⟨Nat.le_refl dst, by omega⟩

/-- The counter of the loop is a signed number. -/
theorem toInt_counter {k : Nat} (hk : k < 2 ^ 31) : (BitVec.ofNat 32 k).toInt = k := by
  rw [BitVec.toInt_eq_toNat_of_lt (by rw [BitVec.toNat_ofNat]; omega), BitVec.toNat_ofNat]
  omega

/-- Word `k` of a range is reached without a wrap. -/
theorem toNat_word {p : U32} {k : Nat} (hp : p.toNat < 2 ^ 24) (hk : k < 2 ^ 16) :
    (p + 2 * BitVec.ofNat 32 k).toNat = p.toNat + 2 * k := by
  rw [BitVec.toNat_add, BitVec.toNat_mul, BitVec.toNat_ofNat]
  show (p.toNat + 2 * (k % 2 ^ 32) % 2 ^ 32) % 2 ^ 32 = _
  omega

/-- What is outside the destination stays as it was. -/
theorem copied_outside {dst src n a : Nat} {m m' : ByteMem} (hcopied : Copied dst src n m m')
    (ha : ¬ InRange dst n a) : m' a = m a :=
  hcopied.frame a (by rw [InRange] at ha; omega)

omit [Bus δ] in
/-- A copy outside the frame keeps the frame. -/
theorem frameAt_copied {dst src n : Nat} (hcopied : Copied dst src n s.mem t.mem)
    (hframe : ∀ a, InRange dst n a → ¬ InRange frame 48 a) : frameAt frame t = frameAt frame s :=
  load_congr fun a ha => copied_outside hcopied fun hin => hframe a hin ha

omit [Bus δ] in
/-- The loop copies the range. -/
theorem move_total {dst src : U32} (hdst : dst.toNat < 2 ^ 24) (hsrc : src.toNat < 2 ^ 24)
    (hsource : ∀ a, InRange src.toNat (count frame s) a → ¬ InRange dst.toNat (count frame s) a)
    (hframe : ∀ a, InRange dst.toNat (count frame s) a → ¬ InRange frame 48 a) :
    Total (loop (movePass frame dst src) 0) s fun _ t =>
      Copied dst.toNat src.toNat (count frame s) s.mem t.mem := by
  have hlt := (frameAt frame s).cx.isLt
  -- the frame is not in the destination, so CX stays the same
  have hcx : ∀ (k : Nat) (t : Vga δ), k ≤ (frameAt frame s).cx.toNat →
      Copied dst.toNat src.toNat (2 * k) s.mem t.mem → frameAt frame t = frameAt frame s :=
    fun k t hk hcopied => frameAt_copied hcopied fun a ⟨hlo, hhi⟩ =>
      hframe a ⟨hlo, by rw [count]; omega⟩
  refine Total.loop_counted (b := fun k => BitVec.ofNat 32 k) (n := (frameAt frame s).cx.toNat)
    (I := fun k t => Copied dst.toNat src.toNat (2 * k) s.mem t.mem) ?_ ?_ ?_
  · intro k t hk hcopied
    refine ⟨{ t with mem := move16 (dst.toNat + 2 * k) (src.toNat + 2 * k) t.mem }, ?_, ?_⟩
    · rw [movePass]
      refine (returns_gets.mpr ⟨rfl, rfl⟩).bind ?_
      rw [hcx k t (by omega) hcopied, toInt_counter (by omega), if_pos (by omega),
        BitVec.ofNat_add, toNat_word hdst (by omega), toNat_word hsrc (by omega)]
      exact (returns_modify.mpr rfl).bind (a := ()) (returns_pure.mpr ⟨rfl, rfl⟩)
    · rw [Nat.mul_succ]
      exact hcopied.snoc (move16_moves _ _ _)
        (apart_of_disjoint hsource (by rw [count]; omega))
  · intro t hcopied
    refine ⟨(), t, ?_, hcopied⟩
    rw [movePass]
    refine (returns_gets.mpr ⟨rfl, rfl⟩).bind ?_
    rw [hcx _ t (Nat.le_refl _) hcopied, toInt_counter (by omega), if_neg (by omega)]
    exact returns_pure.mpr ⟨rfl, rfl⟩
  · exact ⟨fun i hi => absurd hi (Nat.not_lt_zero i), fun _ _ => rfl⟩

omit [Bus δ] in
/-- Memory that agrees outside the text page has the same frame and the same ranges. -/
theorem ranges_kept (off : vgaEnabled = true → OffScreen frame s)
    (agree : ∀ a, ¬ (vgaEnabled = true ∧ TextPage a) → t.mem a = s.mem a) :
    frameAt frame t = frameAt frame s ∧ source frame t = source frame s ∧
      dest frame t = dest frame s := by
  have hframe : frameAt frame t = frameAt frame s :=
    load_congr fun a ha => agree a fun ⟨hon, hpage⟩ => (off hon).frame a ha hpage
  exact ⟨hframe, ranges_congr hframe fun a ha => agree a fun ⟨hon, hpage⟩ =>
    (off hon).table a ha hpage⟩

omit [Bus δ] in
/-- The copy and the reply, after the texts. -/
theorem moved_of_copied {u : Vga δ} (request : Request frame s)
    (off : vgaEnabled = true → OffScreen frame s)
    (agree : ∀ a, ¬ (vgaEnabled = true ∧ TextPage a) → t.mem a = s.mem a)
    (hcopied : Copied (dest frame s).toNat (source frame s).toNat (count frame s) t.mem u.mem) :
    Moved (fun a => vgaEnabled = true ∧ TextPage a) frame s
      { u with mem := reply frame u.mem } := by
  refine ⟨fun i hi => ?_, fun a hdest hframe hspared => ?_, ?_⟩
  · have hrange : InRange (dest frame s).toNat (count frame s) ((dest frame s).toNat + i) :=
      ⟨by omega, by omega⟩
    calc reply frame u.mem ((dest frame s).toNat + i)
        = u.mem ((dest frame s).toNat + i) := reply_other (request.dest_frame _ hrange)
      _ = t.mem ((source frame s).toNat + i) := hcopied.copied i hi
      _ = s.mem ((source frame s).toNat + i) := agree _ fun ⟨hon, hpage⟩ =>
          (off hon).source _ ⟨by omega, by omega⟩ hpage
  · calc reply frame u.mem a = u.mem a := reply_other hframe
      _ = t.mem a := copied_outside hcopied hdest
      _ = s.mem a := agree a hspared
  · have hkept : frameAt frame u = frameAt frame s :=
      (frameAt_copied hcopied request.dest_frame).trans (ranges_kept off agree).1
    rw [← hkept]
    exact load_reply

/-- A call passes through the state `t` after the two texts and the state `u` after the loop. -/
theorem blockMove_steps (request : Request frame s) (off : vgaEnabled = true → OffScreen frame s) :
    ∃ t u : Vga δ, (∀ a, ¬ (vgaEnabled = true ∧ TextPage a) → t.mem a = s.mem a) ∧
      Copied (dest frame s).toNat (source frame s).toNat (count frame s) t.mem u.mem ∧
      (blockMove vgaEnabled frame).Returns s () { u with mem := reply frame u.mem } := by
  obtain ⟨_, s₁, hfirst, hcursor, hagree₁⟩ :=
    print_total (chars "Got int16 extended memory copy\n") fun hon => (off hon).cursor
  obtain ⟨_, t, hsecond, -, hagree₂⟩ :=
    print_total (copyingText (frameAt frame s).cx (source frame s) (dest frame s)) hcursor
  have hagree : ∀ a, ¬ (vgaEnabled = true ∧ TextPage a) → t.mem a = s.mem a := fun a ha =>
    (hagree₂ a ha).trans (hagree₁ a ha)
  have hcount : count frame t = count frame s := by
    rw [count, (ranges_kept off hagree).1, count]
  obtain ⟨_, u, hmove, hcopied⟩ : Total (loop (movePass frame (dest frame s) (source frame s)) 0)
      t fun _ u => Copied (dest frame s).toNat (source frame s).toNat (count frame s) t.mem
        u.mem := by
    rw [← hcount]
    refine move_total descriptorBase_lt descriptorBase_lt ?_ ?_ <;> rw [hcount]
    · exact request.source_dest
    · exact request.dest_frame
  refine ⟨t, u, hagree, hcopied, ?_⟩
  obtain ⟨hframe₁, hsource₁, hdest₁⟩ := ranges_kept off hagree₁
  rw [blockMove, hfirst.bind_iff, (returns_gets.mpr ⟨rfl, rfl⟩).bind_iff,
    (returns_gets.mpr ⟨rfl, rfl⟩).bind_iff, (returns_gets.mpr ⟨rfl, rfl⟩).bind_iff, hframe₁,
    hsource₁, hdest₁, hsecond.bind_iff, hmove.bind_iff]
  exact returns_modify.mpr rfl

/-- The destination gets the source, AH becomes 0 and carry is cleared, and nothing else
changes outside the text page, where the two texts go if `vga_enabled` is set. -/
theorem blockMove_moves (request : Request frame s)
    (off : vgaEnabled = true → OffScreen frame s) :
    Total (blockMove vgaEnabled frame) s fun _ t =>
      Moved (fun a => vgaEnabled = true ∧ TextPage a) frame s t := by
  obtain ⟨t, u, hagree, hcopied, hreturns⟩ := blockMove_steps request off
  exact ⟨(), _, hreturns, moved_of_copied request off hagree hcopied⟩

end Steps

/-! ### A request -/

/-- One word from 0 to 8, with the frame below the top of the interrupt stack and a blank
screen. -/
def moveScreen : Vga Unplugged :=
  { blankScreen with
    mem := ((ByteMem.write8 (fun a => if a < 0xB8000 then 0 else blankScreen.mem a)
      0x1A 8).write8 0x9CFE2 1).write8 0x9CFEB 0x87 }

theorem moveScreen_ranges : count 0x9CFD0 moveScreen = 2 ∧
    (source 0x9CFD0 moveScreen).toNat = 0 ∧ (dest 0x9CFD0 moveScreen).toNat = 8 ∧
    (gdt (frameAt 0x9CFD0 moveScreen)).toNat = 0 := by decide

theorem request_moveScreen : Request 0x9CFD0 moveScreen := by
  obtain ⟨hcount, hsource, hdest, -⟩ := moveScreen_ranges
  refine ⟨fun a ha ha' => ?_, fun a ha ha' => ?_⟩ <;>
    simp only [hcount, hsource, hdest, InRange] at ha ha' <;> omega

theorem offScreen_moveScreen : OffScreen 0x9CFD0 moveScreen := by
  obtain ⟨hcount, hsource, -, hgdt⟩ := moveScreen_ranges
  refine ⟨⟨by decide, by decide⟩, fun a ha ha' => ?_, fun a ha ha' => ?_,
    fun a ha ha' => ?_⟩ <;>
    simp only [hcount, hsource, hgdt, TextPage, InRange] at ha ha' <;> omega

/-- The word is copied with the screen off, as in every call from real mode, and on. -/
theorem blockMove_moves_word :
    (Total (blockMove false 0x9CFD0) moveScreen fun _ t =>
      Moved (fun a => false = true ∧ TextPage a) 0x9CFD0 moveScreen t) ∧
    Total (blockMove true 0x9CFD0) moveScreen fun _ t =>
      Moved (fun a => true = true ∧ TextPage a) 0x9CFD0 moveScreen t :=
  ⟨blockMove_moves request_moveScreen fun hon => absurd hon Bool.false_ne_true,
    blockMove_moves request_moveScreen fun _ => offScreen_moveScreen⟩

end MyBios.BlockMove
