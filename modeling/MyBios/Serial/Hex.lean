import MyBios.Lib.Numeral
import MyBios.Lib.Poll
import MyBios.Serial.System
import MyBios.X86.Listing

/-!
`serial_write_hex` of `serial.asm`, in a build with `ENABLE_EARLY_SERIAL`.

The routine prints the number above the last digit by a call of itself, and then
the digit by another; a number of one digit goes to `serial_write_byte`, which
waits for the transmitter. `hex_returns` is the induction on the number of
digits. The comparison that picks the base case is a signed one, so a number
with its top bit set is taken for one digit (`serial_write_hex_iff`).
-/

namespace MyBios.Asm

open Poll

/-! ### The listing -/

/-- `serial_write_byte` in lines 0 to 12, `serial_write_hex` from line 13 on. -/
def serialListing : List Instr := [
  .push fun c => .half (lo16 c.edx),
  .push fun c => .half (lo16 c.eax),
  .onEdx fun r => setLo16 r 0x3F8,
  .onEdx fun r => setLo16 r (lo16 r + 0x5),
  -- .loop
  .inAlDx,
  .onEax fun r => setLo8 r (lo8 r &&& 0x20),
  .cmp8 (fun c => lo8 c.eax) 0x0,
  .jz 4,
  .popAx,
  .onEdx fun r => setLo16 r (lo16 r - 0x5),
  .outDxAl,
  .popDx,
  .ret,
  -- serial_write_hex
  .cmp32 Cpu.eax 0x10,
  .jl 24,
  .push fun c => .word c.eax,
  .onEax (· >>> 4),
  .call 13,
  .popEax,
  .push fun c => .word c.eax,
  .onEax (· &&& 0x0F),
  .call 13,
  .popEax,
  .ret,
  -- .one
  .cmp32 Cpu.eax 0x9,
  .jle 29,
  .onEax (· - 0x0A),
  .onEax (· + 0x41),
  .jmp 30,
  -- .num
  .onEax (· + 0x30),
  -- .write
  .call 0,
  .ret]

/-- The byte for a number that is taken for one digit. -/
def hexByte (v : U32) : U8 := lo8 (if v.toInt ≤ 9 then v + 0x30 else v - 0x0A + 0x41)

section Routine

variable {δ : Type} [Bus δ] {place : Nat → U16} {depth : Nat} {s t : Board δ} {eax edx : U32}
  {slots : List Slot} {io : Ports δ}

/-- The transmitter gets ready: polling the line status ends. -/
def TransmitterReady (δ : Type) [Bus δ] : Prop :=
  ∀ d : δ, ∃ vs v d', Polled (Bus.inb 0x3FD) (fun status : U8 => status &&& 0x20 ≠ 0) d vs v d'

/-- The bytes sent on the line. -/
def sentBytes (io : Ports δ) : List U8 := writesTo 0x3F8 io.log

/-! ### `serial_write_byte` -/

omit [Bus δ] in
/-- Reading a port sends nothing. -/
theorem sentBytes_inb {d : δ} {port : U16} {v : U8} :
    sentBytes ⟨d, io.log ++ [.inb port v]⟩ = sentBytes io :=
  List.filterMap_append.trans (List.append_nil _)

/-- One pass of the loop reads the line status and goes round again while bit 5 is clear. -/
theorem pass_steps (hport : lo16 edx = 0x3FD)
    (h : Inside depth s (place 4) eax edx slots io t) :
    ∃ u eax', Steps serialListing place t u ∧
      Inside depth s (place (if (Bus.inb 0x3FD io.dev).1 &&& 0x20 = 0 then 4 else 8)) eax' edx slots
        ⟨(Bus.inb 0x3FD io.dev).2, io.log ++ [.inb 0x3FD (Bus.inb 0x3FD io.dev).1]⟩ u := by
  obtain ⟨u₁, h₁, hin⟩ := h.inAlDx serialListing rfl
  obtain ⟨u₂, h₂, hand⟩ := hin.onEax serialListing rfl
  obtain ⟨u₃, h₃, hjz⟩ := hand.cmp_jz serialListing rfl rfl
  rw [lo8_setLo8, lo8_setLo8, hport] at hjz
  exact ⟨u₃, _, (h₁.trans h₂).trans h₃, hjz⟩

/-- The loop waits and sends nothing. -/
theorem poll_steps {vs : List U8} {v : U8} {d d' : δ}
    (hpolled : Polled (Bus.inb 0x3FD) (fun status : U8 => status &&& 0x20 ≠ 0) d vs v d')
    (hdev : io.dev = d) (hport : lo16 edx = 0x3FD)
    (h : Inside depth s (place 4) eax edx slots io t) :
    ∃ u eax' io', Steps serialListing place t u ∧
      Inside depth s (place 8) eax' edx slots io' u ∧ sentBytes io' = sentBytes io := by
  induction hpolled generalizing eax io t with
  | last hstop =>
      subst hdev
      obtain ⟨u, eax', hsteps, hu⟩ := pass_steps hport h
      rw [if_neg hstop] at hu
      exact ⟨u, _, _, hsteps, hu, sentBytes_inb⟩
  | more hnot _ ih =>
      subst hdev
      obtain ⟨u, eax', hsteps, hu⟩ := pass_steps hport h
      rw [if_pos (not_not.mp hnot)] at hu
      obtain ⟨w, eax'', io', hrest, hw, hsent⟩ := ih rfl hu
      exact ⟨w, _, _, hsteps.trans hrest, hw, hsent.trans sentBytes_inb⟩

/-- `serial_write_byte` sends `al`. -/
theorem byte_returns (hready : TransmitterReady δ) (hip : s.cpu.ip = place 0)
    (hroom : 4 ≤ s.cpu.sp.toNat) :
    ∃ u, Steps serialListing place s u ∧ Returned 4 s u ∧
      sentBytes u.io = sentBytes s.io ++ [lo8 s.cpu.eax] := by
  have h₀ : Inside 4 s (place 0) s.cpu.eax s.cpu.edx [] s.io s := inside_entry hip
  obtain ⟨s₁, run₁, h₁⟩ := h₀.push serialListing rfl rfl (by show 2 ≤ 4; decide) hroom
  obtain ⟨s₂, run₂, h₂⟩ := h₁.push serialListing rfl
    (congrArg (fun r => Slot.half (lo16 r)) h₁.eax) (by show 4 ≤ 4; decide) hroom
  obtain ⟨s₃, run₃, h₃⟩ := h₂.onEdx serialListing rfl
  obtain ⟨s₄, run₄, h₄⟩ := h₃.onEdx serialListing rfl
  rw [lo16_setLo16, setLo16_setLo16] at h₄
  obtain ⟨vs, v, d', hpolled⟩ := hready s.io.dev
  obtain ⟨s₅, eax', io', run₅, h₅, hsent⟩ := poll_steps hpolled rfl (lo16_setLo16 _ _) h₄
  obtain ⟨s₆, run₆, h₆⟩ := h₅.popAx serialListing rfl hroom
  obtain ⟨s₇, run₇, h₇⟩ := h₆.onEdx serialListing rfl
  rw [lo16_setLo16, setLo16_setLo16] at h₇
  obtain ⟨s₈, run₈, h₈⟩ := h₇.outDxAl serialListing rfl
  obtain ⟨s₉, run₉, h₉⟩ := h₈.popDx serialListing rfl (by show 2 ≤ _; omega)
  have hedx : setLo16 (setLo16 s.cpu.edx (0x3FD - 0x5)) (lo16 s.cpu.edx) = s.cpu.edx := by
    rw [setLo16_setLo16]
    exact hi16_append_lo16 _
  rw [hedx] at h₉
  obtain ⟨u, run, hreturned, hio⟩ := h₉.ret serialListing rfl
  refine ⟨u, ?_, hreturned, ?_⟩
  · exact ((((((((run₁.trans run₂).trans run₃).trans run₄).trans run₅).trans run₆).trans run₇).trans
      run₈).trans run₉).trans run
  · rw [hio, sentBytes, lo16_setLo16, writesTo_append]
    show sentBytes io' ++ [lo8 (setLo16 eax' (lo16 s.cpu.eax))] = _
    rw [hsent, lo8_eq_lo16, lo16_setLo16, ← lo8_eq_lo16]

/-! ### `serial_write_hex` -/

/-- A number that the comparison takes for one digit goes out as one byte. -/
theorem one_returns (hready : TransmitterReady δ) (hip : s.cpu.ip = place 13)
    (hless : s.cpu.eax.toInt < 16) (hroom : 6 ≤ s.cpu.sp.toNat) :
    ∃ u, Steps serialListing place s u ∧ Returned 6 s u ∧
      sentBytes u.io = sentBytes s.io ++ [hexByte s.cpu.eax] := by
  have h₀ : Inside 6 s (place 13) s.cpu.eax s.cpu.edx [] s.io s := inside_entry hip
  obtain ⟨s₁, run₁, h₁⟩ := h₀.cmp_jl serialListing rfl rfl
  rw [if_pos (show _ < (0x10 : U32).toInt from hless)] at h₁
  obtain ⟨s₂, run₂, h₂⟩ := h₁.cmp_jle serialListing rfl rfl
  have hwrite : ∃ s₃ eax, Steps serialListing place s₂ s₃ ∧ lo8 eax = hexByte s.cpu.eax ∧
      Inside 6 s (place 30) eax s.cpu.edx [] s.io s₃ := by
    rw [hexByte]
    by_cases hnine : s.cpu.eax.toInt ≤ 9
    · rw [if_pos (show _ ≤ (0x9 : U32).toInt from hnine)] at h₂
      rw [if_pos hnine]
      obtain ⟨s₃, run₃, h₃⟩ := h₂.onEax serialListing rfl
      exact ⟨s₃, _, run₃, rfl, h₃⟩
    · rw [if_neg (show ¬ _ ≤ (0x9 : U32).toInt from hnine)] at h₂
      rw [if_neg hnine]
      obtain ⟨s₃, run₃, h₃⟩ := h₂.onEax serialListing rfl
      obtain ⟨s₄, run₄, h₄⟩ := h₃.onEax serialListing rfl
      obtain ⟨s₅, run₅, h₅⟩ := h₄.jmp serialListing rfl
      exact ⟨s₅, _, (run₃.trans run₄).trans run₅, rfl, h₅⟩
  obtain ⟨s₃, eax, run₃, hbyte, h₃⟩ := hwrite
  obtain ⟨s₄, run₄, hsent, h₄⟩ := h₃.call serialListing rfl
    (P := fun io => sentBytes io = sentBytes s.io ++ [hexByte s.cpu.eax])
    (show 0 + 2 + 4 ≤ 6 by decide) hroom (by
      intro t hip heax hsp hio
      obtain ⟨u, hsteps, hreturned, hsent⟩ := byte_returns hready hip hsp
      exact ⟨u, hsteps, hreturned, by rw [hsent, hio, heax, hbyte]⟩)
  obtain ⟨u, run, hreturned, hio⟩ := h₄.ret serialListing rfl
  exact ⟨u, (((run₁.trans run₂).trans run₃).trans run₄).trans run, hreturned, by rw [hio, hsent]⟩

/-- `push eax`, a computation in `eax`, the call and `pop eax`, from line `i` on: the callee
prints the result of the computation, and `eax` comes back. -/
theorem print_steps {i : Nat} {f : U32 → U32} {bytes : List U8}
    (h : Inside depth s (place i) eax edx [] io t)
    (h₁ : serialListing[i]? = some (.push fun c => .word c.eax))
    (h₂ : serialListing[i + 1]? = some (.onEax f))
    (h₃ : serialListing[i + 2]? = some (.call 13)) (h₄ : serialListing[i + 3]? = some .popEax)
    {below : Nat} (hdepth : below + 6 ≤ depth) (hroom : depth ≤ s.cpu.sp.toNat)
    (callee : ∀ t' : Board δ, t'.cpu.ip = place 13 → t'.cpu.eax = f eax →
      below ≤ t'.cpu.sp.toNat → ∃ u, Steps serialListing place t' u ∧ Returned below t' u ∧
        sentBytes u.io = sentBytes t'.io ++ bytes) :
    ∃ u io', Steps serialListing place t u ∧ Inside depth s (place (i + 4)) eax edx [] io' u ∧
      sentBytes io' = sentBytes io ++ bytes := by
  obtain ⟨u₁, run₁, hpush⟩ := h.push serialListing h₁
    (congrArg Slot.word h.eax) (show 4 ≤ depth by omega) hroom
  obtain ⟨u₂, run₂, hcompute⟩ := hpush.onEax serialListing h₂
  obtain ⟨u₃, run₃, hsent, hcall⟩ := hcompute.call serialListing h₃
    (P := fun io' => sentBytes io' = sentBytes io ++ bytes)
    (show 4 + 2 + below ≤ depth by omega) hroom (by
      intro t' hip heax hsp hio
      obtain ⟨u, hsteps, hreturned, hsent⟩ := callee t' hip heax hsp
      exact ⟨u, hsteps, hreturned, by rw [hsent, hio]⟩)
  obtain ⟨u₄, run₄, hpop⟩ := hcall.popEax serialListing h₄ (show 4 ≤ _ by omega)
  exact ⟨u₄, _, ((run₁.trans run₂).trans run₃).trans run₄, hpop, hsent⟩

/-- One hexadecimal digit. -/
theorem hexByte_eq {v : U32} (h : v.toNat < 16) : hexByte v = Numeral.digit v.toNat := by
  have hsmall : ∀ n < 16, hexByte (BitVec.ofNat 32 n) = Numeral.digit n := by decide
  have heq := hsmall v.toNat h
  rwa [BitVec.ofNat_toNat, BitVec.setWidth_eq] at heq

theorem toNat_quotient (v : U32) : (v >>> 4).toNat = v.toNat / 16 := by
  rw [BitVec.toNat_ushiftRight, Nat.shiftRight_eq_div_pow]

theorem toNat_lastDigit (v : U32) : (v &&& 0x0F).toNat = v.toNat % 16 := by
  rw [BitVec.toNat_and]
  exact Nat.and_two_pow_sub_one_eq_mod v.toNat 4

/-- A number below 2³¹ is the same as a signed number. -/
theorem toInt_of_lt {v : U32} (h : v.toNat < 2 ^ 31) : v.toInt = v.toNat :=
  BitVec.toInt_eq_toNat_of_lt (by omega)

theorem digit_returns (hready : TransmitterReady δ) (hip : s.cpu.ip = place 13)
    (hdigit : s.cpu.eax.toNat < 16) (hroom : 6 ≤ s.cpu.sp.toNat) :
    ∃ u, Steps serialListing place s u ∧ Returned 6 s u ∧
      sentBytes u.io = sentBytes s.io ++ Numeral.text 16 s.cpu.eax.toNat := by
  have hless : s.cpu.eax.toInt < 16 := by
    rw [toInt_of_lt (by omega)]
    omega
  rw [Numeral.text_of_lt hdigit, ← hexByte_eq hdigit]
  exact one_returns hready hip hless hroom

/-- A number of at most `k + 1` digits whose top bit is clear goes out in hexadecimal, and the
stack is used for 6 bytes a digit. -/
theorem hex_returns (hready : TransmitterReady δ) (k : Nat) (hip : s.cpu.ip = place 13)
    (hdigits : s.cpu.eax.toNat < 16 ^ (k + 1)) (hsign : s.cpu.eax.toNat < 2 ^ 31)
    (hroom : 6 * (k + 1) ≤ s.cpu.sp.toNat) :
    ∃ u, Steps serialListing place s u ∧ Returned (6 * (k + 1)) s u ∧
      sentBytes u.io = sentBytes s.io ++ Numeral.text 16 s.cpu.eax.toNat := by
  induction k generalizing s with
  | zero => exact digit_returns hready hip hdigits hroom
  | succ k ih =>
      by_cases hone : s.cpu.eax.toNat < 16
      · obtain ⟨u, hsteps, hreturned, hsent⟩ := digit_returns hready hip hone (by omega)
        exact ⟨u, hsteps, hreturned.mono (by omega), hsent⟩
      · have hnot : ¬ s.cpu.eax.toInt < (0x10 : U32).toInt := by
          rw [toInt_of_lt hsign]
          show ¬ (s.cpu.eax.toNat : Int) < 16
          omega
        have h₀ : Inside (6 * (k + 1 + 1)) s (place 13) s.cpu.eax s.cpu.edx [] s.io s :=
          inside_entry hip
        obtain ⟨s₁, run₁, h₁⟩ := h₀.cmp_jl serialListing rfl rfl
        rw [if_neg hnot] at h₁
        have above : ∀ t : Board δ, t.cpu.ip = place 13 → t.cpu.eax = s.cpu.eax >>> 4 →
            6 * (k + 1) ≤ t.cpu.sp.toNat → ∃ u, Steps serialListing place t u ∧
              Returned (6 * (k + 1)) t u ∧ sentBytes u.io =
                sentBytes t.io ++ Numeral.text 16 (s.cpu.eax.toNat / 16) := by
          intro t hip heax hsp
          have hquot : t.cpu.eax.toNat = s.cpu.eax.toNat / 16 := by rw [heax, toNat_quotient]
          rw [← hquot]
          exact ih hip (by omega) (by omega) hsp
        have last : ∀ t : Board δ, t.cpu.ip = place 13 → t.cpu.eax = s.cpu.eax &&& 0x0F →
            6 ≤ t.cpu.sp.toNat → ∃ u, Steps serialListing place t u ∧ Returned 6 t u ∧
              sentBytes u.io = sentBytes t.io ++ Numeral.text 16 (s.cpu.eax.toNat % 16) := by
          intro t hip heax hsp
          have hmod : t.cpu.eax.toNat = s.cpu.eax.toNat % 16 := by rw [heax, toNat_lastDigit]
          rw [← hmod]
          exact digit_returns hready hip (by omega) hsp
        obtain ⟨s₂, io₂, run₂, h₂, hsent₂⟩ := print_steps h₁ rfl rfl rfl rfl
          (show 6 * (k + 1) + 6 ≤ 6 * (k + 1 + 1) by omega) hroom above
        obtain ⟨s₃, io₃, run₃, h₃, hsent₃⟩ := print_steps h₂ rfl rfl rfl rfl
          (show 6 + 6 ≤ 6 * (k + 1 + 1) by omega) hroom last
        obtain ⟨u, run, hreturned, hio⟩ := h₃.ret serialListing rfl
        refine ⟨u, ((run₁.trans run₂).trans run₃).trans run, hreturned, ?_⟩
        have hdigit : Numeral.text 16 (s.cpu.eax.toNat % 16) =
            [Numeral.digit (s.cpu.eax.toNat % 16)] :=
          Numeral.text_of_lt (Nat.mod_lt _ (by decide))
        rw [hio, hsent₃, hsent₂, hdigit, List.append_assoc, ← Numeral.text_snoc (by decide)]
        omega

/-! ### The result -/

/-- `serial_write_hex` has been called: from outside the listing, and with room on the stack
for what it pushes. -/
structure Entry (place : Nat → U16) (s : Board δ) : Prop where
  ip : s.cpu.ip = place 13
  caller : Outside serialListing place s.returnAddress
  room : 48 ≤ s.cpu.sp.toNat

/-- The routine returns to its caller with a balanced stack, and has sent the hexadecimal
digits of `eax`. -/
def WritesHex (place : Nat → U16) (s : Board δ) : Prop :=
  ∃ t, Steps serialListing place s t ∧ t.cpu.ip = s.returnAddress ∧
    t.cpu.esp = setLo16 s.cpu.esp (s.cpu.sp + 2) ∧ (∀ x, s.top ≤ x → t.cpu.mem x = s.cpu.mem x) ∧
    sentBytes t.io = sentBytes s.io ++ Numeral.text 16 s.cpu.eax.toNat

theorem writesHex_of_lt (hready : TransmitterReady δ) (h : Entry place s)
    (hsign : s.cpu.eax.toNat < 2 ^ 31) : WritesHex place s := by
  have hroom : 6 * (7 + 1) ≤ s.cpu.sp.toNat := h.room
  obtain ⟨u, hsteps, hreturned, hsent⟩ := hex_returns hready 7 h.ip (by omega) hsign hroom
  exact ⟨u, hsteps, hreturned.ip, hreturned.esp, fun x hx => hreturned.mem x (.inr hx), hsent⟩

/-- A number with its top bit set goes out as one byte, but has eight digits. -/
theorem not_writesHex_of_le (hplace : Placed serialListing place) (hready : TransmitterReady δ)
    (h : Entry place s) (hsign : 2 ^ 31 ≤ s.cpu.eax.toNat) : ¬ WritesHex place s := by
  rintro ⟨t, hsteps, hip, -, -, hsent⟩
  have hroom := h.room
  have hnegative : s.cpu.eax.toInt < 16 := by
    rw [BitVec.toInt_eq_toNat_cond]
    omega
  obtain ⟨u, hsteps', hreturned, hsent'⟩ := one_returns hready h.ip hnegative (by omega)
  obtain rfl := steps_functional hplace hsteps hsteps' (hip ▸ h.caller) (hreturned.ip ▸ h.caller)
  rw [hsent', List.append_cancel_left_eq] at hsent
  have hlength : (Numeral.text 16 s.cpu.eax.toNat).length ≤ 1 := by
    rw [← hsent]
    exact Nat.le_refl 1
  rw [Numeral.length_text_le_iff (by decide) (by decide)] at hlength
  omega

/-- `serial_write_hex` does what it should exactly when the top bit of `eax` is clear. -/
theorem serial_write_hex_iff (hplace : Placed serialListing place)
    (hready : TransmitterReady δ) (h : Entry place s) :
    WritesHex place s ↔ s.cpu.eax.toNat < 2 ^ 31 := by
  constructor
  · intro hwrites
    by_contra hsign
    exact not_writesHex_of_le hplace hready h (by omega) hwrites
  · exact writesHex_of_lt hready h

end Routine

/-! ### A call -/

theorem transmitterReady_readyLine : TransmitterReady Serial.ReadyLine := fun _ =>
  ⟨[], _, _, .last (show (0x20 : U8) &&& 0x20 ≠ 0 by decide)⟩

/-- One line after the other from 0x100 on. -/
def placeAt (i : Nat) : U16 := BitVec.ofNat 16 (0x100 + i)

theorem placed_placeAt : Placed serialListing placeAt := by
  intro i j hi hj h
  have hlength : serialListing.length = 32 := rfl
  have heq := congrArg BitVec.toNat h
  rw [placeAt, placeAt, BitVec.toNat_ofNat, BitVec.toNat_ofNat] at heq
  omega

/-- `serial_write_hex` called with `v` in `eax`, with the stack at 0:7000h and from address 0. -/
def hexCall (v : U32) : Board Serial.ReadyLine where
  cpu :=
    { eax := v, ebx := 0, ecx := 0, edx := 0, esi := 0, edi := 0, ebp := 0, esp := 0x7000, cs := 0,
      ds := 0, es := 0, fs := 0, gs := 0, ss := 0, ip := placeAt 13, flags := 0, cr0 := 0,
      mem := ByteMem.zeros }
  zero := false
  less := false
  io := ⟨⟨⟩, []⟩

theorem entry_hexCall (v : U32) : Entry placeAt (hexCall v) where
  ip := rfl
  caller := by
    intro i hi h
    have hlength : serialListing.length = 32 := rfl
    have hzero : (hexCall v).returnAddress.toNat = 0 := by
      show ((0 : U8) ++ (0 : U8)).toNat = 0
      decide
    rw [h, placeAt, BitVec.toNat_ofNat] at hzero
    omega
  room := by
    show 48 ≤ 0x7000
    decide

theorem serial_write_hex_iff_hexCall :
    WritesHex placeAt (hexCall 0x1F) ↔ (hexCall 0x1F).cpu.eax.toNat < 2 ^ 31 :=
  serial_write_hex_iff placed_placeAt transmitterReady_readyLine (entry_hexCall 0x1F)

/-- A number with its top bit set. -/
theorem serial_write_hex_negative :
    ¬ ∀ place, Placed serialListing place → TransmitterReady Serial.ReadyLine →
      ∀ s : Board Serial.ReadyLine, Entry place s → WritesHex place s := fun h =>
  not_writesHex_of_le placed_placeAt transmitterReady_readyLine (entry_hexCall 0x80000000)
    (by decide) (h placeAt placed_placeAt transmitterReady_readyLine (hexCall 0x80000000)
      (entry_hexCall 0x80000000))

end MyBios.Asm
