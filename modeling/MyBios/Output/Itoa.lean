import MyBios.Lib.CString
import MyBios.Lib.Numeral
import MyBios.Machine

/-!
`itoa` of `output.c`.

The first loop stores the digits by repeated division, least significant first;
the second swaps the halves of what was stored. `returns_itoa` is the result as
a whole: the bytes of the numeral and a NUL are stored at `buf`, and nothing
else is. `printf` hands over a buffer of 10 bytes, which is one too few for a
decimal numeral of ten digits (`itoa_fits_iff`).
-/

namespace MyBios

open Prog

/-! ### The program -/

/-- The character `c` for the digit `d`. -/
def itoaDigit (d : U32) : U8 :=
  if d < 10 then 0x30 + d.setWidth 8 else 0x41 + (d - 10).setWidth 8

/-- One pass of `while (value != 0)`, from `value` and `len`; the loop leaves with
`len`. -/
def itoaPass (buf : Nat) (base : U32) (x : U32 × Nat) : Prog ByteMem (Pass (U32 × Nat) Nat) :=
  if x.1 ≠ 0 then do
    modify fun m => m.write8 (buf + x.2) (itoaDigit (x.1 % base))
    return .again (x.1 / base, x.2 + 1)
  else return .done x.2

/-- One pass of `for (int i = 0; i < len/2; i++)`. -/
def reversePass (buf len i : Nat) : Prog ByteMem (Pass Nat Unit) :=
  if i < len / 2 then do
    let tmp ← gets fun m => m (buf + i)
    modify fun m => m.write8 (buf + i) (m (buf + (len - i - 1)))
    modify fun m => m.write8 (buf + (len - i - 1)) tmp
    return .again (i + 1)
  else return .done ()

/-- `if (len == 0)` before the end: the string "0", or the digits put in order. -/
def itoaOrder (buf len : Nat) : Prog ByteMem Unit :=
  if len = 0 then do
    modify fun m => m.write8 buf 0x30
    modify fun m => m.write8 (buf + 1) 0
  else loop (reversePass buf len) 0

/-- The second `if (len == 0)` and the terminator. -/
def itoaEnd (buf len : Nat) : Prog ByteMem Unit :=
  if len = 0 then do
    modify fun m => m.write8 (buf + len) 0x30
    modify fun m => m.write8 (buf + (len + 1)) 0
  else modify fun m => m.write8 (buf + len) 0

def itoa (value : U32) (buf : Nat) (base : U32) : Prog ByteMem Unit := do
  let len ← loop (itoaPass buf base) (value, 0)
  itoaOrder buf len
  itoaEnd buf len

/-! ### The loops -/

variable {buf : Nat} {base v : U32} {m : ByteMem}

theorem itoaDigit_eq {d : U32} (h : d.toNat < 16) : itoaDigit d = Numeral.digit d.toNat := by
  apply BitVec.eq_of_toNat_eq
  rw [Numeral.toNat_digit h, itoaDigit]
  by_cases hten : d.toNat < 10
  · rw [if_pos (BitVec.lt_def.mpr hten), if_pos hten, BitVec.toNat_add, BitVec.toNat_setWidth]
    show (0x30 + d.toNat % 256) % 256 = _
    omega
  · have hsub : (d - 10).toNat = d.toNat - 10 :=
      BitVec.toNat_sub_of_le (BitVec.le_def.mpr (Nat.not_lt.mp hten))
    rw [if_neg (mt BitVec.lt_def.mp hten), if_neg hten, BitVec.toNat_add, BitVec.toNat_setWidth,
      hsub]
    show (0x41 + (d.toNat - 10) % 256) % 256 = _
    omega

/-- The digits of `v` as the first loop stores them, least significant first. -/
def digitsUp (base v : U32) : List U8 := (Nat.digits base.toNat v.toNat).map Numeral.digit

theorem digitsUp_zero : digitsUp base 0 = [] := by
  show (Nat.digits base.toNat 0).map _ = []
  rw [Nat.digits_zero, List.map_nil]

theorem digitsUp_eq_cons (hlo : 1 < base.toNat) (hhi : base.toNat ≤ 16) (hv : v ≠ 0) :
    digitsUp base v = itoaDigit (v % base) :: digitsUp base (v / base) := by
  have hpos : v.toNat ≠ 0 := fun h => hv (BitVec.eq_of_toNat_eq h)
  have hmod : (v % base).toNat < base.toNat := by
    rw [BitVec.toNat_umod]
    exact Nat.mod_lt _ (by omega)
  rw [digitsUp, Nat.digits_eq_cons_digits_div hlo hpos, List.map_cons, itoaDigit_eq (by omega),
    BitVec.toNat_umod, digitsUp, BitVec.toNat_udiv]

theorem digitsUp_eq_nil_iff : digitsUp base v = [] ↔ v = 0 := by
  rw [digitsUp, List.map_eq_nil_iff, Nat.digits_eq_nil_iff_eq_zero]
  exact ⟨fun h => BitVec.eq_of_toNat_eq h, fun h => congrArg BitVec.toNat h⟩

/-- A numeral other than "0" is what the first loop stores, reversed. -/
theorem text_eq_reverse (hv : v ≠ 0) :
    Numeral.text base.toNat v.toNat = (digitsUp base v).reverse := by
  have hpos : v.toNat ≠ 0 := fun h => hv (BitVec.eq_of_toNat_eq h)
  rw [Numeral.text, Numeral.numeral, if_neg hpos, List.map_reverse, digitsUp]

/-- The first loop stores the digits behind those that are there. -/
theorem returns_itoaLoop (buf : Nat) (m : ByteMem) (hlo : 1 < base.toNat)
    (hhi : base.toNat ≤ 16) (stored : List U8) :
    (loop (itoaPass buf base) (v, stored.length)).Returns (m.writeBytes buf stored)
      (stored ++ digitsUp base v).length (m.writeBytes buf (stored ++ digitsUp base v)) := by
  induction hn : v.toNat using Nat.strongRecOn generalizing v stored with
  | ind n ih =>
      by_cases hv : v = 0
      · subst hv
        rw [digitsUp_zero, List.append_nil]
        exact returns_loop.mpr (.inl (returns_pure.mpr ⟨rfl, rfl⟩))
      · have hsmaller : (v / base).toNat < n := by
          rw [BitVec.toNat_udiv, ← hn]
          exact Nat.div_lt_self (Nat.pos_of_ne_zero fun h => hv (BitVec.eq_of_toNat_eq h)) hlo
        have hpass : (itoaPass buf base (v, stored.length)).Returns (m.writeBytes buf stored)
            (.again (v / base, (stored ++ [itoaDigit (v % base)]).length))
            (m.writeBytes buf (stored ++ [itoaDigit (v % base)])) := by
          rw [itoaPass, if_pos hv, ← ByteMem.writeBytes_snoc, List.length_append]
          exact (returns_modify.mpr rfl).bind (a := ()) (returns_pure.mpr ⟨rfl, rfl⟩)
        have hrest := ih _ hsmaller (stored ++ [itoaDigit (v % base)]) rfl
        rw [List.append_assoc, List.singleton_append, ← digitsUp_eq_cons hlo hhi hv] at hrest
        exact returns_loop.mpr (.inr ⟨_, _, hpass, hrest⟩)

/-- Where byte `k` of `len` comes from when the outer `i` pairs have been swapped. -/
def mirrored (len i k : Nat) : Nat := if k < i ∨ len - i ≤ k then len - k - 1 else k

/-- The outer `i` pairs are swapped. -/
structure Swapped (buf len : Nat) (m : ByteMem) (i : Nat) (m' : ByteMem) : Prop where
  inside : ∀ k < len, m' (buf + k) = m (buf + mirrored len i k)
  outside : ∀ x, x < buf ∨ buf + len ≤ x → m' x = m x

/-- One pass swaps one pair more. -/
theorem Swapped.pass {len i : Nat} {m' : ByteMem} (h : Swapped buf len m i m')
    (hi : i < len / 2) :
    Swapped buf len m (i + 1) ((m'.write8 (buf + i) (m' (buf + (len - i - 1)))).write8
      (buf + (len - i - 1)) (m' (buf + i))) := by
  have hmid : ∀ k, ¬ (k < i ∨ len - i ≤ k) → k < len → m' (buf + k) = m (buf + k) := by
    intro k hk hlt
    rw [h.inside k hlt, mirrored, if_neg hk]
  constructor
  · intro k hk
    rw [mirrored]
    by_cases hlast : k = len - i - 1
    · subst hlast
      rw [ByteMem.write8_same, hmid i (by omega) (by omega), if_pos (by omega)]
      congr 2
      omega
    · rw [ByteMem.write8_other (by omega)]
      by_cases hfirst : k = i
      · subst hfirst
        rw [ByteMem.write8_same, hmid _ (by omega) (by omega), if_pos (by omega)]
      · rw [ByteMem.write8_other (by omega), h.inside k hk, mirrored]
        congr 2
        split <;> split <;> omega
  · intro x hx
    rw [ByteMem.write8_other (by omega), ByteMem.write8_other (by omega), h.outside x hx]

/-- The second loop reverses what is stored. -/
theorem returns_reverseLoop {l : List U8} :
    (loop (reversePass buf l.length) 0).Returns (m.writeBytes buf l) ()
      (m.writeBytes buf l.reverse) := by
  have htotal : Total (loop (reversePass buf l.length) 0) (m.writeBytes buf l) fun _ m' =>
      Swapped buf l.length (m.writeBytes buf l) (l.length / 2) m' := by
    refine Total.loop_counted (n := l.length / 2) (b := fun i => i)
      (I := fun i => Swapped buf l.length (m.writeBytes buf l) i) ?_ ?_ ?_
    · intro i m' hi hswapped
      refine ⟨_, ?_, hswapped.pass hi⟩
      rw [reversePass, if_pos hi]
      refine (returns_gets.mpr ⟨rfl, rfl⟩).bind ((returns_modify.mpr rfl).bind (a := ()) ?_)
      exact (returns_modify.mpr rfl).bind (a := ()) (returns_pure.mpr ⟨rfl, rfl⟩)
    · intro m' hswapped
      refine ⟨(), m', ?_, hswapped⟩
      rw [reversePass, if_neg (Nat.lt_irrefl _)]
      exact returns_pure.mpr ⟨rfl, rfl⟩
    · refine ⟨fun k hk => ?_, fun _ _ => rfl⟩
      rw [mirrored, if_neg (by omega)]
  obtain ⟨_, m', hreturns, hswapped⟩ := htotal
  have heq : m' = m.writeBytes buf l.reverse := by
    refine ByteMem.eq_writeBytes ?_ ?_
    · intro k hk
      rw [List.length_reverse] at hk
      have hmirror : mirrored l.length (l.length / 2) k = l.length - 1 - k := by
        rw [mirrored]
        split <;> omega
      rw [hswapped.inside k hk, hmirror, ByteMem.writeBytes_at (by omega), List.getElem_reverse]
    · intro x hx
      rw [List.length_reverse] at hx
      rw [hswapped.outside x hx, ByteMem.writeBytes_other hx]
  exact heq ▸ hreturns

/-! ### The result -/

/-- The string "0" is stored twice. -/
theorem returns_itoaZero {b : Nat} (hb : 0 < b) :
    (itoaOrder buf 0 >>= fun _ => itoaEnd buf 0).Returns m ()
      (m.writeBytes buf (Numeral.text b 0 ++ [0])) := by
  rw [Numeral.text_of_lt hb]
  have hstored : m.writeBytes buf ([0x30] ++ [0]) =
      (m.write8 buf 0x30).write8 (buf + 1) 0 := by
    rw [← ByteMem.writeBytes_snoc, ← List.nil_append [0x30], ← ByteMem.writeBytes_snoc,
      ByteMem.writeBytes_nil]
    rfl
  have hagain : ((((m.write8 buf 0x30).write8 (buf + 1) 0).write8 buf 0x30).write8 (buf + 1) 0) =
      m.writeBytes buf ([0x30] ++ [0]) := by
    rw [hstored, ByteMem.write8_eq_self (a := buf), ByteMem.write8_eq_self (a := buf + 1)]
    · exact ByteMem.write8_same
    · rw [ByteMem.write8_other (by omega), ByteMem.write8_same]
  have horder : (itoaOrder buf 0).Returns m () ((m.write8 buf 0x30).write8 (buf + 1) 0) :=
    (returns_modify.mpr rfl).bind (a := ()) (returns_modify.mpr rfl)
  refine horder.bind ((returns_modify.mpr rfl).bind (a := ()) (returns_modify.mpr ?_))
  exact hagain.symm

/-- `itoa` stores the numeral and a NUL, and nothing else. -/
theorem returns_itoa (hlo : 1 < base.toNat) (hhi : base.toNat ≤ 16) :
    (itoa v buf base).Returns m ()
      (m.writeBytes buf (Numeral.text base.toNat v.toNat ++ [0])) := by
  have hdigits := returns_itoaLoop (v := v) buf m hlo hhi []
  rw [List.nil_append, ByteMem.writeBytes_nil] at hdigits
  refine hdigits.bind ?_
  by_cases hv : v = 0
  · subst hv
    rw [digitsUp_zero, List.length_nil, ByteMem.writeBytes_nil]
    exact returns_itoaZero (Nat.lt_trans Nat.zero_lt_one hlo)
  · have hlen : (digitsUp base v).length ≠ 0 :=
      mt List.length_eq_zero_iff.mp (mt digitsUp_eq_nil_iff.mp hv)
    rw [itoaOrder, if_neg hlen, itoaEnd, if_neg hlen, text_eq_reverse hv,
      ← ByteMem.writeBytes_snoc, List.length_reverse]
    exact returns_reverseLoop.bind (returns_modify.mpr rfl)

/-- The string that `itoa` leaves at `buf`. -/
theorem spells_itoa (buf : Nat) (hlo : 1 < base.toNat) (hhi : base.toNat ≤ 16) :
    Spells (fun i => m.writeBytes buf (Numeral.text base.toNat v.toNat ++ [0]) (buf + i))
      (Numeral.text base.toNat v.toNat) := by
  refine ⟨fun i hi => ?_, fun c hc => Numeral.ne_zero_of_mem_text hlo hhi hc, ?_⟩
  · rw [ByteMem.writeBytes_at (by rw [List.length_append]; omega), List.getElem_append_left hi]
  · rw [ByteMem.writeBytes_at (by rw [List.length_append]; exact Nat.lt_succ_self _),
      List.getElem_concat_length rfl]

/-- The two bases that `printf` uses. -/
def PrintfBase (base : U32) : Prop := base = 10 ∨ base = 16

theorem PrintfBase.bounds (h : PrintfBase base) : 1 < base.toNat ∧ base.toNat ≤ 16 := by
  cases h with
  | inl h => exact h ▸ ⟨by decide, by decide⟩
  | inr h => exact h ▸ ⟨by decide, by decide⟩

/-- In the bases that `printf` uses, `itoa` terminates and leaves a NUL-terminated numeral of
its argument, with the digits 0-9 and A-F and without leading zeros. -/
theorem itoa_numeral (hbase : PrintfBase base) (value : U32) (buf : Nat) (m : ByteMem) :
    Total (itoa value buf base) m fun _ t =>
      ∃ s, Spells (fun i => t (buf + i)) s ∧ Numeral.IsNumeral base.toNat s value.toNat :=
  have ⟨hlo, hhi⟩ := hbase.bounds
  ⟨(), _, returns_itoa hlo hhi, _, spells_itoa buf hlo hhi, Numeral.isNumeral_text hlo hhi⟩

theorem itoa_numeral_largest :
    Total (itoa 0xFFFFFFFF 0x7000 16) ByteMem.zeros fun _ t =>
      ∃ s, Spells (fun i => t (0x7000 + i)) s ∧
        Numeral.IsNumeral (16 : U32).toNat s (0xFFFFFFFF : U32).toNat :=
  itoa_numeral (.inr rfl) 0xFFFFFFFF 0x7000 ByteMem.zeros

/-! ### The conversion buffer -/

/-- The string that `itoa` stores fits, with its NUL, in a buffer of `size` bytes: it
ends inside, and no byte outside has changed. -/
def FitsIn (size : Nat) (value : U32) (buf : Nat) (base : U32) (m : ByteMem) : Prop :=
  Total (itoa value buf base) m fun _ t =>
    (∃ s, Spells (fun i => t (buf + i)) s ∧ s.length + 1 ≤ size) ∧
      ∀ x, x < buf ∨ buf + size ≤ x → t x = m x

theorem fitsIn_iff {size : Nat} (hsize : 1 < size) (hlo : 1 < base.toNat)
    (hhi : base.toNat ≤ 16) : FitsIn size v buf base m ↔ v.toNat < base.toNat ^ (size - 1) := by
  have hlength : (Numeral.text base.toNat v.toNat).length ≤ size - 1 ↔
      v.toNat < base.toNat ^ (size - 1) := Numeral.length_text_le_iff hlo (by omega)
  rw [← hlength]
  constructor
  · intro h
    obtain ⟨⟨s, hs, hfits⟩, -⟩ := h.returns (returns_itoa hlo hhi)
    rw [← hs.functional (spells_itoa buf hlo hhi)]
    omega
  · intro h
    refine ⟨(), _, returns_itoa hlo hhi, ⟨_, spells_itoa buf hlo hhi, by omega⟩, fun x hx => ?_⟩
    refine ByteMem.writeBytes_other ?_
    rw [List.length_append, List.length_singleton]
    omega

/-- `char conv[10]` of `printf` holds what `itoa` stores exactly when the base is 16 or the
value has at most nine decimal digits. -/
theorem itoa_fits_iff (hbase : PrintfBase base) (value : U32) (buf : Nat) (m : ByteMem) :
    FitsIn 10 value buf base m ↔ base = 16 ∨ value.toNat < 1000000000 := by
  rw [fitsIn_iff (by decide) hbase.bounds.1 hbase.bounds.2]
  cases hbase with
  | inl hten =>
      subst hten
      exact (or_iff_right (by decide)).symm
  | inr hsixteen =>
      subst hsixteen
      have hlt : value.toNat < (16 : U32).toNat ^ (10 - 1) := Nat.lt_trans value.isLt (by decide)
      exact iff_of_true hlt (.inl rfl)

theorem itoa_fits_iff_nine_digits :
    FitsIn 10 999999999 0x7000 10 ByteMem.zeros ↔
      (10 : U32) = 16 ∨ (999999999 : U32).toNat < 1000000000 :=
  itoa_fits_iff (.inl rfl) 999999999 0x7000 ByteMem.zeros

/-- A value of ten decimal digits overruns the buffer. -/
theorem itoa_overruns : ¬ ∀ value base, PrintfBase base → ∀ buf m, FitsIn 10 value buf base m := by
  intro h
  have hfits := h 0xFFFFFFFF 10 (.inl rfl) 0x7000 ByteMem.zeros
  rw [fitsIn_iff (by decide) (by decide) (by decide)] at hfits
  exact absurd hfits (by decide)

end MyBios
