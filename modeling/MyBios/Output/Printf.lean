import MyBios.Output.Itoa

/-!
`printf` of `output.c`, as a scanner of its format.

`Prints` is what the scanner does to a format, character by character: literal
characters go out, and any character behind a `%` takes an argument, known or
not. `exists_prints` says that it gets through every format that does not end
inside a conversion, `returns_printf` that the program does the same.

* `printf_bounded_iff`: it stays inside a format that does not end with an odd
  number of `%`; otherwise the second `s++` steps over the NUL.
* `printf_formats_iff`: it agrees with the usual reading of a format when that
  has no `%%` and no signed conversion of a negative argument.
-/

namespace MyBios.Printf

open Prog

/-! ### The program -/

/-- What `printf` works on: memory with the format and the strings, the argument
words and how many of them `va_arg` has taken, the array `conv`, which is
indexed by any number because C checks no bound, and three records: the offsets
at which the format was read, the offsets of the conversions that took an
argument, and the characters that `putc` was handed. -/
structure Vars where
  mem : ByteMem
  args : Nat → U32
  ap : Nat
  conv : ByteMem
  reads : List Nat
  taken : List Nat
  out : List U8

/-- On entry. -/
def Vars.start (mem : ByteMem) (args : Nat → U32) (conv : ByteMem) : Vars :=
  ⟨mem, args, 0, conv, [], [], []⟩

def Vars.convLens : Lens Vars ByteMem where
  get := Vars.conv
  set conv p := { p with conv := conv }
  get_set _ _ := rfl
  set_get _ := rfl

/-- Byte `i` behind a pointer; pointers wrap. -/
def byteAt (mem : ByteMem) (p : U32) (i : Nat) : U8 := mem (p + BitVec.ofNat 32 i).toNat

/-- `*s` for `s = format + i`. -/
def readFormat (format : U32) (i : Nat) : Prog Vars U8 := do
  modify fun p => { p with reads := p.reads ++ [i] }
  gets fun p => byteAt p.mem format i

/-- `va_arg` for the conversion character at offset `i`. -/
def vaArg (i : Nat) : Prog Vars U32 := do
  let value ← gets fun p => p.args p.ap
  modify fun p => { p with ap := p.ap + 1, taken := p.taken ++ [i] }
  return value

def putc (c : U8) : Prog Vars Unit := modify fun p => { p with out := p.out ++ [c] }

/-- What `ins` points to: `conv`, a string of the caller, or "". -/
inductive Ins where
  | conv
  | string (p : U32)
  | empty

/-- `ins[i]`. -/
def Ins.load (ins : Ins) (i : Nat) (p : Vars) : U8 :=
  match ins with
  | conv => p.conv i
  | string s => byteAt p.mem s i
  | empty => 0

/-- `itoa(value, conv, base); ins = conv;` with the next argument as `value`. -/
def insertNumber (base : U32) (i : Nat) : Prog Vars Ins := do
  let value ← vaArg i
  zoom Vars.convLens (itoa value 0 base)
  return .conv

/-- The `switch` on the conversion character `c` at offset `i`: the pointer `ins`. -/
def convert (c : U8) (i : Nat) : Prog Vars Ins :=
  if c = 0x75 ∨ c = 0x64 ∨ c = 0x69 then insertNumber 10 i
  else if c = 0x78 ∨ c = 0x58 then insertNumber 16 i
  else if c = 0x73 then do
    let s ← vaArg i
    return .string s
  else do
    let _ ← vaArg i
    return .empty

/-- One pass of `while (*ins != '\0')`. -/
def insPass (ins : Ins) (i : Nat) : Prog Vars (Pass Nat Unit) := do
  let c ← gets (ins.load i)
  if c ≠ 0 then do
    putc c
    return .again (i + 1)
  else return .done ()

/-- One pass of `while (*s != '\0')`, from offset `s`. -/
def printfPass (format : U32) (s : Nat) : Prog Vars (Pass Nat Unit) := do
  let c ← readFormat format s
  if c = 0 then return .done ()
  else if c = 0x25 then do
    let conversion ← readFormat format (s + 1)
    let ins ← convert conversion (s + 1)
    loop (insPass ins) 0
    return .again (s + 2)
  else do
    putc c
    return .again (s + 1)

def printf (format : U32) : Prog Vars Unit := loop (printfPass format) 0

/-! ### What the scanner does -/

/-- The text that a conversion puts in for an argument. -/
inductive Inserts (mem : ByteMem) (value : U32) : U8 → List U8 → Prop where
  | decimal {c : U8} (h : c = 0x75 ∨ c = 0x64 ∨ c = 0x69) :
      Inserts mem value c (Numeral.text 10 value.toNat)
  | hex {c : U8} (h : c = 0x78 ∨ c = 0x58) : Inserts mem value c (Numeral.text 16 value.toNat)
  | string {text : List U8} (h : Spells (byteAt mem value) text) : Inserts mem value 0x73 text
  | other {c : U8} (hdecimal : ¬ (c = 0x75 ∨ c = 0x64 ∨ c = 0x69))
      (hhex : ¬ (c = 0x78 ∨ c = 0x58)) (hstring : c ≠ 0x73) : Inserts mem value c []

/-- From offset `s` and with `k` arguments taken, the format `f` makes `printf` put the
characters `out` and take arguments at the offsets `taken`. -/
inductive Prints (mem : ByteMem) (args : Nat → U32) :
    List U8 → Nat → Nat → List U8 → List Nat → Prop where
  | nil {s k : Nat} : Prints mem args [] s k [] []
  | literal {c : U8} {f out : List U8} {taken : List Nat} {s k : Nat} (h : c ≠ 0x25) :
      Prints mem args f (s + 1) k out taken → Prints mem args (c :: f) s k (c :: out) taken
  | conversion {c : U8} {text f out : List U8} {taken : List Nat} {s k : Nat} :
      Inserts mem (args k) c text → Prints mem args f (s + 2) (k + 1) out taken →
      Prints mem args (0x25 :: c :: f) s k (text ++ out) ((s + 1) :: taken)

/-- The format ends with a `%` that begins a conversion. -/
def dangling : List U8 → Bool
  | [] => false
  | [c] => c = 0x25
  | c :: d :: f => if c = 0x25 then dangling f else dangling (d :: f)

/-! ### One pass -/

/-- From `p` to `t`: what was read, taken and sent in between. -/
structure Advanced (p t : Vars) (read taken : List Nat) (sent : List U8) : Prop where
  mem : t.mem = p.mem
  args : t.args = p.args
  ap : t.ap = p.ap + taken.length
  reads : t.reads = p.reads ++ read
  taken : t.taken = p.taken ++ taken
  out : t.out = p.out ++ sent

variable {mem : ByteMem} {args : Nat → U32} {format : U32} {p t u : Vars} {c d : U8}
  {text f : List U8} {i s k : Nat}

theorem Advanced.trans {read read' taken taken' : List Nat} {sent sent' : List U8}
    (h : Advanced p t read taken sent) (h' : Advanced t u read' taken' sent') :
    Advanced p u (read ++ read') (taken ++ taken') (sent ++ sent') where
  mem := h'.mem.trans h.mem
  args := h'.args.trans h.args
  ap := by rw [h'.ap, h.ap, List.length_append, Nat.add_assoc]
  reads := by rw [h'.reads, h.reads, List.append_assoc]
  taken := by rw [h'.taken, h.taken, List.append_assoc]
  out := by rw [h'.out, h.out, List.append_assoc]

theorem returns_readFormat :
    (readFormat format i).Returns p (byteAt p.mem format i) { p with reads := p.reads ++ [i] } :=
  (returns_modify.mpr rfl).bind (a := ()) (returns_gets.mpr ⟨rfl, rfl⟩)

theorem advanced_read : Advanced p { p with reads := p.reads ++ [i] } [i] [] [] where
  mem := rfl
  args := rfl
  ap := rfl
  reads := rfl
  taken := (List.append_nil _).symm
  out := (List.append_nil _).symm

theorem returns_vaArg :
    (vaArg i).Returns p (p.args p.ap) { p with ap := p.ap + 1, taken := p.taken ++ [i] } :=
  (returns_gets.mpr ⟨rfl, rfl⟩).bind
    ((returns_modify.mpr rfl).bind (a := ()) (returns_pure.mpr ⟨rfl, rfl⟩))

theorem advanced_vaArg {conv : ByteMem} :
    Advanced p { p with ap := p.ap + 1, conv := conv, taken := p.taken ++ [i] } [] [i] [] where
  mem := rfl
  args := rfl
  ap := rfl
  reads := (List.append_nil _).symm
  taken := rfl
  out := (List.append_nil _).symm

theorem advanced_putc : Advanced p { p with out := p.out ++ text } [] [] text where
  mem := rfl
  args := rfl
  ap := rfl
  reads := (List.append_nil _).symm
  taken := (List.append_nil _).symm
  out := rfl

/-- The inner loop sends the string that `ins` points to. -/
theorem returns_insLoop {ins : Ins} (h : Spells (fun j => ins.load (i + j) p) text) :
    (loop (insPass ins) i).Returns p () { p with out := p.out ++ text } := by
  induction text generalizing p i with
  | nil =>
      have hend : ins.load i p = 0 := spells_nil.mp h
      refine returns_loop.mpr (.inl ((returns_gets.mpr ⟨rfl, rfl⟩).bind ?_))
      rw [hend, if_neg (not_not_intro rfl), List.append_nil]
      exact returns_pure.mpr ⟨rfl, rfl⟩
  | cons c text ih =>
      obtain ⟨hfirst, hc, hrest⟩ := spells_cons.mp h
      have hpass : (insPass ins i).Returns p (.again (i + 1)) { p with out := p.out ++ [c] } := by
        refine (returns_gets.mpr ⟨rfl, rfl⟩).bind ?_
        rw [show ins.load i p = c from hfirst, if_pos hc]
        exact (returns_modify.mpr rfl).bind (a := ()) (returns_pure.mpr ⟨rfl, rfl⟩)
      have hloads : Spells (fun j => ins.load (i + 1 + j) { p with out := p.out ++ [c] }) text := by
        have heq : (fun j => ins.load (i + 1 + j) { p with out := p.out ++ [c] }) =
            fun j => ins.load (i + (j + 1)) p := by
          funext j
          rw [Nat.add_assoc, Nat.add_comm 1 j]
          cases ins with
          | conv => rfl
          | string q => rfl
          | empty => rfl
        rwa [heq]
      have hloop := ih hloads
      rw [List.append_assoc, List.singleton_append] at hloop
      exact returns_loop.mpr (.inr ⟨_, _, hpass, hloop⟩)

theorem returns_insertNumber {base : U32} (h : PrintfBase base) :
    ∃ t, (insertNumber base i).Returns p .conv t ∧ Advanced p t [] [i] [] ∧
      Spells (fun j => Ins.conv.load j t)
        (Numeral.text base.toNat (p.args p.ap).toNat) := by
  obtain ⟨hlo, hhi⟩ := h.bounds
  refine ⟨_, returns_vaArg.bind ((returns_zoom.mpr ⟨_, returns_itoa hlo hhi, rfl⟩).bind
    (returns_pure.mpr ⟨rfl, rfl⟩)), advanced_vaArg, ?_⟩
  have hstored := spells_itoa (m := p.conv) (v := p.args p.ap) 0 hlo hhi
  simp only [Nat.zero_add] at hstored
  exact hstored

/-- The `switch` takes one argument, and `ins` then points to the text to put in. -/
theorem returns_convert (h : Inserts p.mem (p.args p.ap) c text) :
    ∃ ins t, (convert c i).Returns p ins t ∧ Advanced p t [] [i] [] ∧
      Spells (fun j => ins.load j t) text := by
  cases h with
  | decimal hc =>
      obtain ⟨t, hreturns, hadvanced, hspells⟩ := returns_insertNumber (p := p) (i := i) (.inl rfl)
      refine ⟨_, t, ?_, hadvanced, hspells⟩
      rwa [convert, if_pos hc]
  | hex hc =>
      obtain ⟨t, hreturns, hadvanced, hspells⟩ := returns_insertNumber (p := p) (i := i) (.inr rfl)
      refine ⟨_, t, ?_, hadvanced, hspells⟩
      have hnot : ¬ (c = 0x75 ∨ c = 0x64 ∨ c = 0x69) := by
        rcases hc with rfl | rfl <;> decide
      rwa [convert, if_neg hnot, if_pos hc]
  | string hspells =>
      exact ⟨_, _, returns_vaArg.bind (returns_pure.mpr ⟨rfl, rfl⟩), advanced_vaArg, hspells⟩
  | other hdecimal hhex hstring =>
      have hreturns : (convert c i).Returns p .empty
          { p with ap := p.ap + 1, taken := p.taken ++ [i] } := by
        rw [convert, if_neg hdecimal, if_neg hhex, if_neg hstring]
        exact returns_vaArg.bind (returns_pure.mpr ⟨rfl, rfl⟩)
      exact ⟨_, _, hreturns, advanced_vaArg, spells_nil.mpr rfl⟩

theorem returns_end (h : byteAt p.mem format s = 0) :
    ∃ t, (printfPass format s).Returns p (.done ()) t ∧ Advanced p t [s] [] [] := by
  refine ⟨_, returns_readFormat.bind ?_, advanced_read⟩
  rw [if_pos h]
  exact returns_pure.mpr ⟨rfl, rfl⟩

theorem returns_literal (h : byteAt p.mem format s = c) (hc : c ≠ 0) (hplain : c ≠ 0x25) :
    ∃ t, (printfPass format s).Returns p (.again (s + 1)) t ∧ Advanced p t [s] [] [c] := by
  refine ⟨_, returns_readFormat.bind ?_, advanced_read.trans advanced_putc⟩
  rw [h, if_neg hc, if_neg hplain]
  exact (returns_modify.mpr rfl).bind (a := ()) (returns_pure.mpr ⟨rfl, rfl⟩)

theorem returns_conversion (h : byteAt p.mem format s = 0x25)
    (hc : byteAt p.mem format (s + 1) = c) (htext : Inserts p.mem (p.args p.ap) c text) :
    ∃ t, (printfPass format s).Returns p (.again (s + 2)) t ∧
      Advanced p t [s, s + 1] [s + 1] text := by
  have hread : Advanced p
      { p with reads := p.reads ++ [s] ++ [s + 1] } [s, s + 1] [] [] :=
    advanced_read.trans (p := p) advanced_read
  obtain ⟨ins, t, hconvert, hadvanced, hspells⟩ :=
    returns_convert (p := { p with reads := p.reads ++ [s] ++ [s + 1] }) (i := s + 1) htext
  refine ⟨{ t with out := t.out ++ text }, ?_, (hread.trans hadvanced).trans advanced_putc⟩
  refine returns_readFormat.bind ?_
  rw [h, if_neg (by decide), if_pos rfl]
  refine returns_readFormat.bind ?_
  rw [hc]
  refine hconvert.bind ((returns_insLoop (i := 0) ?_).bind (returns_pure.mpr ⟨rfl, rfl⟩))
  simpa only [Nat.zero_add] using hspells

/-! ### A whole format -/

/-- `printf` does what `Prints` says, and reads the format up to its NUL. -/
theorem returns_printfLoop {out : List U8} {taken : List Nat}
    (hprints : Prints mem args f s k out taken) (hmem : p.mem = mem) (hargs : p.args = args)
    (hap : p.ap = k) (hf : Spells (fun j => byteAt mem format (s + j)) f) :
    ∃ t read, (loop (printfPass format) s).Returns p () t ∧ Advanced p t read taken out ∧
      ∀ j ∈ read, j ≤ s + f.length := by
  induction hprints generalizing p with
  | nil =>
      subst hmem
      have hnul := spells_nil.mp hf
      obtain ⟨t, hend, hadvanced⟩ := returns_end (p := p) hnul
      refine ⟨t, [_], returns_loop.mpr (.inl hend), hadvanced, fun j hj => ?_⟩
      rw [List.mem_singleton.mp hj]
      exact Nat.le_add_right _ _
  | @literal c f out taken s k hc hrest ih =>
      subst hmem hargs hap
      obtain ⟨hfirst, hnonzero, htail⟩ := spells_cons.mp hf
      obtain ⟨t, hpass, hadvanced⟩ := returns_literal (p := p) hfirst hnonzero hc
      obtain ⟨u, read, hloop, hadvanced', hread⟩ := ih hadvanced.mem hadvanced.args hadvanced.ap
        (by simpa only [Nat.add_assoc, Nat.add_comm 1] using htail)
      refine ⟨u, s :: read, returns_loop.mpr (.inr ⟨_, t, hpass, hloop⟩),
        hadvanced.trans hadvanced', fun j hj => ?_⟩
      rw [List.length_cons]
      cases List.mem_cons.mp hj with
      | inl heq => omega
      | inr hmem =>
          have := hread j hmem
          omega
  | @conversion c text f out taken s k htext hrest ih =>
      subst hmem hargs hap
      obtain ⟨hfirst, -, htail⟩ := spells_cons.mp hf
      obtain ⟨hsecond, -, htail⟩ := spells_cons.mp htail
      obtain ⟨t, hpass, hadvanced⟩ := returns_conversion (p := p) hfirst hsecond htext
      obtain ⟨u, read, hloop, hadvanced', hread⟩ := ih hadvanced.mem hadvanced.args hadvanced.ap
        (by simpa only [Nat.add_assoc, Nat.add_comm 2] using htail)
      refine ⟨u, s :: (s + 1) :: read, returns_loop.mpr (.inr ⟨_, t, hpass, hloop⟩),
        hadvanced.trans hadvanced', fun j hj => ?_⟩
      rw [List.length_cons, List.length_cons]
      rcases List.mem_cons.mp hj with rfl | hj
      · omega
      · cases List.mem_cons.mp hj with
        | inl heq => omega
        | inr hmem =>
            have := hread j hmem
            omega

/-- Some text can be put in for every conversion character: in memory with a NUL every
pointer spells a string. -/
theorem exists_inserts (hnul : ∃ a : U32, mem a.toNat = 0) (value : U32) (c : U8) :
    ∃ text, Inserts mem value c text := by
  by_cases hdecimal : c = 0x75 ∨ c = 0x64 ∨ c = 0x69
  · exact ⟨_, .decimal hdecimal⟩
  · by_cases hhex : c = 0x78 ∨ c = 0x58
    · exact ⟨_, .hex hhex⟩
    · by_cases hstring : c = 0x73
      · subst hstring
        obtain ⟨a, ha⟩ := hnul
        have hend : byteAt mem value (a - value).toNat = 0 := by
          rw [byteAt, BitVec.ofNat_toNat, BitVec.setWidth_eq, BitVec.add_comm,
            BitVec.sub_add_cancel, ha]
        obtain ⟨text, htext⟩ := exists_spells hend
        exact ⟨text, .string htext⟩
      · exact ⟨[], .other hdecimal hhex hstring⟩

/-- The scanner gets through every format that does not end inside a conversion. -/
theorem exists_prints (args : Nat → U32) (hnul : ∃ a : U32, mem a.toNat = 0) :
    ∀ {f : List U8} {s k : Nat}, dangling f = false → ∃ out taken, Prints mem args f s k out taken
  | [], _, _, _ => ⟨_, _, .nil⟩
  | [c], s, k, h => ⟨_, _, .literal (of_decide_eq_false h) .nil⟩
  | c :: d :: f, s, k, h => by
      rw [dangling] at h
      by_cases hc : c = 0x25
      · subst hc
        obtain ⟨text, htext⟩ := exists_inserts hnul (args k) d
        obtain ⟨out, taken, hrest⟩ := exists_prints args hnul (s := s + 2) (k := k + 1) h
        exact ⟨_, _, .conversion htext hrest⟩
      · rw [if_neg hc] at h
        obtain ⟨out, taken, hrest⟩ := exists_prints args hnul (s := s + 1) (k := k) h
        exact ⟨_, _, .literal hc hrest⟩

/-! ### Formats that end inside a conversion -/

theorem keeps_reads_vaArg {j : Nat} : Keeps (fun p => j ∈ p.reads) (vaArg i) := by
  refine keeps_gets.bind fun _ => Keeps.bind (keeps_modify ?_) fun _ => keeps_pure
  exact fun _ h => h

theorem keeps_reads_readFormat {j : Nat} :
    Keeps (fun p => j ∈ p.reads) (readFormat format i) := by
  refine Keeps.bind (keeps_modify ?_) fun _ => keeps_gets
  exact fun _ h => List.mem_append_left [i] h

theorem keeps_reads_putc {j : Nat} : Keeps (fun p => j ∈ p.reads) (putc c) :=
  keeps_modify fun _ h => h

theorem keeps_reads_insertNumber {j : Nat} {base : U32} :
    Keeps (fun p => j ∈ p.reads) (insertNumber base i) :=
  keeps_reads_vaArg.bind fun _ =>
    (Keeps.zoom fun _ _ _ _ _ h => h).bind fun _ => keeps_pure

theorem keeps_reads_convert {j : Nat} : Keeps (fun p => j ∈ p.reads) (convert c i) :=
  keeps_reads_insertNumber.ite <| keeps_reads_insertNumber.ite <|
    (keeps_reads_vaArg.bind fun _ => keeps_pure).ite
      (keeps_reads_vaArg.bind fun _ => keeps_pure)

theorem keeps_reads_insPass {j : Nat} {ins : Ins} :
    Keeps (fun p => j ∈ p.reads) (insPass ins i) :=
  keeps_gets.bind fun _ => (keeps_reads_putc.bind fun _ => keeps_pure).ite keeps_pure

/-- What has been read stays read. -/
theorem keeps_reads_printfPass {j : Nat} :
    Keeps (fun p => j ∈ p.reads) (printfPass format s) :=
  keeps_reads_readFormat.bind fun _ => keeps_pure.ite <|
    (keeps_reads_readFormat.bind fun _ => keeps_reads_convert.bind fun _ =>
      (Keeps.loop fun _ => keeps_reads_insPass).bind fun _ => keeps_pure).ite
      (keeps_reads_putc.bind fun _ => keeps_pure)

/-- A loop that is at offset `s` reads there. -/
theorem mem_reads_of_returns {x : Unit} (h : (loop (printfPass format) s).Returns p x t) :
    s ∈ t.reads := by
  have first : ∀ pass u, (printfPass format s).Returns p pass u → s ∈ u.reads := by
    intro pass u hpass
    have hrest := returns_readFormat.bind_iff.mp hpass
    refine (keeps_pure.ite <| Keeps.ite ?_ ?_ :
      Keeps (fun p : Vars => s ∈ p.reads) _) _ pass u hrest (List.mem_append_right _ (by simp))
    · exact keeps_reads_readFormat.bind fun _ => keeps_reads_convert.bind fun _ =>
        (Keeps.loop fun _ => keeps_reads_insPass).bind fun _ => keeps_pure
    · exact keeps_reads_putc.bind fun _ => keeps_pure
  rcases returns_loop.mp h with hdone | ⟨s', u, hpass, hrest⟩
  · exact first _ t hdone
  · exact Keeps.loop (fun _ => keeps_reads_printfPass) u x t hrest (first _ u hpass)

/-- A format that ends inside a conversion is read behind its NUL. -/
theorem reads_beyond (hnul : ∃ a : U32, mem a.toNat = 0) {x : Unit} (h : dangling f = true)
    (hmem : p.mem = mem) (hf : Spells (fun j => byteAt mem format (s + j)) f)
    (hreturns : (loop (printfPass format) s).Returns p x t) : s + f.length + 1 ∈ t.reads := by
  induction f using dangling.induct generalizing s p with
  | case1 => exact absurd h (by decide)
  | case2 c =>
      obtain rfl : c = 0x25 := of_decide_eq_true h
      subst hmem
      obtain ⟨hfirst, -, htail⟩ := spells_cons.mp hf
      obtain ⟨u, hpass, -⟩ := returns_conversion (p := p) hfirst (spells_nil.mp htail)
        (.other (by decide) (by decide) (by decide))
      exact mem_reads_of_returns (hpass.loop_again_iff.mp hreturns)
  | case3 d f ih =>
      subst hmem
      rw [dangling, if_pos rfl] at h
      obtain ⟨hfirst, -, htail⟩ := spells_cons.mp hf
      obtain ⟨hsecond, -, htail⟩ := spells_cons.mp htail
      obtain ⟨text, htext⟩ := exists_inserts hnul (p.args p.ap) d
      obtain ⟨u, hpass, hadvanced⟩ := returns_conversion (p := p) hfirst hsecond htext
      have hbeyond := ih h hadvanced.mem
        (by simpa only [Nat.add_assoc, Nat.add_comm 2] using htail)
        (hpass.loop_again_iff.mp hreturns)
      have heq : s + 2 + f.length + 1 = s + (f.length + 1 + 1) + 1 := by omega
      rwa [heq] at hbeyond
  | case4 c d f hc ih =>
      subst hmem
      rw [dangling, if_neg hc] at h
      obtain ⟨hfirst, hnonzero, htail⟩ := spells_cons.mp hf
      obtain ⟨u, hpass, hadvanced⟩ := returns_literal (p := p) hfirst hnonzero hc
      have hbeyond := ih h hadvanced.mem
        (by simpa only [Nat.add_assoc, Nat.add_comm 1] using htail)
        (hpass.loop_again_iff.mp hreturns)
      have heq : s + 1 + (f.length + 1) + 1 = s + (f.length + 1 + 1) + 1 := by omega
      rwa [List.length_cons, heq] at hbeyond

/-- The number of `%` at the end of a format. -/
def percentsAtEnd (f : List U8) : Nat := (f.reverse.takeWhile (· = 0x25)).length

theorem percentsAtEnd_cons :
    percentsAtEnd (c :: f) =
      if percentsAtEnd f = f.length ∧ c = 0x25 then f.length + 1 else percentsAtEnd f := by
  rw [percentsAtEnd, percentsAtEnd, List.reverse_cons, List.takeWhile_append, List.length_reverse]
  by_cases hall : (f.reverse.takeWhile (· = 0x25)).length = f.length
  · rw [if_pos hall, List.length_append, List.length_reverse]
    by_cases hc : c = 0x25
    · rw [if_pos ⟨hall, hc⟩, List.takeWhile_cons_of_pos (by simpa using hc)]
      rfl
    · rw [if_neg (fun h => hc h.2), List.takeWhile_cons_of_neg (by simpa using hc)]
      exact hall.symm
  · rw [if_neg hall, if_neg (fun h => hall h.1)]

theorem percentsAtEnd_le : percentsAtEnd f ≤ f.length := by
  have hlength : f.reverse.length = f.length := List.length_reverse
  rw [percentsAtEnd, ← hlength]
  exact (List.takeWhile_prefix _).length_le

/-- A conversion leaves the parity as it is. -/
theorem percentsAtEnd_conversion :
    percentsAtEnd (0x25 :: c :: f) % 2 = percentsAtEnd f % 2 := by
  have hle := percentsAtEnd_le (f := f)
  rw [percentsAtEnd_cons (c := 0x25), percentsAtEnd_cons, List.length_cons]
  by_cases hall : percentsAtEnd f = f.length ∧ c = 0x25
  · rw [if_pos hall, if_pos ⟨rfl, rfl⟩, hall.1]
    omega
  · rw [if_neg hall, if_neg (fun h => by omega)]

/-- Whether the last `%` begins a conversion is a matter of parity. -/
theorem dangling_iff : dangling f = true ↔ percentsAtEnd f % 2 = 1 := by
  induction f using dangling.induct with
  | case1 => exact iff_of_false (by decide) (by decide)
  | case2 c =>
      rw [percentsAtEnd_cons]
      by_cases hc : c = 0x25
      · rw [if_pos ⟨rfl, hc⟩]
        exact iff_of_true (decide_eq_true hc) rfl
      · rw [if_neg (fun h => hc h.2)]
        exact iff_of_false (by simpa [dangling] using hc) (by decide)
  | case3 d f ih =>
      rw [dangling, if_pos rfl, ih, percentsAtEnd_conversion]
  | case4 c d f hc ih =>
      rw [dangling, if_neg hc, ih, percentsAtEnd_cons (c := c), if_neg (fun h => hc h.2)]

/-- `printf` terminates and reads no byte behind the NUL of the format `f`. -/
def Bounded (mem : ByteMem) (args : Nat → U32) (conv : ByteMem) (format : U32) (f : List U8) :
    Prop :=
  Total (printf format) (Vars.start mem args conv) fun _ t => ∀ i ∈ t.reads, i ≤ f.length

theorem bounded_of_not_dangling (args : Nat → U32) (conv : ByteMem)
    (hf : Spells (byteAt mem format) f) (h : dangling f = false) :
    Bounded mem args conv format f := by
  obtain ⟨out, taken, hprints⟩ :=
    exists_prints args (s := 0) (k := 0) ⟨_, hf.terminator⟩ h
  obtain ⟨t, read, hreturns, hadvanced, hread⟩ :=
    returns_printfLoop (p := Vars.start mem args conv) hprints rfl rfl rfl
      (by simpa only [Nat.zero_add] using hf)
  refine ⟨(), t, hreturns, fun i hi => ?_⟩
  have hreads : t.reads = read := hadvanced.reads
  have := hread i (hreads ▸ hi)
  omega

theorem not_bounded_of_dangling (args : Nat → U32) (conv : ByteMem)
    (hf : Spells (byteAt mem format) f) (h : dangling f = true) :
    ¬ Bounded mem args conv format f := by
  rintro ⟨x, t, hreturns, hbounded⟩
  have hbeyond := reads_beyond ⟨_, hf.terminator⟩ h rfl
    (by simpa only [Nat.zero_add] using hf) hreturns
  have := hbounded _ hbeyond
  omega

/-- `printf` terminates without reading behind the NUL of its format exactly when the number
of `%` at the end of the format is even. -/
theorem printf_bounded_iff (args : Nat → U32) (conv : ByteMem)
    (hf : Spells (byteAt mem format) f) :
    Bounded mem args conv format f ↔ percentsAtEnd f % 2 = 0 := by
  cases hd : dangling f with
  | false =>
      have hnot : percentsAtEnd f % 2 ≠ 1 := fun h => by simp [dangling_iff.mpr h] at hd
      exact iff_of_true (bounded_of_not_dangling args conv hf hd) (by omega)
  | true =>
      have hodd := dangling_iff.mp hd
      exact iff_of_false (not_bounded_of_dangling args conv hf hd) (by omega)

/-- Memory with the string "%d%" at 0x7000 and 0 elsewhere. -/
def percentMem : ByteMem := ByteMem.zeros.writeBytes 0x7000 [0x25, 0x64, 0x25]

theorem spells_percentMem : Spells (byteAt percentMem 0x7000) [0x25, 0x64, 0x25] := by
  refine spells_cons.mpr ⟨by decide, by decide, spells_cons.mpr ⟨by decide, by decide, ?_⟩⟩
  exact spells_cons.mpr ⟨by decide, by decide, spells_nil.mpr (by decide)⟩

theorem printf_bounded_iff_percentMem :
    Bounded percentMem (fun _ => 7) ByteMem.zeros 0x7000 [0x25, 0x64, 0x25] ↔
      percentsAtEnd [0x25, 0x64, 0x25] % 2 = 0 :=
  printf_bounded_iff (fun _ => 7) ByteMem.zeros spells_percentMem

/-- A format that ends with `%`. -/
theorem printf_unbounded :
    ¬ ∀ mem args conv format f, Spells (byteAt mem format) f →
      Bounded mem args conv format f := fun h =>
  not_bounded_of_dangling (fun _ => 7) ByteMem.zeros spells_percentMem (by decide)
    (h percentMem (fun _ => 7) ByteMem.zeros 0x7000 [0x25, 0x64, 0x25] spells_percentMem)

/-! ### Formats as pieces -/

/-- A piece of a format, with the argument that belongs to it: a literal character, a
conversion, or `%%`. -/
inductive Piece where
  | literal (c : U8) (nonzero : c ≠ 0) (plain : c ≠ 0x25)
  | d (v : U32)
  | i (v : U32)
  | u (v : U32)
  | x (v : U32)
  | X (v : U32)
  | s (p : U32) (text : List U8)
  | percent

namespace Piece

/-- How the piece is written in the format. -/
def spelling : Piece → List U8
  | .literal c _ _ => [c]
  | .d _ => [0x25, 0x64]
  | .i _ => [0x25, 0x69]
  | .u _ => [0x25, 0x75]
  | .x _ => [0x25, 0x78]
  | .X _ => [0x25, 0x58]
  | .s _ _ => [0x25, 0x73]
  | .percent => [0x25, 0x25]

/-- The argument word that the piece uses. -/
def argument : Piece → Option U32
  | .literal _ _ _ => none
  | .d v => some v
  | .i v => some v
  | .u v => some v
  | .x v => some v
  | .X v => some v
  | .s p _ => some p
  | .percent => none

/-- A signed number in decimal. -/
def signedText (v : U32) : List U8 :=
  if v.toInt < 0 then 0x2D :: Numeral.text 10 v.toInt.natAbs
  else Numeral.text 10 v.toInt.natAbs

/-- What the piece stands for. -/
def expected : Piece → List U8
  | .literal c _ _ => [c]
  | .d v => signedText v
  | .i v => signedText v
  | .u v => Numeral.text 10 v.toNat
  | .x v => Numeral.text 16 v.toNat
  | .X v => Numeral.text 16 v.toNat
  | .s _ text => text
  | .percent => [0x25]

/-- The pieces that `printf` reads as a signed number. -/
def signed : Piece → Option U32
  | .d v => some v
  | .i v => some v
  | _ => none

end Piece

/-- The offsets of the conversions that use an argument, for pieces that start at `s`. -/
def offsets : Nat → List Piece → List Nat
  | _, [] => []
  | s, q :: qs =>
    if q.argument.isSome then (s + 1) :: offsets (s + q.spelling.length) qs
    else offsets (s + q.spelling.length) qs

/-- A call of `printf` with the pieces as its format and with their arguments. -/
structure Call (mem : ByteMem) (args : Nat → U32) (format : U32) (pieces : List Piece) : Prop where
  format : Spells (byteAt mem format) (pieces.flatMap Piece.spelling)
  arguments : ∀ k v, (pieces.filterMap Piece.argument)[k]? = some v → args k = v
  strings : ∀ p text, .s p text ∈ pieces → Spells (byteAt mem p) text

/-- `printf` sends the characters that the pieces stand for, and takes argument `k` at the
`k`-th conversion that uses one. -/
def Formats (mem : ByteMem) (args : Nat → U32) (conv : ByteMem) (format : U32)
    (pieces : List Piece) : Prop :=
  Total (printf format) (Vars.start mem args conv) fun _ t =>
    t.out = pieces.flatMap Piece.expected ∧ t.taken = offsets 0 pieces

/-! ### The two readings of a format -/

/-- What `printf` sends for a piece: a signed number goes out as an unsigned one, and
`%%` as nothing. -/
def Piece.sent : Piece → List U8
  | .d v => Numeral.text 10 v.toNat
  | .i v => Numeral.text 10 v.toNat
  | .percent => []
  | q => q.expected

theorem signedText_of_nonneg {v : U32} (h : 0 ≤ v.toInt) :
    Piece.signedText v = Numeral.text 10 v.toNat := by
  have hmsb : v.msb = false := by
    rw [BitVec.msb_eq_toInt, decide_eq_false (by omega)]
  rw [Piece.signedText, if_neg (by omega), BitVec.toInt_eq_toNat_of_msb hmsb, Int.natAbs_natCast]

/-- The minus sign of a negative number is no digit. -/
theorem signedText_append_ne {v : U32} {rest rest' : List U8} (h : v.toInt < 0) :
    Numeral.text 10 v.toNat ++ rest ≠ Piece.signedText v ++ rest' := by
  intro heq
  have hhead := congrArg List.head? heq
  rw [Piece.signedText, if_pos h, List.head?_append_of_ne_nil _ Numeral.text_ne_nil] at hhead
  obtain ⟨d, hd, hminus⟩ := Numeral.exists_of_mem_text (by decide) (List.mem_of_head? hhead)
  have htoNat := congrArg BitVec.toNat hminus
  rw [Numeral.toNat_digit (by omega), if_pos hd] at htoNat
  have hlow : (0x2D : U8).toNat = 0x2D := rfl
  omega

/-- A piece is a literal character, or a `%` and a letter. -/
theorem Piece.spelling_cases (q : Piece) :
    (∃ c h h', q = .literal c h h') ∨ ∃ c, q.spelling = [0x25, c] := by
  cases q with
  | literal c h h' => exact .inl ⟨c, h, h', rfl⟩
  | _ => exact .inr ⟨_, rfl⟩

/-- A conversion inserts what the piece is said to send. -/
theorem Piece.inserts {q : Piece} {v : U32} (harg : q.argument = some v)
    (hstring : ∀ p text, q = .s p text → Spells (byteAt mem p) text) :
    ∃ c, q.spelling = [0x25, c] ∧ Inserts mem v c q.sent := by
  cases q with
  | literal c h h' => cases harg
  | percent => cases harg
  | d w => cases harg; exact ⟨_, rfl, .decimal (by decide)⟩
  | i w => cases harg; exact ⟨_, rfl, .decimal (by decide)⟩
  | u w => cases harg; exact ⟨_, rfl, .decimal (by decide)⟩
  | x w => cases harg; exact ⟨_, rfl, .hex (by decide)⟩
  | X w => cases harg; exact ⟨_, rfl, .hex (by decide)⟩
  | s p text => cases harg; exact ⟨_, rfl, .string (hstring _ _ rfl)⟩

/-- Without `%%`, every piece is printed on its own, with its own argument. -/
theorem prints_pieces {qs : List Piece} (hpercent : .percent ∉ qs)
    (hargs : ∀ j v, (qs.filterMap Piece.argument)[j]? = some v → args (k + j) = v)
    (hstrings : ∀ p text, .s p text ∈ qs → Spells (byteAt mem p) text) :
    Prints mem args (qs.flatMap Piece.spelling) s k (qs.flatMap Piece.sent) (offsets s qs) := by
  induction qs generalizing s k with
  | nil => exact .nil
  | cons q qs ih =>
      have hpercent' : .percent ∉ qs := fun h => hpercent (List.mem_cons_of_mem _ h)
      have hstrings' := fun p text h => hstrings p text (List.mem_cons_of_mem q h)
      rw [List.flatMap_cons, List.flatMap_cons, offsets]
      cases harg : q.argument with
      | none =>
          rw [List.filterMap_cons_none harg] at hargs
          cases q with
          | literal c h h' => exact .literal h' (ih hpercent' hargs hstrings')
          | percent => exact absurd List.mem_cons_self hpercent
          | _ => cases harg
      | some v =>
          rw [List.filterMap_cons_some harg] at hargs
          obtain ⟨c, hspelling, hinserts⟩ := q.inserts harg
            (fun p text h => hstrings p text (h ▸ List.mem_cons_self))
          have hv : args k = v := hargs 0 v rfl
          have hrest := ih (s := s + 2) (k := k + 1) hpercent'
            (fun j w hj => by rw [Nat.add_assoc, Nat.add_comm 1]; exact hargs (j + 1) w hj)
            hstrings'
          rw [hspelling]
          exact .conversion (hv ▸ hinserts) hrest

theorem Prints.of_literal {out : List U8} {taken : List Nat} (hc : c ≠ 0x25)
    (h : Prints mem args (c :: f) s k out taken) :
    ∃ out', Prints mem args f (s + 1) k out' taken := by
  cases h with
  | literal _ hrest => exact ⟨_, hrest⟩
  | conversion _ _ => exact absurd rfl hc

theorem Prints.of_conversion {out : List U8} {taken : List Nat}
    (h : Prints mem args (0x25 :: c :: f) s k out taken) :
    ∃ out' taken', Prints mem args f (s + 2) (k + 1) out' taken' ∧ taken = (s + 1) :: taken' := by
  cases h with
  | literal hc _ => exact absurd rfl hc
  | conversion _ hrest => exact ⟨_, _, hrest, rfl⟩

/-- `%%` takes an argument that no piece has. -/
theorem offsets_length_le {qs : List Piece} {out : List U8} {taken : List Nat}
    (h : Prints mem args (qs.flatMap Piece.spelling) s k out taken) :
    (offsets s qs).length ≤ taken.length ∧
      (.percent ∈ qs → (offsets s qs).length < taken.length) := by
  induction qs generalizing s k out taken with
  | nil => exact ⟨Nat.zero_le _, fun h => absurd h List.not_mem_nil⟩
  | cons q qs ih =>
      rw [List.flatMap_cons] at h
      rw [offsets, List.mem_cons]
      rcases q.spelling_cases with ⟨c, hc, hplain, rfl⟩ | ⟨c, hspelling⟩
      · obtain ⟨out', hrest⟩ := h.of_literal hplain
        exact ⟨(ih hrest).1, fun hmem => (ih hrest).2 (hmem.resolve_left (by simp))⟩
      · rw [hspelling] at h ⊢
        obtain ⟨out', taken', hrest, rfl⟩ := h.of_conversion
        obtain ⟨hle, hlt⟩ := ih hrest
        cases harg : q.argument with
        | none => exact ⟨Nat.le_succ_of_le hle, fun _ => Nat.lt_succ_of_le hle⟩
        | some v =>
            refine ⟨Nat.succ_le_succ hle, fun hmem => Nat.succ_lt_succ (hlt ?_)⟩
            refine hmem.resolve_left ?_
            rintro rfl
            cases harg

/-- The two readings agree on the characters when no signed argument is negative. -/
theorem sent_eq_expected_iff {qs : List Piece} (hpercent : .percent ∉ qs) :
    qs.flatMap Piece.sent = qs.flatMap Piece.expected ↔
      ∀ q ∈ qs, ∀ v, q.signed = some v → 0 ≤ v.toInt := by
  induction qs with
  | nil => exact iff_of_true rfl (by simp)
  | cons q qs ih =>
      have ih := ih fun h => hpercent (List.mem_cons_of_mem _ h)
      have hq : q ≠ .percent := fun h => hpercent (h ▸ List.mem_cons_self)
      rw [List.flatMap_cons, List.flatMap_cons, List.forall_mem_cons]
      by_cases hneg : ∃ v, q.signed = some v ∧ v.toInt < 0
      · obtain ⟨v, hv, hlt⟩ := hneg
        refine iff_of_false ?_ fun h => absurd (h.1 v hv) (by omega)
        cases q with
        | d w => cases hv; exact signedText_append_ne hlt
        | i w => cases hv; exact signedText_append_ne hlt
        | _ => cases hv
      · have hnonneg : ∀ v, q.signed = some v → 0 ≤ v.toInt := fun v hv =>
          Int.not_lt.mp fun hlt => hneg ⟨v, hv, hlt⟩
        have hsame : q.sent = q.expected := by
          cases q with
          | d w => exact (signedText_of_nonneg (hnonneg w rfl)).symm
          | i w => exact (signedText_of_nonneg (hnonneg w rfl)).symm
          | percent => exact absurd rfl hq
          | _ => rfl
        rw [hsame, List.append_cancel_left_eq, ih]
        exact (and_iff_right hnonneg).symm

/-- The format of pieces does not end inside a conversion. -/
theorem dangling_pieces (qs : List Piece) : dangling (qs.flatMap Piece.spelling) = false := by
  induction qs with
  | nil => rfl
  | cons q qs ih =>
      rw [List.flatMap_cons]
      rcases q.spelling_cases with ⟨c, hc, hplain, rfl⟩ | ⟨c, hspelling⟩
      · show dangling (c :: qs.flatMap Piece.spelling) = false
        cases hrest : qs.flatMap Piece.spelling with
        | nil => exact decide_eq_false hplain
        | cons e f => rw [dangling, if_neg hplain, ← hrest, ih]
      · rw [hspelling]
        show dangling (0x25 :: c :: qs.flatMap Piece.spelling) = false
        rw [dangling, if_pos rfl, ih]

/-- What a call of `printf` sends and takes is what the scanner does to its format. -/
theorem Call.returns {pieces : List Piece} {out : List U8} {taken : List Nat}
    (h : Call mem args format pieces) (conv : ByteMem)
    (hprints : Prints mem args (pieces.flatMap Piece.spelling) 0 0 out taken) :
    ∃ t, (printf format).Returns (Vars.start mem args conv) () t ∧ t.out = out ∧
      t.taken = taken := by
  obtain ⟨t, read, hreturns, hadvanced, -⟩ :=
    returns_printfLoop (p := Vars.start mem args conv) hprints rfl rfl rfl
      (by simpa only [Nat.zero_add] using h.format)
  exact ⟨t, hreturns, hadvanced.out, hadvanced.taken⟩

/-- An argument is taken for every `%%`. -/
theorem Call.not_formats {pieces : List Piece} (h : Call mem args format pieces)
    (conv : ByteMem) (hpercent : .percent ∈ pieces) : ¬ Formats mem args conv format pieces := by
  intro hformats
  obtain ⟨out, taken, hprints⟩ := exists_prints args (s := 0) (k := 0)
    ⟨_, h.format.terminator⟩ (dangling_pieces pieces)
  obtain ⟨t, hreturns, -, htaken⟩ := h.returns conv hprints
  have hlt := (offsets_length_le hprints).2 hpercent
  rw [← htaken, (hformats.returns hreturns).2] at hlt
  exact Nat.lt_irrefl _ hlt

/-- Without `%%`, every conversion takes its own argument, and the characters are right
exactly when no signed argument is negative. -/
theorem Call.formats_iff {pieces : List Piece} (h : Call mem args format pieces)
    (conv : ByteMem) (hpercent : .percent ∉ pieces) :
    Formats mem args conv format pieces ↔
      ∀ q ∈ pieces, ∀ v, q.signed = some v → 0 ≤ v.toInt := by
  have hprints : Prints mem args (pieces.flatMap Piece.spelling) 0 0 (pieces.flatMap Piece.sent)
      (offsets 0 pieces) :=
    prints_pieces hpercent (fun j v hj => by rw [Nat.zero_add]; exact h.arguments j v hj) h.strings
  obtain ⟨t, hreturns, hout, htaken⟩ := h.returns conv hprints
  rw [← sent_eq_expected_iff hpercent, ← hout]
  constructor
  · exact fun hformats => (hformats.returns hreturns).1
  · exact fun hsent => ⟨(), t, hreturns, hsent, htaken⟩

/-- `printf` sends what its format stands for, every conversion with its own argument, exactly
when the format has no `%%` and no argument of a signed conversion is negative. -/
theorem printf_formats_iff {pieces : List Piece} (h : Call mem args format pieces)
    (conv : ByteMem) :
    Formats mem args conv format pieces ↔
      .percent ∉ pieces ∧ ∀ q ∈ pieces, ∀ v, q.signed = some v → 0 ≤ v.toInt := by
  by_cases hpercent : .percent ∈ pieces
  · exact iff_of_false (h.not_formats conv hpercent) fun hgood => hgood.1 hpercent
  · rw [h.formats_iff conv hpercent]
    exact (and_iff_right hpercent).symm

/-- Memory with the string "%d%%" at 0x7000 and 0 elsewhere. -/
def signedMem : ByteMem := ByteMem.zeros.writeBytes 0x7000 [0x25, 0x64, 0x25, 0x25]

/-- `printf("%d%%", v)`. -/
theorem signedMem_call (v : U32) : Call signedMem (fun _ => v) 0x7000 [.d v, .percent] where
  format := by
    refine spells_cons.mpr ⟨by decide, by decide, spells_cons.mpr ⟨by decide, by decide, ?_⟩⟩
    refine spells_cons.mpr ⟨by decide, by decide, spells_cons.mpr ⟨by decide, by decide, ?_⟩⟩
    exact spells_nil.mpr (by decide)
  arguments k w hk := by
    cases k with
    | zero => exact Option.some.inj hk
    | succ k => cases hk
  strings p text h := by
    cases List.mem_cons.mp h with
    | inl heq => cases heq
    | inr hmem => cases List.mem_singleton.mp hmem

theorem printf_formats_iff_signedMem :
    Formats signedMem (fun _ => 5) ByteMem.zeros 0x7000 [.d 5, .percent] ↔
      Piece.percent ∉ [.d 5, .percent] ∧
        ∀ q ∈ [Piece.d 5, .percent], ∀ v, q.signed = some v → 0 ≤ v.toInt :=
  printf_formats_iff (signedMem_call 5) ByteMem.zeros

/-- A percent sign in a format. -/
theorem printf_misformats :
    ¬ ∀ mem args format pieces, Call mem args format pieces → ∀ conv,
      Formats mem args conv format pieces := fun h =>
  (signedMem_call 5).not_formats ByteMem.zeros (by simp)
    (h signedMem (fun _ => 5) 0x7000 [.d 5, .percent] (signedMem_call 5) ByteMem.zeros)

end MyBios.Printf
