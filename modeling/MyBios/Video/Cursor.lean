import MyBios.Lib.Lts
import MyBios.Video.Terminal

/-!
The cursor of the text screen under any sequence of calls.

`vga.h` declares `vgaCls` without a parameter, and `vga.c` defines it with one, so
a call `vgaCls()` makes the definition read whatever is there as its `line`, and
that becomes the line of the cursor.

* `putChar_stays`, `setCursor_stays`: the other two calls keep the cursor on the
  screen and their stores in the text page.
* `cursor_stays_iff`: a run stays on the screen exactly when every line that
  `vgaCls` was given by accident is one of the screen.
-/

namespace MyBios.Screen

open Prog Lts

/-- A call of the main program. -/
inductive Call where
  /-- `vgaCls()`, which finds `line` in the place of its parameter -/
  | cls (line : U32)
  | setCursor (line : Fin 25) (col : Fin 80)
  | putChar (c : U8)

section Program

variable {δ : Type} [Bus δ]

def Call.prog : Call → Prog (Vga δ) Unit
  | cls line => vgaCls line
  | setCursor line col => vgaSetCursor (BitVec.ofNat 32 line) (BitVec.ofNat 32 col)
  | putChar c => vgaPutChar c

/-- One call. -/
def Step (s : Vga δ) (call : Call) (t : Vga δ) : Prop := call.prog.Returns s () t

end Program

/-! ### The screen -/

variable {δ : Type}

/-- `cur_line` and `cur_col` name a cell. -/
structure OnScreen (s : Vga δ) : Prop where
  line_lt : s.curLine.toNat < 25
  col_lt : s.curCol.toNat < 80

/-- No byte outside the 4000 bytes of text memory differs. -/
def OnlyText (m m' : ByteMem) : Prop := ∀ a, a < 0xB8000 ∨ 0xB8000 + 4000 ≤ a → m' a = m a

/-- The two static variables start at zero. -/
def boot (io : Ports δ) (m : ByteMem) : Vga δ := ⟨0, 0, io, m⟩

/-- Calls that all return, each with the cursor on the screen and with no store outside text
memory. A store that puts back the byte it finds shows in another memory `m`. -/
structure Stays [Bus δ] (io : Ports δ) (calls : List Call) : Prop where
  returns : ∀ m, ∃ s, Run Step (boot io m) calls s
  good : ∀ m before s, before ≠ [] → before <+: calls → Run Step (boot io m) before s →
    OnScreen s ∧ OnlyText m s.mem

/-- The line that `vgaCls` finds is one of the screen. -/
def Call.lineOnScreen : Call → Prop
  | cls line => line.toNat % 256 < 25
  | _ => True

variable {s t : Vga δ} {m m' m'' : ByteMem} {c : U8}

theorem OnlyText.trans (h : OnlyText m m') (h' : OnlyText m' m'') : OnlyText m m'' :=
  fun a ha => (h' a ha).trans (h a ha)

theorem onlyText_blankWords {start n : Nat} (h : start + n ≤ 1000) :
    OnlyText m (blankWords start n m) := fun a ha =>
  blankWords_outside (by rw [textWord, show txtBase.toNat = 0xB8000 from rfl]; omega)

theorem onlyText_vgaScroll : OnlyText m (vgaScroll m) := by
  have hcopy : OnlyText m (copyLines 24 m) := fun a ha =>
    copied_copyLines.frame a (by rw [textWord, show txtBase.toNat = 0xB8000 from rfl]; omega)
  exact hcopy.trans (onlyText_blankWords (by decide))

theorem onlyText_vgaSetCharLc {line col : U8} (hl : line.toNat < 25) (hc : col.toNat < 80) :
    OnlyText m (vgaSetCharLc (line.setWidth 32) (col.setWidth 32) c m) := by
  intro a ha
  have hbase : txtBase.toNat = 0xB8000 := rfl
  rw [vgaSetCharLc_eq hl hc, ByteMem.write8_other (by rw [cellAddr]; omega),
    ByteMem.write8_other (by rw [cellAddr]; omega)]

/-! ### Each call -/

/-- On the screen, the `switch` of `vgaPutChar` stores in text memory. -/
theorem onlyText_place (h : OnScreen s) : OnlyText s.mem (s.place c).mem := by
  rw [Vga.place]
  split
  · exact fun _ _ => rfl
  · split
    · exact fun _ _ => rfl
    · exact onlyText_vgaSetCharLc h.line_lt h.col_lt

theorem wrap_mem : s.wrap.mem = s.mem := by
  rw [Vga.wrap]
  split <;> rfl

/-- The two tests of `vgaPutChar` bring the cursor back, wherever it is. -/
theorem wrap_col_lt : s.wrap.curCol.toNat < 80 := by
  rw [Vga.wrap]
  split
  · exact Nat.zero_lt_succ 79
  · rename_i hcol
    exact Nat.not_le.mp hcol

theorem onScreen_scroll (hc : s.curCol.toNat < 80) : OnScreen s.scroll := by
  rw [Vga.scroll]
  split
  · have hlast : (24 : U8).toNat < 25 := by decide
    exact ⟨hlast, hc⟩
  · rename_i hline
    exact ⟨Nat.not_le.mp hline, hc⟩

theorem onlyText_scroll : OnlyText s.mem s.scroll.mem := by
  rw [Vga.scroll]
  split
  · exact onlyText_vgaScroll
  · exact fun _ _ => rfl

section Calls

variable [Bus δ]

theorem setCursor_stays {line col : U32} (hl : line.toNat < 25) (hc : col.toNat < 80) :
    Total (vgaSetCursor line col) s fun _ t => OnScreen t ∧ t.mem = s.mem := by
  refine (vgaSetCursor_total line col).mono fun _ t ⟨hline, hcol, hmem, _⟩ => ⟨⟨?_, ?_⟩, hmem⟩
  · rw [hline, BitVec.toNat_setWidth]
    omega
  · rw [hcol, BitVec.toNat_setWidth]
    omega

theorem putChar_stays (h : OnScreen s) :
    Total (vgaPutChar c) s fun _ t => OnScreen t ∧ OnlyText s.mem t.mem := by
  have hscreen := onScreen_scroll (wrap_col_lt (s := s.place c))
  have htext : OnlyText s.mem (s.place c).wrap.scroll.mem := by
    refine (onlyText_place (c := c) h).trans ?_
    rw [← wrap_mem (s := s.place c)]
    exact onlyText_scroll
  refine Total.modify_bind (Total.modify_bind (Total.modify_bind ?_))
  refine Total.gets_bind (f := id) ?_
  have hline := setWidth_byte.trans_lt hscreen.line_lt
  have hcol := setWidth_byte.trans_lt hscreen.col_lt
  refine (setCursor_stays hline hcol).mono ?_
  rintro _ t ⟨hon, hmem⟩
  exact ⟨hon, hmem ▸ htext⟩

/-- A string. -/
theorem putChars_stays (h : OnScreen s) (text : List U8) :
    Total (vgaPutChars text) s fun _ t => OnScreen t ∧ OnlyText s.mem t.mem := by
  induction text generalizing s with
  | nil => exact total_pure ⟨h, fun _ _ => rfl⟩
  | cons c cs ih =>
      refine (putChar_stays h).bind fun _ t ⟨hon, htext⟩ => ?_
      exact (ih hon).mono fun _ u ⟨hon', htext'⟩ => ⟨hon', htext.trans htext'⟩

omit [Bus δ] in
/-- `vgaCls` stores in text memory only, and takes its line. -/
theorem cls_returns (line : U32) :
    Total (vgaCls line) s fun _ t =>
      (OnScreen t ↔ line.toNat % 256 < 25) ∧ OnlyText s.mem t.mem := by
  have htext : OnlyText s.mem (blankWords 0 1000 s.mem) := onlyText_blankWords (by omega)
  have hcol : (0 : U8).toNat < 80 := Nat.zero_lt_succ 79
  refine total_modify ?_
  dsimp only
  refine ⟨?_, htext⟩
  rw [← show (line.setWidth 8).toNat = line.toNat % 256 from BitVec.toNat_setWidth 8 line]
  exact ⟨fun h => h.line_lt, fun h => ⟨h, hcol⟩⟩

/-- A call returns, and stays on the screen if its line is one of the screen. -/
theorem Call.stays (call : Call) (hline : call.lineOnScreen) (h : OnScreen s) :
    Total call.prog s fun _ t => OnScreen t ∧ OnlyText s.mem t.mem := by
  cases call with
  | cls line =>
      exact (cls_returns line).mono fun _ t ht => ⟨ht.1.mpr hline, ht.2⟩
  | setCursor line col =>
      have hl : (BitVec.ofNat 32 line).toNat < 25 := by
        rw [BitVec.toNat_ofNat]
        omega
      have hc : (BitVec.ofNat 32 col).toNat < 80 := by
        rw [BitVec.toNat_ofNat]
        omega
      exact (setCursor_stays hl hc).mono fun _ t ht => ⟨ht.1, fun a _ => by rw [ht.2]⟩
  | putChar c => exact putChar_stays h

/-! ### Runs -/

variable {io : Ports δ} {m : ByteMem} {calls : List Call}

omit [Bus δ] in
theorem onScreen_boot : OnScreen (boot io m) :=
  ⟨Nat.zero_lt_succ 24, Nat.zero_lt_succ 79⟩

/-- After calls that all find a line of the screen. -/
theorem run_stays (hlines : ∀ call ∈ calls, call.lineOnScreen)
    (run : Run Step (boot io m) calls s) : OnScreen s ∧ OnlyText m s.mem := by
  refine run.invariant
    (I := fun ls s => (∀ call ∈ ls, call.lineOnScreen) → OnScreen s ∧ OnlyText m s.mem)
    (fun _ => ⟨onScreen_boot, fun _ _ => rfl⟩) ?_ hlines
  intro before s call t ih hstep hall
  obtain ⟨hon, htext⟩ := ih fun call hcall => hall call (List.mem_append_left _ hcall)
  have hline := hall call (List.mem_append_right before (List.mem_singleton_self call))
  obtain ⟨hon', htext'⟩ := (call.stays hline hon).returns hstep
  exact ⟨hon', htext.trans htext'⟩

/-- Such calls all return. -/
theorem run_exists (hlines : ∀ call ∈ calls, call.lineOnScreen) :
    ∃ s, Run Step (boot io m) calls s := by
  induction calls using List.reverseRecOn with
  | nil => exact ⟨_, .nil⟩
  | append_singleton before call ih =>
      have hbefore : ∀ call ∈ before, call.lineOnScreen := fun call hcall =>
        hlines call (List.mem_append_left _ hcall)
      obtain ⟨s, run⟩ := ih hbefore
      have hline := hlines call (List.mem_append_right before (List.mem_singleton_self call))
      obtain ⟨_, t, hstep, -⟩ := call.stays hline (run_stays hbefore run).1
      exact ⟨t, run.snoc hstep⟩

/-- A run that stays on the screen gives each `vgaCls` a line of the screen. -/
theorem Stays.lineOnScreen (h : Stays io calls) {call : Call} (hcall : call ∈ calls) :
    call.lineOnScreen := by
  obtain ⟨before, after, rfl⟩ := List.append_of_mem hcall
  obtain ⟨u, run⟩ := h.returns ByteMem.zeros
  rw [List.append_cons] at run
  obtain ⟨t, run, -⟩ := run.split
  obtain ⟨hon, -⟩ := h.good _ _ t (by simp) ⟨after, by simp⟩ run
  obtain ⟨s, -, hstep⟩ := run.last
  cases call with
  | cls line => exact ((cls_returns line).returns hstep).1.mp hon
  | setCursor line col => trivial
  | putChar c => trivial

end Calls

/-- From boot, over any devices and memory, every call leaves the cursor on the screen and
stores in text memory only exactly when each `vgaCls()` happened to find a line of the
screen. -/
theorem cursor_stays_iff [Bus δ] (io : Ports δ) (calls : List Call) :
    Stays io calls ↔ ∀ call ∈ calls, call.lineOnScreen := by
  constructor
  · intro h call hcall
    exact h.lineOnScreen hcall
  · intro hlines
    refine ⟨fun m => run_exists hlines, fun m before s _ hpre run => ?_⟩
    exact run_stays (fun call hcall => hlines call (hpre.subset hcall)) run

/-- `vgaCls()` finds 100, and the cursor is on line 100. -/
theorem cursor_leaves : ¬∀ calls, Stays (δ := Unplugged) ⟨⟨⟩, []⟩ calls := by
  intro h
  have hline : (Call.cls 100).lineOnScreen := (h [.cls 100]).lineOnScreen (by simp)
  exact absurd hline (by rw [Call.lineOnScreen]; decide)

end MyBios.Screen
