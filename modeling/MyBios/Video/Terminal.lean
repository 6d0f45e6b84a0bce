import MyBios.Lib.Page
import MyBios.Video.Vga

/-!
The text screen is a terminal.

`layout` puts a string on an unbounded page of 80 columns. `Mirrors p s` says that
the screen of `s` is the window of 25 rows of the page `p`. Every symbol keeps
it (`Mirrors.newline`, `Mirrors.carriageReturn`, `Mirrors.char`), so it holds after
every string. The position that the hardware cursor is told is read off the
port accesses by replaying them on the two registers of the CRTC.
-/

namespace MyBios

open Prog

/-! ### The reference -/

/-- The symbol that a character stands for. -/
def symbol (c : U8) : Page.Symbol U8 :=
  if c = 0x0A then .newline else if c = 0x0D then .carriageReturn else .char c

/-- A string laid out on the page. -/
def page (text : List U8) : Page U8 80 := Page.layout (by decide) (text.map symbol)

/-- The index register of the CRTC and the registers it selects. -/
structure Crtc where
  index : U8
  regs : U8 → U8

def Crtc.access (crtc : Crtc) : PortEvent → Crtc
  | .outb port v =>
    if port = 0x3D4 then { crtc with index := v }
    else if port = 0x3D5 then { crtc with regs := Function.update crtc.regs crtc.index v }
    else crtc
  | _ => crtc

/-- The CRTC after the accesses of a log. -/
def Crtc.replay (crtc : Crtc) (log : List PortEvent) : Crtc := log.foldl access crtc

/-- The cell of the hardware cursor. -/
def Crtc.cursor (crtc : Crtc) : U16 := crtc.regs 0x0E ++ crtc.regs 0x0F

variable {δ : Type}

/-- A blank screen with the cursor in its first cell. -/
structure Cleared (s : Vga δ) : Prop where
  line : s.curLine = 0
  col : s.curCol = 0
  blank : ∀ r < 25, ∀ c < 80, CellShows s.mem r c 0x20

/-- The screen shows the rows of the page from `top` to `bottom`. -/
def Displays (p : Page U8 80) (m : ByteMem) : Prop :=
  ∀ r, p.top 25 ≤ r → r ≤ p.bottom 25 → ∀ c < 80,
    CellShows m (r - p.top 25) c ((p.cell r c).getD 0x20)

/-! ### The screen is a window of the page -/

/-- The screen and the cursor are those of the window of 25 rows. -/
structure Mirrors (p : Page U8 80) (s : Vga δ) : Prop where
  line : s.curLine.toNat = p.shownRow 25
  col : s.curCol.toNat = p.col
  text : ∀ r < 25, ∀ c < 80, CellShows s.mem r c ((p.shown 25 r c).getD 0x20)

section Mirrors

variable {p : Page U8 80} {s t : Vga δ} {c : U8}

theorem Mirrors.start (h : Cleared s) : Mirrors (page []) s where
  line := congrArg BitVec.toNat h.line
  col := congrArg BitVec.toNat h.col
  text := h.blank

theorem Mirrors.displays (h : Mirrors p s) : Displays p s.mem := by
  intro r hlo hhi c hc
  rw [Page.bottom_eq] at hhi
  have shown := h.text (r - p.top 25) (by omega) c hc
  rwa [Page.shown, Nat.add_sub_cancel' hlo] at shown

theorem Mirrors.line_lt (h : Mirrors p s) : s.curLine.toNat < 25 := by
  rw [h.line]
  exact Page.shownRow_lt (by decide)

theorem Mirrors.col_lt (h : Mirrors p s) : s.curCol.toNat < 80 := by
  rw [h.col]
  exact p.col_lt

/-- Column 0 of the line that `cur_line` names is in reach: nothing to wrap. -/
theorem wrap_of_lt (h : s.curCol.toNat < 80) : s.wrap = s := by
  refine if_neg ?_
  omega

theorem scroll_of_lt (h : s.curLine.toNat < 25) : s.scroll = s := by
  refine if_neg ?_
  omega

/-- Going to the next line, and scrolling when that was the last one. -/
theorem Mirrors.newline (h : Mirrors p s) :
    Mirrors p.newline ({ s with curLine := s.curLine + 1, curCol := 0 } : Vga δ).scroll := by
  have hline := h.line
  have hlt := h.line_lt
  have hnext : (s.curLine + 1).toNat = s.curLine.toNat + 1 := by
    rw [BitVec.toNat_add, show (1 : U8).toNat = 1 from rfl]
    exact Nat.mod_eq_of_lt (by omega)
  by_cases hlast : p.shownRow 25 + 1 < 25
  · rw [scroll_of_lt (by show (s.curLine + 1).toNat < 25; omega)]
    refine ⟨?_, rfl, ?_⟩
    · rw [hnext, hline]
      exact (Page.newline_inside (r := 0) (c := 0) hlast).2.symm
    · intro r hr c hc
      rw [(Page.newline_inside hlast).1]
      exact h.text r hr c hc
  · have hfull : p.shownRow 25 + 1 = 25 := by omega
    have hscroll : 25 ≤ (s.curLine + 1).toNat := by
      rw [hnext, hline, hfull]
    rw [Vga.scroll, if_pos hscroll]
    refine ⟨?_, rfl, ?_⟩
    · rw [(Page.newline_scrolls (c := 0) hfull (show 0 < 25 by decide)).2]
      show 24 = _
      omega
    · intro r hr c hc
      rw [(Page.newline_scrolls hfull hr).1, Page.scrolled]
      split
      · rename_i hup
        exact cellShows_vgaScroll_up hup hc (h.text (r + 1) hup c hc)
      · rw [show r = 24 by omega]
        exact cellShows_vgaScroll_last hc

theorem Mirrors.carriageReturn (h : Mirrors p s) :
    Mirrors p.carriageReturn { s with curCol := 0 } where
  line := h.line
  col := rfl
  text := h.text

/-- The cell under the cursor is filled; where the cursor goes is left open. -/
theorem Mirrors.fill (h : Mirrors p s) :
    Mirrors (p.fill c) { s with
      mem := vgaSetCharLc (s.curLine.setWidth 32) (s.curCol.setWidth 32) c s.mem } where
  line := h.line
  col := h.col
  text := by
    intro r hr k hk
    have cell := cellShows_vgaSetCharLc c h.line_lt h.col_lt hk (h.text r hr k hk)
    rw [h.line, h.col] at cell
    rw [Page.shown_fill]
    split
    · rename_i here
      rwa [if_pos here] at cell
    · rename_i other
      rwa [if_neg other] at cell

/-- One character, up to the hardware cursor. -/
theorem Mirrors.put (h : Mirrors p s) :
    Mirrors (p.step (symbol c)) (s.place c).wrap.scroll := by
  have hline := h.line_lt
  have hcol := p.col_lt
  rw [symbol, Vga.place]
  split
  · rw [wrap_of_lt (s := { s with curCol := 0, curLine := s.curLine + 1 }) (show 0 < 80 by decide)]
    exact h.newline
  · split
    · rw [wrap_of_lt (s := { s with curCol := 0 }) (show 0 < 80 by decide),
        scroll_of_lt (s := { s with curCol := 0 }) hline]
      exact h.carriageReturn
    · have hnext : (s.curCol + 1).toNat = p.col + 1 := by
        rw [BitVec.toNat_add, show (1 : U8).toNat = 1 from rfl, h.col, Nat.mod_eq_of_lt (by omega)]
      have hfill := h.fill (c := c)
      show Mirrors (p.fill c).advance _
      by_cases hinside : (p.fill c).col + 1 < 80
      · rw [wrap_of_lt (hnext.trans_lt hinside), Page.advance, dif_pos hinside, scroll_of_lt]
        · exact ⟨hfill.line, hnext, hfill.text⟩
        · exact hline
      · have hwrap : 80 ≤ (s.curCol + 1).toNat := by
          rw [hnext]
          exact Nat.not_lt.mp hinside
        rw [Vga.wrap, if_pos hwrap, Page.advance, dif_neg hinside]
        exact hfill.newline

end Mirrors

/-! ### The hardware cursor -/

theorem replay_append {crtc : Crtc} {log log' : List PortEvent} :
    crtc.replay (log ++ log') = (crtc.replay log).replay log' :=
  List.foldl_append

theorem low_byte {x : U32} : ((x &&& 0xFF).setWidth 8).toNat = x.toNat % 256 := by
  rw [BitVec.toNat_setWidth, BitVec.toNat_and]
  have hmask : x.toNat &&& 2 ^ 8 - 1 = x.toNat % 2 ^ 8 := Nat.and_two_pow_sub_one_eq_mod _ _
  exact (congrArg (· % 2 ^ 8) hmask).trans (Nat.mod_mod _ _)

/-- The two halves that `vgaSetCursor` writes are those of the index. -/
theorem halves_toNat {index : U32} (h : index.toNat < 2 ^ 15) :
    ((index.sshiftRight 8 &&& 0xFF).setWidth 8 ++ (index &&& 0xFF).setWidth 8 : U16).toNat =
      index.toNat := by
  have hmsb : index.msb = false := by
    rw [BitVec.msb_eq_false_iff_two_mul_lt]
    omega
  have hlow := low_byte (x := index)
  have hhigh := low_byte (x := index.sshiftRight 8)
  rw [BitVec.sshiftRight_eq_of_msb_false hmsb, BitVec.toNat_ushiftRight,
    Nat.shiftRight_eq_div_pow] at hhigh
  rw [BitVec.toNat_append, BitVec.sshiftRight_eq_of_msb_false hmsb, hhigh, hlow,
    ← Nat.shiftLeft_add_eq_or_of_lt (by omega), Nat.shiftLeft_eq]
  omega

variable [Bus δ] {p : Page U8 80} {s t : Vga δ} {c : U8} {crtc : Crtc}

/-- The accesses of `vgaSetCursor`. -/
def cursorAccesses (index : U32) : List PortEvent :=
  [.outb 0x3D4 0x0F, .outb 0x3D5 ((index &&& 0xFF).setWidth 8),
    .outb 0x3D4 0x0E, .outb 0x3D5 ((index.sshiftRight 8 &&& 0xFF).setWidth 8)]

theorem replay_cursorAccesses {index : U32} (h : index.toNat < 2 ^ 15) :
    (crtc.replay (cursorAccesses index)).cursor.toNat = index.toNat :=
  (halves_toNat h).symm ▸ rfl

/-- `vgaSetCursor` moves both cursors, and nothing else. -/
theorem vgaSetCursor_total (line col : U32) :
    Total (vgaSetCursor line col) s fun _ t =>
      t.curLine = line.setWidth 8 ∧ t.curCol = col.setWidth 8 ∧ t.mem = s.mem ∧
        t.io.log = s.io.log ++ cursorAccesses (line * 80 + col) := by
  obtain ⟨t, h⟩ : ∃ t, (vgaSetCursor line col).Returns s () t := by simp [vgaSetCursor]
  refine ⟨(), t, h, ?_⟩
  simp only [vgaSetCursor, returns_bind, returns_modify, returns_zoom, returns_outb] at h
  obtain ⟨_, _, rfl, _, ⟨_, _, rfl, _, _, rfl, _, _, rfl, rfl⟩, rfl⟩ := h
  refine ⟨rfl, rfl, rfl, ?_⟩
  simp [Vga.ioLens, cursorAccesses]

/-- A byte widened and cut again. -/
theorem setWidth_setWidth_byte {b : U8} : (b.setWidth 32).setWidth 8 = b := by
  apply BitVec.eq_of_toNat_eq
  rw [BitVec.toNat_setWidth, setWidth_byte]
  exact Nat.mod_eq_of_lt b.isLt

/-! ### Every string -/

/-- The screen is a window of the page of `text`, and once something was put
there, the CRTC has the cursor's cell in the window. -/
structure Tracks (crtc : Crtc) (text : List U8) (s : Vga δ) : Prop where
  mirrors : Mirrors (page text) s
  cursor : text ≠ [] → (crtc.replay s.io.log).cursor.toNat =
    80 * (page text).shownRow 25 + (page text).col

/-- One character. -/
theorem vgaPutChar_total {text : List U8} (h : Tracks crtc text s) :
    Total (vgaPutChar c) s fun _ t => Tracks crtc (text ++ [c]) t := by
  have hstep : page (text ++ [c]) = (page text).step (symbol c) := by
    rw [page, page, List.map_append]
    exact Page.layout_snoc
  have put := h.mirrors.put (c := c)
  rw [← hstep] at put
  have hline := put.line_lt
  have hcol := put.col_lt
  obtain ⟨u, t, hcursor, hl, hc, hm, hlog⟩ :=
    vgaSetCursor_total (s := (s.place c).wrap.scroll)
      ((s.place c).wrap.scroll.curLine.setWidth 32) ((s.place c).wrap.scroll.curCol.setWidth 32)
  rw [setWidth_setWidth_byte] at hl hc
  refine ⟨u, t, ?_, ⟨?_, ?_, ?_⟩, fun _ => ?_⟩
  · simpa [vgaPutChar] using hcursor
  · rw [hl]
    exact put.line
  · rw [hc]
    exact put.col
  · rw [hm]
    exact put.text
  · have hindex : ((s.place c).wrap.scroll.curLine.setWidth 32 * 80 +
        (s.place c).wrap.scroll.curCol.setWidth 32).toNat =
          80 * (s.place c).wrap.scroll.curLine.toNat + (s.place c).wrap.scroll.curCol.toNat := by
      rw [BitVec.toNat_add, BitVec.toNat_mul, setWidth_byte, setWidth_byte,
        show (80 : U32).toNat = 80 from rfl]
      omega
    rw [hlog, replay_append, replay_cursorAccesses (by omega), hindex, put.line, put.col]

/-- A string, after any other. -/
theorem vgaPutChars_total {before : List U8} (h : Tracks crtc before s) (text : List U8) :
    Total (vgaPutChars text) s fun _ t => Tracks crtc (before ++ text) t := by
  induction text generalizing s before with
  | nil =>
      refine total_pure ?_
      rwa [List.append_nil]
  | cons c cs ih =>
      refine (vgaPutChar_total h).bind fun _ t htracks => (ih htracks).mono fun _ u hrest => ?_
      rwa [List.append_assoc] at hrest

/-- The screen is the terminal: for every string put on a blank screen, it shows the
window of the page that ends in the cursor's row, and the hardware cursor was
told the cursor's cell in that window. -/
theorem vgaPutChars_terminal (crtc : Crtc) (h : Cleared s) (text : List U8) :
    Total (vgaPutChars text) s fun _ t =>
      Displays (page text) t.mem ∧
        (text ≠ [] → (crtc.replay t.io.log).cursor.toNat =
          80 * ((page text).row - (page text).top 25) + (page text).col) := by
  have start : Tracks crtc [] s := ⟨.start h, fun hne => absurd rfl hne⟩
  exact (vgaPutChars_total start text).mono fun _ t htracks =>
    ⟨htracks.mirrors.displays, htracks.cursor⟩

/-- `vgaCls` and `vgaSetCursor(0, 0)` leave such a screen, whatever was on it. -/
theorem cleared_vgaCls (line : U32) :
    Total (do vgaCls line; vgaSetCursor 0 0) s fun _ t => Cleared t := by
  refine Total.bind (R := fun _ t => ∀ r < 25, ∀ c < 80, CellShows t.mem r c 0x20) ?_ ?_
  · refine total_modify ?_
    intro r hr c hc
    dsimp only
    exact cellShows_blankScreen hr hc
  · intro _ t hblank
    refine (vgaSetCursor_total 0 0).mono fun _ u ⟨hl, hc, hm, _⟩ => ⟨hl, hc, ?_⟩
    rwa [hm]

/-- Nothing is behind the ports. -/
structure Unplugged where

instance silentBus : Bus Unplugged where
  inb _ d := (0xFF, d)
  inw _ d := (0xFFFF, d)
  outb _ _ d := d
  outw _ _ d := d
  ticks d := (0, d)

/-- A blank screen of a machine with nothing behind its ports. -/
def blankScreen : Vga Unplugged :=
  ⟨0, 0, ⟨⟨⟩, []⟩, fun a => if a % 2 = 0 then 0x20 else 0x1F⟩

theorem cleared_blankScreen : Cleared blankScreen := by
  refine ⟨rfl, rfl, fun r _ c _ => ⟨?_, ?_⟩⟩
  · exact if_pos (by rw [cellAddr, show txtBase.toNat = 0xB8000 from rfl]; omega)
  · exact if_neg (by rw [cellAddr, show txtBase.toNat = 0xB8000 from rfl]; omega)

/-- `"A\n"` leaves the cursor at the start of the second line. -/
theorem vgaPutChars_terminal_two :
    Total (vgaPutChars [0x41, 0x0A]) blankScreen fun _ t =>
      Displays (page [0x41, 0x0A]) t.mem ∧
        ([(0x41 : U8), 0x0A] ≠ [] → ((Crtc.mk 0 fun _ => 0).replay t.io.log).cursor.toNat =
          80 * ((page [0x41, 0x0A]).row - (page [0x41, 0x0A]).top 25) + (page [0x41, 0x0A]).col) :=
  vgaPutChars_terminal ⟨0, fun _ => 0⟩ cleared_blankScreen [0x41, 0x0A]

end MyBios
