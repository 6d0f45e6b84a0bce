import Mathlib.Logic.Basic

/-!
Text laid out on an unbounded page, seen through a window of fixed height.

A `Page α width` has rows of `width` cells without end. A `Page.Symbol` moves its
cursor (`newline`, `carriageReturn`) or fills the cell under the cursor and
moves on, from the last column to the next row. `layout` lays out a text.

A window of `height` rows ends in the cursor's row, or in row `height - 1` as
long as the cursor has not left the first `height` rows. `shown_fill`,
`newline_inside` and `newline_scrolls` say what a symbol changes in the window:
one cell, or nothing but the cursor, or all rows, which move up by one
(`scrolled`). The last of them rests on an invariant that is a field of `Page`:
the rows below the cursor are blank.
-/

/-- What a text is made of. -/
inductive Page.Symbol (α : Type) where
  | newline
  | carriageReturn
  | char (a : α)

/-- Rows of `width` cells, some of them filled, and a cursor. -/
structure Page (α : Type) (width : Nat) where
  cell : Nat → Nat → Option α
  row : Nat
  col : Nat
  col_lt : col < width
  blank_below : ∀ r, row < r → ∀ c, cell r c = none

namespace Page

variable {α : Type} {width : Nat}

/-! ### The page -/

/-- The blank page. -/
def blank (hw : 0 < width) : Page α width where
  cell _ _ := none
  row := 0
  col := 0
  col_lt := hw
  blank_below _ _ _ := rfl

/-- Column 0 of the same row. -/
def carriageReturn (p : Page α width) : Page α width where
  cell := p.cell
  row := p.row
  col := 0
  col_lt := Nat.zero_lt_of_lt p.col_lt
  blank_below := p.blank_below

/-- Column 0 of the next row. -/
def newline (p : Page α width) : Page α width where
  cell := p.cell
  row := p.row + 1
  col := 0
  col_lt := Nat.zero_lt_of_lt p.col_lt
  blank_below r hr := p.blank_below r (Nat.lt_of_succ_lt hr)

/-- Fill the cell under the cursor. -/
def fill (a : α) (p : Page α width) : Page α width where
  cell r c := if r = p.row ∧ c = p.col then some a else p.cell r c
  row := p.row
  col := p.col
  col_lt := p.col_lt
  blank_below r hr c := by
    rw [if_neg (fun h => absurd h.1 (Nat.ne_of_gt hr))]
    exact p.blank_below r hr c

/-- Leave a cell: to the right, or from the last column to the next row. -/
def advance (p : Page α width) : Page α width :=
  if h : p.col + 1 < width then { p with col := p.col + 1, col_lt := h } else p.newline

def step (p : Page α width) : Symbol α → Page α width
  | .newline => p.newline
  | .carriageReturn => p.carriageReturn
  | .char a => (p.fill a).advance

/-- A text laid out from the top left corner. -/
def layout (hw : 0 < width) (text : List (Symbol α)) : Page α width :=
  text.foldl step (blank hw)

theorem layout_snoc {hw : 0 < width} {text : List (Symbol α)} {s : Symbol α} :
    layout hw (text ++ [s]) = (layout hw text).step s := by
  rw [layout, List.foldl_append]
  rfl

/-! ### The window -/

/-- The first row that a window of `height` rows shows. -/
def top (height : Nat) (p : Page α width) : Nat := p.row - (height - 1)

/-- The last row that a window of `height` rows shows. -/
def bottom (height : Nat) (p : Page α width) : Nat := max (height - 1) p.row

/-- A window shows `height` rows. -/
theorem bottom_eq {height : Nat} (p : Page α width) :
    p.bottom height = p.top height + (height - 1) := by
  rw [bottom, top]
  omega

/-- The cell that the window shows in its row `r`. -/
def shown (height : Nat) (p : Page α width) (r c : Nat) : Option α := p.cell (p.top height + r) c

/-- The cursor's row in the window. -/
def shownRow (height : Nat) (p : Page α width) : Nat := p.row - p.top height

/-- All rows of a window one up, and a blank row at its end. -/
def scrolled (height : Nat) (cell : Nat → Nat → Option α) (r c : Nat) : Option α :=
  if r + 1 < height then cell (r + 1) c else none

variable {height : Nat} {p : Page α width} {r c : Nat}

/-- The cursor is in the window. -/
theorem shownRow_lt (hh : 0 < height) : p.shownRow height < height := by
  rw [shownRow, top]
  omega

theorem top_add_shownRow (height : Nat) (p : Page α width) :
    p.top height + p.shownRow height = p.row := by
  rw [shownRow, top]
  omega

theorem shown_fill {a : α} :
    (p.fill a).shown height r c =
      if r = p.shownRow height ∧ c = p.col then some a else p.shown height r c := by
  have hrow : p.top height + r = p.row ↔ r = p.shownRow height := by
    have hcursor := top_add_shownRow height p
    omega
  exact if_congr (and_congr_left' hrow) rfl rfl

/-- The next row is still in the window: nothing moves. -/
theorem newline_inside (h : p.shownRow height + 1 < height) :
    p.newline.shown height r c = p.shown height r c ∧
      p.newline.shownRow height = p.shownRow height + 1 := by
  have htop : p.newline.top height = p.top height := by
    rw [shownRow, top] at h
    show p.row + 1 - (height - 1) = p.row - (height - 1)
    omega
  constructor
  · rw [shown, htop]
    rfl
  · rw [shownRow, shownRow, htop]
    rw [shownRow, top] at h
    show p.row + 1 - (p.row - (height - 1)) = p.row - (p.row - (height - 1)) + 1
    omega

/-- The next row is below the window: the window scrolls and the cursor stays in
its last row. -/
theorem newline_scrolls (h : p.shownRow height + 1 = height) (hr : r < height) :
    p.newline.shown height r c = scrolled height (p.shown height) r c ∧
      p.newline.shownRow height = p.shownRow height := by
  have htop : p.newline.top height = p.top height + 1 := by
    rw [shownRow, top] at h
    show p.row + 1 - (height - 1) = p.row - (height - 1) + 1
    omega
  constructor
  · rw [shown, htop, scrolled, Nat.add_assoc, Nat.add_comm 1 r]
    split
    · rfl
    · -- Row `r` of the window is now the row that the cursor has just entered.
      refine p.blank_below _ ?_ c
      have hrow := top_add_shownRow height p
      omega
  · rw [shownRow, shownRow, htop]
    show p.row + 1 - (p.top height + 1) = p.row - p.top height
    omega

end Page
