import MyBios.Keyboard.Driver

/-!
Scan codes to characters (`keyboard_map` and the two tables of `keyboard.h`).

A table is as long as its highest designated index plus one, `KB1_SC_PAUSE + 1
= 0x5A`; an index without a designator holds 0. `keyboard_map` admits every
code below `0x80`, so for the codes from `0x5A` on it reads what the linker put
behind the table. That is not in the source: it is the parameter `beyond`.
-/

namespace MyBios

/-- `kb_scancodes_set1_noshift_map`. -/
def kbScancodesSet1NoshiftMap : List U8 :=
  [0x00, 0x1B,
    -- the digit row, from KB1_SC_1
    0x31, 0x32, 0x33, 0x34, 0x35, 0x36, 0x37, 0x38, 0x39, 0x30, 0x2D, 0x3D, 0x08, 0x09,
    -- KB1_SC_Q to KB1_SC_ENTER
    0x71, 0x77, 0x65, 0x72, 0x74, 0x79, 0x75, 0x69, 0x6F, 0x70, 0x5B, 0x5D, 0x0D,
    -- KB1_SC_LEFT_CTRL to KB1_SC_BACKTICK
    0x00, 0x61, 0x73, 0x64, 0x66, 0x67, 0x68, 0x6A, 0x6B, 0x6C, 0x3B, 0x27, 0x60,
    -- KB1_SC_LEFT_SHIFT to KB1_SC_SLASH
    0x00, 0x5C, 0x7A, 0x78, 0x63, 0x76, 0x62, 0x6E, 0x6D, 0x2C, 0x2E, 0x2F,
    -- KB1_SC_RIGHT_SHIFT to KB1_SC_SPACE
    0x00, 0x00, 0x00, 0x20] ++ List.replicate 32 0

/-- `kb_scancodes_set1_shift_map`. -/
def kbScancodesSet1ShiftMap : List U8 :=
  [0x00, 0x1B,
    0x21, 0x40, 0x23, 0x24, 0x25, 0x5E, 0x26, 0x2A, 0x28, 0x29, 0x5F, 0x2B, 0x08, 0x09,
    0x51, 0x57, 0x45, 0x52, 0x54, 0x59, 0x55, 0x49, 0x4F, 0x50, 0x7B, 0x7D, 0x0D,
    0x00, 0x41, 0x53, 0x44, 0x46, 0x47, 0x48, 0x4A, 0x4B, 0x4C, 0x3A, 0x22, 0x7E,
    0x00, 0x7C, 0x5A, 0x58, 0x43, 0x56, 0x42, 0x4E, 0x4D, 0x3C, 0x3E, 0x3F,
    0x00, 0x00, 0x00, 0x20] ++ List.replicate 32 0

/-- `keyboard_map`, with `bda.keyboard_flags_xt` for `xt`. -/
def keyboardMap (beyond : U8 → U8) (xt scancode : U8) : U8 :=
  if isMake scancode then
    if (xt &&& (kbStateLeftShift ||| kbStateRightShift)) ^^^ (xt &&& kbStateCapsLock) ≠ 0 then
      kbScancodesSet1ShiftMap.getD scancode.toNat (beyond scancode)
    else kbScancodesSet1NoshiftMap.getD scancode.toNat (beyond scancode)
  else 0

end MyBios
